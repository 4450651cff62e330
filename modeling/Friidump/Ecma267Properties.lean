import Friidump.Ecma267
import Friidump.Theory.DivisionRegister

/-!
# Algebra of the sector check and of the scrambling stream

The table-driven code is polynomial division, the scrambling stream is linear
in its seed, and together they let at most one seed fit a sector.
-/

set_option autoImplicit false

namespace Friidump

open Theory

/-- Lower coefficients of `x^32 + x^31 + x^4 + 1`. -/
def edcPoly : BitVec 32 := 0x80000011#32

def byteBits (byte : UInt8) : List Bool := msbBits byte.toBitVec

def messageBits (bytes : List UInt8) : List Bool := bytes.flatMap byteBits

@[simp] theorem length_byteBits (byte : UInt8) : (byteBits byte).length = 8 :=
  length_msbBits _

theorem edcPoly_constant : edcPoly.getLsbD 0 = true := by decide

/-! ## The table -/

private theorem edcTable_entry : ∀ i : Fin 256,
    (edcTable.getD i.val 0).toBitVec = (shiftOut edcPoly)^[8] (BitVec.ofNat 32 i.val <<< 24) := by
  decide +kernel

private theorem pack_byteBits (byte : UInt8) :
    (pack (byteBits byte) : BitVec 32) = byte.toUInt32.toBitVec <<< 24 := by
  apply BitVec.eq_of_getMsbD_eq
  intro i inside
  rw [getMsbD_pack _ _ inside, BitVec.getMsbD_shiftLeft, byteBits, msbBits]
  by_cases first : i < 8
  · have place : 31 - (i + 24) = 7 - i := by omega
    have within : i + 24 < 32 ∧ 7 - i < 32 := by omega
    simp [first, BitVec.getMsbD_eq_getLsbD, place, within]
  · have beyond : ¬ i + 24 < 32 := by omega
    simp [first, BitVec.getMsbD_eq_getLsbD, beyond]

private theorem mask_bit (i : Nat) : (0xFF#32).getLsbD i = decide (i < 8) := by
  have ones : (0xFF#32 : BitVec 32) = BitVec.ofNat 32 (2 ^ 8 - 1) := rfl
  rw [ones, BitVec.getLsbD_ofNat, Nat.testBit_two_pow_sub_one]
  by_cases low : i < 8
  · have inside : i < 32 := by omega
    simp [low, inside]
  · simp [low]

private theorem register_split (register byte : BitVec 32) :
    register ^^^ (byte <<< 24) =
      ((((register >>> 24) ^^^ byte) &&& 0xFF#32) <<< 24) ^^^ ((register <<< 8) >>> 8) := by
  apply BitVec.eq_of_getLsbD_eq
  intro i inside
  simp only [BitVec.getLsbD_xor, BitVec.getLsbD_shiftLeft, BitVec.getLsbD_ushiftRight,
    BitVec.getLsbD_and, mask_bit]
  by_cases high : 24 ≤ i
  · have places : ¬ i < 24 ∧ ¬ 8 + i < 32 ∧ i - 24 < 8 := by omega
    simp [inside, places, Nat.add_sub_cancel' high]
  · have places : i < 24 ∧ 8 + i < 32 ∧ ¬ 8 + i < 8 := by omega
    simp [inside, places]

private theorem index_lt (register byte : BitVec 32) :
    (((register >>> 24) ^^^ byte) &&& 0xFF#32).toNat < 256 := by
  rw [BitVec.toNat_and]
  exact Nat.lt_of_le_of_lt Nat.and_le_right (by decide)

private theorem edcStep_remainder (edc : UInt32) (byte : UInt8) :
    (edcTable.getD (((edc >>> 24) ^^^ byte.toUInt32) &&& 0xFF).toNat 0 ^^^ (edc <<< 8)).toBitVec =
      remainder edcPoly edc.toBitVec (byteBits byte) := by
  rw [remainder_eq_iterate _ _ _ (by simp), pack_byteBits, length_byteBits, register_split,
    ((shiftOut_xorLinear edcPoly).iterate 8).map_xor]
  have low : (shiftOut edcPoly)^[8] ((edc.toBitVec <<< 8) >>> 8) = edc.toBitVec <<< 8 := by
    refine shiftOut_iterate_ushiftRight edcPoly _ 8 fun i below => ?_
    simp [below]
  have index : (((edc >>> 24) ^^^ byte.toUInt32) &&& 0xFF).toNat =
      (((edc.toBitVec >>> 24) ^^^ byte.toUInt32.toBitVec) &&& 0xFF#32).toNat := by
    rw [← UInt32.toNat_toBitVec, UInt32.toBitVec_and, UInt32.toBitVec_xor,
      UInt32.toBitVec_shiftRight]
    rfl
  have entry := edcTable_entry ⟨_, index_lt edc.toBitVec byte.toUInt32.toBitVec⟩
  rw [BitVec.ofNat_toNat, BitVec.setWidth_eq] at entry
  rw [low, UInt32.toBitVec_xor, index, entry, UInt32.toBitVec_shiftLeft]
  rfl

/-- The table-driven code divides the message by the documented polynomial. -/
theorem edcCalc_toBitVec (edc : UInt32) (bytes : List UInt8) :
    (edcCalc edc bytes).toBitVec = remainder edcPoly edc.toBitVec (messageBits bytes) := by
  induction bytes generalizing edc with
  | nil => rfl
  | cons byte rest ih =>
      rw [edcCalc, ih, edcStep_remainder]
      simp only [messageBits, List.flatMap_cons, remainder_append]

theorem byteBits_xor (left right : UInt8) :
    byteBits (left ^^^ right) =
      List.zipWith (fun a b => a ^^ b) (byteBits left) (byteBits right) := by
  simp [byteBits, msbBits, List.zipWith_map, List.zipWith_self]

private theorem length_messageBits (bytes : List UInt8) :
    (messageBits bytes).length = 8 * bytes.length := by
  induction bytes with
  | nil => rfl
  | cons byte rest ih =>
      simp only [messageBits, List.flatMap_cons, List.length_append, List.length_cons] at ih ⊢
      rw [ih, length_byteBits]
      omega

private theorem messageBits_xor {first second : List UInt8} (sameLength : first.length = second.length) :
    messageBits (List.zipWith (· ^^^ ·) first second) =
      List.zipWith (fun a b => a ^^ b) (messageBits first) (messageBits second) := by
  induction first generalizing second with
  | nil => simp [messageBits]
  | cons byte rest ih =>
      cases second with
      | nil => simp at sameLength
      | cons byte' rest' =>
          have later := ih (Nat.succ.inj sameLength)
          simp only [messageBits, List.zipWith_cons_cons, List.flatMap_cons] at later ⊢
          rw [later, byteBits_xor, List.zipWith_append (by simp)]

theorem edcCalc_zipWith_xor (edc edc' : UInt32) {first second : List UInt8}
    (sameLength : first.length = second.length) :
    edcCalc (edc ^^^ edc') (List.zipWith (· ^^^ ·) first second) =
      edcCalc edc first ^^^ edcCalc edc' second := by
  apply UInt32.toBitVec_inj.mp
  rw [edcCalc_toBitVec, messageBits_xor sameLength, UInt32.toBitVec_xor, UInt32.toBitVec_xor,
    remainder_xor _ _ _ _ _ (by simp [length_messageBits, sameLength]), ← edcCalc_toBitVec,
    ← edcCalc_toBitVec]

theorem edcCalc_xor (edc edc' : UInt32) (first second : Buffer) (length : Nat) :
    edcCalc (edc ^^^ edc') ((first.xor second).bytes length) =
      edcCalc edc (first.bytes length) ^^^ edcCalc edc' (second.bytes length) := by
  have bytes : (first.xor second).bytes length =
      List.zipWith (· ^^^ ·) (first.bytes length) (second.bytes length) := by
    simp [Buffer.bytes, Buffer.xor, List.zipWith_map, List.zipWith_self]
  rw [bytes]
  exact edcCalc_zipWith_xor edc edc' (by simp)

theorem edcCalc_append (edc : UInt32) (first second : List UInt8) :
    edcCalc edc (first ++ second) = edcCalc (edcCalc edc first) second := by
  apply UInt32.toBitVec_inj.mp
  simp only [edcCalc_toBitVec, messageBits, List.flatMap_append, remainder_append]

/-- The table-driven code is the bitwise division, starting from any register: it goes on
where it stopped, and from zero it is linear in the bytes. -/
theorem edcCalc_division (edc : UInt32) (bytes : List UInt8) :
    (edcCalc edc bytes).toBitVec = remainder edcPoly edc.toBitVec (messageBits bytes) ∧
      (∀ later, edcCalc (edcCalc edc bytes) later = edcCalc edc (bytes ++ later)) ∧
      ∀ other : List UInt8, other.length = bytes.length →
        edcCalc 0 (List.zipWith (· ^^^ ·) bytes other) = edcCalc 0 bytes ^^^ edcCalc 0 other := by
  refine ⟨edcCalc_toBitVec edc bytes, fun later => (edcCalc_append edc bytes later).symm, ?_⟩
  intro other sameLength
  exact edcCalc_zipWith_xor 0 0 sameLength.symm

theorem edcCalc_division_bytes :
    edcCalc 0 [0x80 ^^^ 0x01, 0x00 ^^^ 0xFF] = edcCalc 0 [0x80, 0x00] ^^^ edcCalc 0 [0x01, 0xFF] :=
  (edcCalc_division 0 [0x80, 0x00]).2.2 [0x01, 0xFF] rfl

/-! ## Whole sectors -/

/-- The code over all 2064 bytes of a sector, its check field included. -/
def sectorSyndrome (sector : Buffer) : UInt32 := edcCalc 0 (sector.bytes 2064)

theorem sectorSyndrome_congr {first second : Buffer} (same : ∀ i < 2064, first i = second i) :
    sectorSyndrome first = sectorSyndrome second := by
  rw [sectorSyndrome, sectorSyndrome, Buffer.bytes_congr same]

theorem sectorSyndrome_xor (first second : Buffer) :
    sectorSyndrome (first.xor second) = sectorSyndrome first ^^^ sectorSyndrome second := by
  simp only [sectorSyndrome]
  rw [← edcCalc_xor, UInt32.xor_self]

private theorem messageBits_field (field : Buffer) :
    messageBits (field.bytes 4) = msbBits field.loadWordBig.toBitVec := by
  have spread : msbBits field.loadWordBig.toBitVec =
      msbBits ((field 0).toBitVec ++ (field 1).toBitVec ++ (field 2).toBitVec ++
        (field 3).toBitVec : BitVec (8 + 8 + 8 + 8)) := rfl
  rw [spread, msbBits_append, msbBits_append, msbBits_append]
  simp [messageBits, Buffer.bytes, List.range_succ, byteBits]

/-- A sector passes its check exactly when the code over the whole sector vanishes. -/
theorem sectorSyndrome_eq_zero_iff (sector : Buffer) :
    sectorSyndrome sector = 0 ↔
      edcCalc 0 (sector.bytes 2060) = (sector.advance 2060).loadWordBig := by
  rw [← UInt32.toBitVec_inj, ← UInt32.toBitVec_inj, sectorSyndrome,
    Buffer.bytes_add sector 2060 4, edcCalc_toBitVec, edcCalc_toBitVec, messageBits,
    List.flatMap_append, ← messageBits, ← messageBits, messageBits_field]
  exact remainder_append_field_eq_zero_iff edcPoly_constant _ _ _

/-- Bit `i` of a byte string, most significant bit of each byte first. -/
def Buffer.bit (pattern : Buffer) (i : Nat) : Bool := (pattern (i / 8)).toBitVec.getMsbD (i % 8)

theorem messageBits_getElem? (bytes : List UInt8) (i : Nat) :
    (messageBits bytes)[i]? = bytes[i / 8]?.map fun byte => byte.toBitVec.getMsbD (i % 8) := by
  induction bytes generalizing i with
  | nil => simp [messageBits]
  | cons byte rest ih =>
      simp only [messageBits, List.flatMap_cons] at ih ⊢
      by_cases first : i < 8
      · rw [List.getElem?_append_left (by simpa using first), Nat.div_eq_of_lt first,
          Nat.mod_eq_of_lt first]
        simp [byteBits, msbBits, first]
      · rw [List.getElem?_append_right (by simpa using Nat.not_lt.mp first), length_byteBits, ih]
        obtain ⟨j, rfl⟩ := Nat.exists_eq_add_of_le (Nat.not_lt.mp first)
        simp [Nat.add_div_left]

/-- A non-zero error pattern within 32 consecutive bits changes the syndrome. -/
theorem sectorSyndrome_burst_ne_zero (pattern : Buffer) (start : Nat)
    (confined : ∀ i < 2064 * 8, pattern.bit i = true → start ≤ i ∧ i < start + 32)
    (nonzero : ∃ i < 2064 * 8, pattern.bit i = true) : sectorSyndrome pattern ≠ 0 := by
  have bits : ∀ i : Nat, (messageBits (pattern.bytes 2064))[i]? = some true ↔
      i < 2064 * 8 ∧ pattern.bit i = true := by
    intro i
    rw [messageBits_getElem?, Buffer.bytes, List.getElem?_map, Buffer.bit]
    have bytes : i / 8 < 2064 ↔ i < 2064 * 8 := Nat.div_lt_iff_lt_mul (by decide)
    by_cases inside : i < 2064 * 8
    · simp [inside, bytes.mpr inside]
    · simp [inside, mt bytes.mp inside]
  rw [Ne, ← UInt32.toBitVec_inj, sectorSyndrome, edcCalc_toBitVec]
  refine remainder_burst_ne_zero edcPoly_constant _ start ?_ ?_
  · intro i found
    obtain ⟨inside, set⟩ := (bits i).mp found
    exact confined i inside set
  · obtain ⟨i, inside, set⟩ := nonzero
    exact ⟨i, (bits i).mpr ⟨inside, set⟩⟩

end Friidump
