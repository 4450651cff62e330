import Friidump.Ecma267Properties

/-!
# The scrambling stream of a 15-bit seed

The stream is linear in its seed. The sector check of a non-zero stream never
vanishes, so a scrambled sector determines its seed.
-/

set_option autoImplicit false

namespace Friidump

open Theory

/-- The register contents set up from a 15-bit seed. -/
def seedOf (seed : BitVec 15) : UInt16 := ⟨seed.setWidth 16⟩

/-- The 15-bit register of the documentation, with taps at bits 10 and 14. -/
def streamTick (register : BitVec 15) : BitVec 15 :=
  (register <<< 1) ^^^ (if register.msb ^^ register.getLsbD 10 then 1#15 else 0#15)

def streamFeed (register : BitVec 15) : BitVec 32 := topBit register.msb

theorem streamTick_xorLinear : XorLinear streamTick := by
  constructor
  intro x y
  simp only [streamTick, BitVec.msb_xor, BitVec.getLsbD_xor, BitVec.shiftLeft_xor_distrib]
  cases x.msb <;> cases y.msb <;> cases x.getLsbD 10 <;> cases y.getLsbD 10 <;>
    simp [xor_cancel] <;> ac_rfl

theorem streamFeed_xorLinear : XorLinear streamFeed :=
  ⟨fun x y => by rw [streamFeed, BitVec.msb_xor, topBit_xor]; rfl⟩

/-! ## One tick -/

private theorem seedOf_shift14 (seed : BitVec 15) :
    seedOf seed >>> 14 = if seed.msb then 1 else 0 := by
  apply UInt16.toBitVec_inj.mp
  apply BitVec.eq_of_getLsbD_eq
  intro i inside
  have lead : seed.msb = seed[14] := by simp [BitVec.msb_eq_getLsbD_last]
  rw [lead]
  cases i with
  | zero => cases bit : seed[14] <;> simp [seedOf, bit]
  | succ i =>
      have beyond : seed.getLsbD (14 + (i + 1)) = false := BitVec.getLsbD_of_ge _ _ (by omega)
      cases seed[14] <;> simp [seedOf, beyond]

private theorem seedOf_tap10 (seed : BitVec 15) :
    (seedOf seed >>> 10) &&& 1 = if seed.getLsbD 10 then 1 else 0 := by
  apply UInt16.toBitVec_inj.mp
  apply BitVec.eq_of_getLsbD_eq
  intro i inside
  have tap : 10 < 15 := by decide
  rw [BitVec.getLsbD_eq_getElem tap]
  cases i with
  | zero => cases bit : seed[10] <;> simp [seedOf, bit]
  | succ i => cases seed[10] <;> simp [seedOf]

private theorem mask15_bit (i : Nat) : (0x7FFF#16).getLsbD i = decide (i < 15) := by
  have ones : (0x7FFF#16 : BitVec 16) = BitVec.ofNat 16 (2 ^ 15 - 1) := rfl
  rw [ones, BitVec.getLsbD_ofNat, Nat.testBit_two_pow_sub_one]
  by_cases low : i < 15
  · simp [low, Nat.lt_succ_of_lt low]
  · simp [low]

private theorem seedOf_next (seed : BitVec 15) (tap : Bool) :
    ((seedOf seed <<< 1) ||| (if tap then (1 : UInt16) else 0)) &&& (0x7FFF : UInt16) =
      seedOf ((seed <<< 1) ^^^ (if tap then 1#15 else 0#15)) := by
  apply UInt16.toBitVec_inj.mp
  apply BitVec.eq_of_getLsbD_eq
  intro i inside
  have mask : (0x7FFF : UInt16).toBitVec = 0x7FFF#16 := rfl
  rw [UInt16.toBitVec_and, BitVec.getLsbD_and, mask, mask15_bit]
  by_cases low : i < 15
  · cases i with
    | zero => cases tap <;> simp [seedOf]
    | succ i =>
        have below : i < 16 := Nat.lt_of_succ_lt inside
        cases tap <;> simp [seedOf, low, inside] <;> exact BitVec.getLsbD_eq_getElem _
  · have beyond : i = 15 := by omega
    subst beyond
    simp [seedOf]

theorem lfsrTick_seedOf (seed : BitVec 15) :
    lfsrTick (seedOf seed) = (if seed.msb then 1 else 0, seedOf (streamTick seed)) := by
  have feedback : seedOf seed >>> 14 ^^^ ((seedOf seed >>> 10) &&& 1) =
      if seed.msb ^^ seed.getLsbD 10 then 1 else 0 := by
    rw [seedOf_shift14, seedOf_tap10]
    cases seed.msb <;> cases seed.getLsbD 10 <;> rfl
  rw [lfsrTick, feedback, seedOf_shift14, seedOf_next]
  rfl

/-! ## The byte stream -/

def streamBits (n : Nat) (seed : BitVec 15) : List Bool :=
  (List.range n).map fun k => (streamTick^[k] seed).msb

theorem streamBits_succ (n : Nat) (seed : BitVec 15) :
    streamBits (n + 1) seed = seed.msb :: streamBits n (streamTick seed) := by
  simp [streamBits, List.range_succ_eq_map, Function.comp_def]

theorem streamBits_add (m n : Nat) (seed : BitVec 15) :
    streamBits (m + n) seed = streamBits m seed ++ streamBits n (streamTick^[m] seed) := by
  simp only [streamBits, List.range_add, List.map_append, List.map_map]
  congr 1
  refine List.map_congr_left fun k _ => ?_
  rw [Function.comp_apply, ← Function.iterate_add_apply, Nat.add_comm]

private def pushBit (ret : UInt8) (bit : Bool) : UInt8 := (ret <<< 1) ||| (if bit then 1 else 0)

private theorem lfsrByteLoop_seedOf (n : Nat) (ret : UInt8) (seed : BitVec 15) :
    lfsrByteLoop n ret (seedOf seed) =
      ((streamBits n seed).foldl pushBit ret, seedOf (streamTick^[n] seed)) := by
  induction n generalizing ret seed with
  | zero => rfl
  | succ n ih =>
      rw [lfsrByteLoop, lfsrTick_seedOf, ih, streamBits_succ, List.foldl_cons,
        Function.iterate_succ_apply]
      congr 3
      cases seed.msb <;> rfl

private theorem pushBit_byteBits : ∀ b0 b1 b2 b3 b4 b5 b6 b7 : Bool,
    byteBits ([b0, b1, b2, b3, b4, b5, b6, b7].foldl pushBit 0) =
      [b0, b1, b2, b3, b4, b5, b6, b7] := by
  decide +kernel

theorem lfsrByte_seedOf (seed : BitVec 15) :
    byteBits (lfsrByte (seedOf seed)).1 = streamBits 8 seed ∧
      (lfsrByte (seedOf seed)).2 = seedOf (streamTick^[8] seed) := by
  rw [lfsrByte, lfsrByteLoop_seedOf]
  exact ⟨pushBit_byteBits _ _ _ _ _ _ _ _, rfl⟩

private theorem lfsrByte_iterate_seedOf (i : Nat) (seed : BitVec 15) :
    (fun lfsr => (lfsrByte lfsr).2)^[i] (seedOf seed) = seedOf (streamTick^[8 * i] seed) := by
  induction i generalizing seed with
  | zero => rfl
  | succ i ih =>
      rw [Function.iterate_succ_apply, (lfsrByte_seedOf seed).2, ih,
        ← Function.iterate_add_apply]
      rfl

theorem byteBits_lfsrStream (seed : BitVec 15) (i : Nat) :
    byteBits (lfsrStream (seedOf seed) i) = streamBits 8 (streamTick^[8 * i] seed) := by
  rw [lfsrStream, lfsrByte_iterate_seedOf, (lfsrByte_seedOf _).1]

theorem messageBits_lfsrStream (seed : BitVec 15) (length : Nat) :
    messageBits ((lfsrStream (seedOf seed)).bytes length) = streamBits (8 * length) seed := by
  induction length with
  | zero => rfl
  | succ length ih =>
      rw [Buffer.bytes_add, messageBits, List.flatMap_append, ← messageBits, ih, Nat.mul_succ,
        streamBits_add, ← byteBits_lfsrStream]
      simp [Buffer.bytes, Buffer.advance]

private theorem byteBits_injective {left right : UInt8} (same : byteBits left = byteBits right) :
    left = right := by
  have packed := congrArg (fun bits => (pack bits : BitVec 8)) same
  simp only [byteBits, pack_msbBits] at packed
  exact UInt8.toBitVec_inj.mp packed

theorem lfsrStream_xor (first second : BitVec 15) (i : Nat) :
    lfsrStream (seedOf (first ^^^ second)) i =
      lfsrStream (seedOf first) i ^^^ lfsrStream (seedOf second) i := by
  apply byteBits_injective
  rw [byteBits_xor, byteBits_lfsrStream, byteBits_lfsrStream, byteBits_lfsrStream,
    (streamTick_xorLinear.iterate _).map_xor]
  simp only [streamBits, List.zipWith_map, List.zipWith_self]
  refine List.map_congr_left fun k _ => ?_
  rw [(streamTick_xorLinear.iterate k).map_xor, BitVec.msb_xor]

theorem lfsrStream_zero (i : Nat) : lfsrStream 0 i = 0 := by
  have doubled := lfsrStream_xor 0#15 0#15 i
  rw [BitVec.xor_self, UInt8.xor_self] at doubled
  exact doubled

/-! ## No stream passes for another -/

/-- What scrambling adds to a sector. -/
def cipherPad (seed : UInt16) : Buffer := fun i =>
  if 12 ≤ i ∧ i < 2060 then lfsrStream seed (i - 12) else 0

private theorem remainder_streamBits (n : Nat) (seed : BitVec 15) (register : BitVec 32) :
    remainder edcPoly register (streamBits n seed) =
      accumulate streamTick streamFeed (shiftOut edcPoly) n seed register := by
  induction n generalizing seed register with
  | zero => rfl
  | succ n ih =>
      rw [streamBits_succ, remainder_cons, ih, accumulate]
      rfl

/-- Columns that recover a seed from the remainder of its 16384 stream bits. -/
private def streamInverse : List (BitVec 15) :=
  [0x2B49#15, 0x7769#15, 0x0AD2#15, 0x15A4#15, 0x0AB2#15, 0x689F#15,
   0x14C4#15, 0x5472#15, 0x4CE4#15, 0x0033#15, 0x7D9D#15, 0x3EC1#15,
   0x2183#15, 0x62FD#15, 0x0000#15, 0x5C00#15]

private theorem streamInverse_inverts :
    ((strideOf streamTick streamFeed (shiftOut edcPoly) 1).advance 14).fed.map
        (combine streamInverse 0) = columns (id : BitVec 15 → BitVec 15) := by
  decide +kernel

private theorem remainder_streamBits_injective :
    Function.Injective fun seed => remainder edcPoly 0#32 (streamBits 16384 seed) := by
  have linear := accumulate_xorLinear streamTick_xorLinear streamFeed_xorLinear
    (shiftOut_xorLinear edcPoly) 16384
  have inverts := streamInverse_inverts
  rw [strideOf_advance streamTick_xorLinear streamFeed_xorLinear (shiftOut_xorLinear edcPoly)]
    at inverts
  have injective := linear.injective_of_columns streamInverse inverts
  simpa only [remainder_streamBits] using injective

private theorem messageBits_cipherPad (seed : UInt16) :
    messageBits ((cipherPad seed).bytes 2064) =
      List.replicate 96 false ++
        (messageBits ((lfsrStream seed).bytes 2048) ++ List.replicate 32 false) := by
  have front : (cipherPad seed).bytes 12 = List.replicate 12 0 := by
    rw [Buffer.bytes, List.map_eq_replicate_iff.mpr, List.length_range]
    intro i member
    have below := List.mem_range.mp member
    exact if_neg (by omega)
  have middle : ((cipherPad seed).advance 12).bytes 2048 = (lfsrStream seed).bytes 2048 := by
    refine Buffer.bytes_congr fun i below => ?_
    rw [Buffer.advance, cipherPad, if_pos (by omega), Nat.add_sub_cancel_left]
  have back : ((cipherPad seed).advance 2060).bytes 4 = List.replicate 4 0 := by
    rw [Buffer.bytes, List.map_eq_replicate_iff.mpr, List.length_range]
    intro i member
    rw [Buffer.advance]
    exact if_neg (by omega)
  rw [Buffer.bytes_add _ 2060 4, Buffer.bytes_add _ 12 2048, front, middle, back]
  simp only [messageBits, List.flatMap_append, List.append_assoc]
  rfl

/-- The sector check notices every non-zero stream. -/
theorem sectorSyndrome_cipherPad_eq_zero_iff (seed : BitVec 15) :
    sectorSyndrome (cipherPad (seedOf seed)) = 0 ↔ seed = 0#15 := by
  have zeroStream : remainder edcPoly 0#32 (streamBits 16384 0#15) = 0#32 := by
    rw [remainder_streamBits, accumulate_zero_source streamTick_xorLinear streamFeed_xorLinear,
      ((shiftOut_xorLinear edcPoly).iterate _).map_zero]
  have lead : (shiftOut edcPoly)^[96] (0 : UInt32).toBitVec = 0#32 :=
    ((shiftOut_xorLinear edcPoly).iterate 96).map_zero
  have whole : (sectorSyndrome (cipherPad (seedOf seed))).toBitVec =
      (shiftOut edcPoly)^[32] (remainder edcPoly 0#32 (streamBits 16384 seed)) := by
    rw [sectorSyndrome, edcCalc_toBitVec, messageBits_cipherPad, messageBits_lfsrStream,
      remainder_append, remainder_append, remainder_replicate_false, remainder_replicate_false,
      lead]
  rw [← UInt32.toBitVec_inj, whole]
  refine (shiftOut_iterate_eq_zero_iff edcPoly_constant 32 _).trans ?_
  constructor
  · intro vanishes
    exact remainder_streamBits_injective (vanishes.trans zeroStream.symm)
  · rintro rfl
    exact zeroStream

end Friidump
