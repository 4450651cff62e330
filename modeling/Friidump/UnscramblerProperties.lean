import Friidump.StreamProperties
import Friidump.Unscrambler

/-!
# What a call of the unscrambler can do

Specifications of the seed test, of the unscrambling of a block, and of the
search, and one inversion lemma for the whole call.
-/

set_option autoImplicit false

namespace Friidump

/-! ## The seed test -/

private theorem xor_cipherPad (buf : Buffer) (seed : UInt16) :
    buf.xor (cipherPad seed) = fun i =>
      if 12 ≤ i ∧ i < 2060 then buf i ^^^ lfsrStream seed (i - 12) else buf i := by
  funext i
  rw [Buffer.xor, cipherPad]
  split
  · rfl
  · exact UInt8.xor_zero

theorem edc_check_iff (tmp : Buffer) :
    (edcCalc 0x00000000 (tmp.bytes 2060) = myNtohl (tmp.advance 2060).loadWord) ↔
      sectorSyndrome tmp = 0 := by
  rw [sectorSyndrome_eq_zero_iff, Buffer.myNtohl_loadWord]

theorem testSeed_iff (buf : Buffer) (j : Nat) :
    testSeed buf j = true ↔ sectorSyndrome (buf.xor (cipherPad j.toUInt16)) = 0 := by
  rw [xor_cipherPad, ← edc_check_iff]
  simp only [testSeed, beq_iff_eq]

theorem toUInt16_eq_seedOf {j : Nat} (small : j < 0x8000) :
    j.toUInt16 = seedOf (BitVec.ofNat 15 j) := by
  apply UInt16.toNat_inj.mp
  have value : (seedOf (BitVec.ofNat 15 j)).toNat = j := by
    rw [seedOf, ← UInt16.toNat_toBitVec, BitVec.toNat_setWidth, BitVec.toNat_ofNat,
      Nat.mod_eq_of_lt small, Nat.mod_eq_of_lt (Nat.lt_trans small (by decide))]
  rw [value]
  exact Nat.mod_eq_of_lt (Nat.lt_trans small (by decide))

theorem cipherPad_xor (first second : BitVec 15) :
    (cipherPad (seedOf first)).xor (cipherPad (seedOf second)) =
      cipherPad (seedOf (first ^^^ second)) := by
  funext i
  simp only [Buffer.xor, cipherPad]
  split
  · exact (lfsrStream_xor first second _).symm
  · rfl

/-- Two streams that both pass the check on one sector are streams of one seed. -/
theorem cipherPad_unique {buf : Buffer} {first second : BitVec 15}
    (left : sectorSyndrome (buf.xor (cipherPad (seedOf first))) = 0)
    (right : sectorSyndrome (buf.xor (cipherPad (seedOf second))) = 0) : first = second := by
  have difference : sectorSyndrome (cipherPad (seedOf (first ^^^ second))) = 0 := by
    rw [← cipherPad_xor, sectorSyndrome_xor]
    rw [sectorSyndrome_xor] at left right
    rw [← UInt32.xor_eq_zero_iff.mp left, ← UInt32.xor_eq_zero_iff.mp right, UInt32.xor_self]
  have zero := (sectorSyndrome_cipherPad_eq_zero_iff _).mp difference
  exact BitVec.xor_eq_zero_iff.mp zero

theorem testSeed_inj {buf : Buffer} {j j' : Nat} (small : j < 0x8000) (small' : j' < 0x8000)
    (passes : testSeed buf j = true) (passes' : testSeed buf j' = true) : j = j' := by
  rw [testSeed_iff, toUInt16_eq_seedOf small] at passes
  rw [testSeed_iff, toUInt16_eq_seedOf small'] at passes'
  have same := congrArg BitVec.toNat (cipherPad_unique passes passes')
  simpa [Nat.mod_eq_of_lt small, Nat.mod_eq_of_lt small'] using same

/-! ## Unscrambling a block -/

def decodedSector (bin : Buffer) (seed : UInt16) (k : Nat) : Buffer :=
  (bin.advance (2064 * k)).xor (cipherPad seed)

def dataOffset (disctype : UInt8) : Nat := if disctype = 3 then 12 else 6

/-- What the first `n` rounds of `unscrambleFrame` leave behind. -/
def decodedFrame (disctype : UInt8) (seed : UInt16) (bin bout : Buffer) (n : Nat) : Frame where
  out := decide (∀ k < n, sectorSyndrome (decodedSector bin seed k) = 0)
  bin := fun a =>
    if disctype ≠ 3 ∧ a / 2064 < n ∧ 2054 ≤ a % 2064 ∧ a % 2064 < 2060 then
      decodedSector bin seed (a / 2064) (a % 2064)
    else bin a
  bout := fun a =>
    if a / 2048 < n then decodedSector bin seed (a / 2048) (dataOffset disctype + a % 2048)
    else bout a

theorem decodedFrame_out_iff (disctype : UInt8) (seed : UInt16) (bin bout : Buffer) (n : Nat) :
    (decodedFrame disctype seed bin bout n).out = true ↔
      ∀ k < n, sectorSyndrome (decodedSector bin seed k) = 0 :=
  decide_eq_true_iff

theorem decodedFrame_bout (disctype : UInt8) (seed : UInt16) (bin bout : Buffer) {n k i : Nat}
    (insideBlock : k < n) (insideSector : i < 2048) :
    (decodedFrame disctype seed bin bout n).bout (2048 * k + i) =
      decodedSector bin seed k (dataOffset disctype + i) := by
  have quotient : (2048 * k + i) / 2048 = k := by omega
  have offset : (2048 * k + i) % 2048 = i := by omega
  rw [decodedFrame]
  simp only [quotient, offset, if_pos insideBlock]

theorem decodedFrame_bin (disctype : UInt8) (seed : UInt16) (bin bout : Buffer) {n k i : Nat}
    (insideBlock : k < n) (insideSector : i < 2064) :
    (decodedFrame disctype seed bin bout n).bin (2064 * k + i) =
      if disctype ≠ 3 ∧ 2054 ≤ i ∧ i < 2060 then decodedSector bin seed k i
      else bin (2064 * k + i) := by
  have quotient : (2064 * k + i) / 2064 = k := by omega
  have offset : (2064 * k + i) % 2064 = i := by omega
  rw [decodedFrame]
  simp only [quotient, offset, insideBlock, true_and]

structure TSeed.Holds (entry : TSeed) (j : Nat) : Prop where
  number : entry.seed = j
  stream : ∀ i < 2048, entry.streamcipher i = lfsrStream j.toUInt16 i

private theorem xorCipher_apply (tmp cipher : Buffer) (words i : Nat) :
    xorCipher tmp cipher words i =
      if 12 ≤ i ∧ i < 12 + 4 * words then tmp i ^^^ cipher (i - 12) else tmp i := by
  induction words generalizing i with
  | zero =>
      rw [if_neg (by omega)]
      rfl
  | succ words ih =>
      have step : xorCipher tmp cipher (words + 1) =
          (xorCipher tmp cipher words).storeWord (12 + 4 * words)
            (((xorCipher tmp cipher words).advance (12 + 4 * words)).loadWord ^^^
              (cipher.advance (4 * words)).loadWord) := by
        rw [xorCipher, List.range_succ, List.foldl_append]
        rfl
      rw [step, Buffer.storeWord_xor_loadWord]
      simp only [Buffer.advance_apply]
      by_cases last : 12 + 4 * words ≤ i ∧ i < 12 + 4 * words + 4
      · have place : 4 * words + (i - (12 + 4 * words)) = i - 12 := by omega
        rw [if_pos last, if_pos (by omega), ih, if_neg (by omega), Nat.add_sub_cancel' last.1, place]
      · rw [if_neg last, ih]
        by_cases covered : 12 ≤ i ∧ i < 12 + 4 * words
        · rw [if_pos covered, if_pos (by omega)]
        · rw [if_neg covered, if_neg (by omega)]

private theorem xorCipher_holds {entry : TSeed} {j : Nat} (held : entry.Holds j)
    (tmp : Buffer) :
    xorCipher tmp entry.streamcipher 512 = tmp.xor (cipherPad j.toUInt16) := by
  rw [xor_cipherPad]
  funext i
  rw [xorCipher_apply]
  by_cases covered : 12 ≤ i ∧ i < 2060
  · rw [if_pos covered, if_pos covered, held.stream _ (by omega)]
  · rw [if_neg covered, if_neg covered]

private theorem div_eq_of_range {a size j : Nat} (lower : size * j ≤ a)
    (upper : a < size * j + size) : a / size = j ∧ a % size = a - size * j := by
  obtain ⟨i, rfl⟩ := Nat.exists_eq_add_of_le lower
  have inside : i < size := Nat.lt_of_add_lt_add_left upper
  have positive : 0 < size := Nat.lt_of_le_of_lt (Nat.zero_le i) inside
  rw [Nat.mul_add_div positive, Nat.mul_add_mod, Nat.div_eq_of_lt inside, Nat.mod_eq_of_lt inside]
  exact ⟨rfl, (Nat.add_sub_cancel_left _ _).symm⟩

private theorem div_ne_of_outside {a size j : Nat} (positive : 0 < size)
    (outside : ¬ (size * j ≤ a ∧ a < size * j + size)) : a / size ≠ j := by
  rintro rfl
  exact outside ⟨Nat.mul_div_le a size, Nat.lt_mul_div_succ a positive⟩

section Round

variable {entry : TSeed} {seed : UInt16} {j : Nat}

private theorem decodedSector_ahead (disctype : UInt8) (seed : UInt16) (bin bout : Buffer)
    (n : Nat) : ((decodedFrame disctype seed bin bout n).bin.advance (2064 * n)).xor
      (cipherPad seed) = decodedSector bin seed n := by
  funext i
  simp only [Buffer.xor, decodedSector, Buffer.advance_apply, decodedFrame]
  have ahead : ¬ (2064 * n + i) / 2064 < n := by
    rw [Nat.mul_add_div (by decide)]
    exact Nat.not_lt.mpr (Nat.le_add_right _ _)
  rw [if_neg fun patched => ahead patched.2.1]

private theorem round_out (disctype : UInt8) (bin bout : Buffer) (n : Nat) :
    (if edcCalc 0x00000000 ((decodedSector bin seed n).bytes 2060) !=
        myNtohl ((decodedSector bin seed n).advance 2060).loadWord then false
      else (decodedFrame disctype seed bin bout n).out) =
      (decodedFrame disctype seed bin bout (n + 1)).out := by
  have check := edc_check_iff (decodedSector bin seed n)
  simp only [decodedFrame, Nat.forall_lt_succ_right, Bool.decide_and]
  by_cases passes : sectorSyndrome (decodedSector bin seed n) = 0
  · rw [check.mpr passes, bne_self_eq_false, if_neg Bool.false_ne_true, decide_eq_true passes,
      Bool.and_true]
  · rw [if_pos (bne_iff_ne.mpr fun same => passes (check.mp same)), decide_eq_false passes,
      Bool.and_false]

private theorem round_bin (disctype : UInt8) (bin bout : Buffer) (n : Nat) :
    (if disctype = 3 then (decodedFrame disctype seed bin bout n).bin
      else (decodedFrame disctype seed bin bout n).bin.memcpy (2064 * n + 2054)
        ((decodedSector bin seed n).advance 2054) 6) =
      (decodedFrame disctype seed bin bout (n + 1)).bin := by
  by_cases regular : disctype = 3
  · simp [decodedFrame, regular]
  · rw [if_neg regular]
    funext a
    simp only [decodedFrame, regular, ne_eq, not_false_eq_true, true_and, Buffer.memcpy,
      Buffer.advance_apply]
    by_cases written : 2064 * n + 2054 ≤ a ∧ a < 2064 * n + 2054 + 6
    · obtain ⟨quotient, offset⟩ := @div_eq_of_range a 2064 n (by omega) (by omega)
      have place : 2054 + (a - (2064 * n + 2054)) = a - 2064 * n := by omega
      rw [if_pos written, quotient, offset, if_pos (by omega), place]
    · rw [if_neg written]
      have skipped : a / 2064 = n → ¬ (2054 ≤ a % 2064 ∧ a % 2064 < 2060) := by
        intro quotient inside
        have split := Nat.div_add_mod a 2064
        rw [quotient] at split
        omega
      by_cases earlier : a / 2064 < n
      · simp only [earlier, Nat.lt_succ_of_lt earlier]
      · by_cases here : a / 2064 = n
        · rw [if_neg (by omega), if_neg fun patched => skipped here patched.2]
        · rw [if_neg (by omega), if_neg (by omega)]

private theorem round_bout (disctype : UInt8) (bin bout : Buffer) (n : Nat) :
    (decodedFrame disctype seed bin bout n).bout.memcpy (2048 * n)
        ((decodedSector bin seed n).advance (dataOffset disctype)) 2048 =
      (decodedFrame disctype seed bin bout (n + 1)).bout := by
  funext a
  simp only [decodedFrame, Buffer.memcpy, Buffer.advance_apply]
  by_cases written : 2048 * n ≤ a ∧ a < 2048 * n + 2048
  · obtain ⟨quotient, offset⟩ := div_eq_of_range written.1 written.2
    rw [if_pos written, quotient, offset, if_pos (Nat.lt_succ_self n)]
  · have elsewhere := div_ne_of_outside (by decide) written
    rw [if_neg written]
    by_cases earlier : a / 2048 < n
    · rw [if_pos earlier, if_pos (Nat.lt_succ_of_lt earlier)]
    · rw [if_neg earlier, if_neg (by omega)]

private theorem unscrambleSector_round (held : entry.Holds j) (disctype : UInt8)
    (bin bout : Buffer) (n : Nat) :
    unscrambleSector disctype entry (decodedFrame disctype j.toUInt16 bin bout n) n =
      decodedFrame disctype j.toUInt16 bin bout (n + 1) := by
  have copied : ∀ into tmp : Buffer,
      (if disctype = 3 then into.memcpy (2048 * n) (tmp.advance 12) 2048
        else into.memcpy (2048 * n) (tmp.advance 6) 2048) =
        into.memcpy (2048 * n) (tmp.advance (dataOffset disctype)) 2048 := by
    intro into tmp
    rw [dataOffset]
    split <;> rfl
  rw [unscrambleSector, xorCipher_holds held, decodedSector_ahead, round_out disctype bin bout,
    round_bin disctype bin bout, copied, round_bout]

/-- A cached stream and the register itself unscramble a block alike. -/
theorem unscrambleFrame_eq (held : entry.Holds j) (disctype : UInt8) (bin bout : Buffer) :
    unscrambleFrame disctype entry bin bout = decodedFrame disctype j.toUInt16 bin bout 16 := by
  have rounds : ∀ n, (List.range n).foldl (unscrambleSector disctype entry)
      { out := true, bin := bin, bout := bout } =
        decodedFrame disctype j.toUInt16 bin bout n := by
    intro n
    induction n with
    | zero => simp [decodedFrame]
    | succ n ih =>
        rw [List.range_succ, List.foldl_append, ih]
        exact unscrambleSector_round held disctype bin bout n
  exact rounds 16

end Round

end Friidump
