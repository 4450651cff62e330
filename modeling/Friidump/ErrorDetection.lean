import Friidump.BlockScrambling
import Friidump.Theory.FewErrors
import Mathlib.NumberTheory.LucasLehmer

/-!
# Wrong bits in a block

The check field of a sector reveals up to three wrong bits, wherever they are, and any
odd number of them.
-/

set_option autoImplicit false

namespace Friidump

open Theory
open Function (minimalPeriod)

/-! ## The divisor -/

theorem edcPoly_period : minimalPeriod (shiftOut edcPoly) (topBit true) = 2 ^ 31 - 1 := by
  have prime : Fact (Nat.Prime (2 ^ 31 - 1)) :=
    ⟨lucas_lehmer_sufficiency 31 (by decide) (by norm_num)⟩
  exact minimalPeriod_shiftOut edcPoly_constant (by decide +kernel) (by decide)

/-- The value of a remainder at the root 1. -/
def bitParity : BitVec 32 → BitVec 1 := combine (List.replicate 32 1#1) 0

theorem bitParity_xorLinear : XorLinear bitParity := combine_xorLinear _ 0

theorem bitParity_shiftOut (register : BitVec 32) :
    bitParity (shiftOut edcPoly register) = bitParity register :=
  congrFun ((bitParity_xorLinear.comp (shiftOut_xorLinear edcPoly)).eq_of_columns bitParity_xorLinear
    (by decide)) register

/-! ## Sectors -/

/-- How many bits of a sector an error pattern changes. -/
def Buffer.flips (pattern : Buffer) : Nat := (List.range (2064 * 8)).countP pattern.bit

theorem messageBits_sector (pattern : Buffer) :
    messageBits (pattern.bytes 2064) = (List.range (2064 * 8)).map pattern.bit := by
  refine List.ext_getElem? fun i => ?_
  rw [messageBits_getElem?, Buffer.bytes, List.getElem?_map, List.getElem?_map]
  have bytes : i / 8 < 2064 ↔ i < 2064 * 8 := Nat.div_lt_iff_lt_mul (by decide)
  by_cases inside : i < 2064 * 8
  · simp [inside, bytes.mpr inside, Buffer.bit]
  · simp [inside, mt bytes.mp inside]

theorem count_sector (pattern : Buffer) :
    (messageBits (pattern.bytes 2064)).count true = pattern.flips := by
  rw [messageBits_sector, List.count, List.countP_map, Buffer.flips]
  refine List.countP_congr fun i _ => ?_
  simp

theorem sectorSyndrome_flips_zero {pattern : Buffer} (clear : pattern.flips = 0) :
    sectorSyndrome pattern = 0 := by
  rw [← count_sector] at clear
  rw [← UInt32.toBitVec_inj, sectorSyndrome, edcCalc_toBitVec, remainder_clear _ clear]
  exact ((shiftOut_xorLinear edcPoly).iterate _).map_zero

/-- Few wrong bits change the syndrome. -/
theorem sectorSyndrome_flips_ne_zero {pattern : Buffer} (flipped : pattern.flips ≠ 0)
    (few : pattern.flips ≤ 3 ∨ pattern.flips % 2 = 1) : sectorSyndrome pattern ≠ 0 := by
  rw [Ne, ← UInt32.toBitVec_inj, sectorSyndrome, edcCalc_toBitVec]
  by_cases odd : pattern.flips % 2 = 1
  · rw [← count_sector] at odd
    exact remainder_odd_ne_zero bitParity_xorLinear bitParity_shiftOut (by decide) odd
  · have pair : pattern.flips = 2 := by omega
    have length : (messageBits (pattern.bytes 2064)).length = 2064 * 8 := by
      rw [messageBits_sector, List.length_map, List.length_range]
    rw [← count_sector] at pair
    refine remainder_pair_ne_zero edcPoly_constant ?_ pair
    rw [length, edcPoly_period]
    decide

/-! ## Blocks -/

/-- `pattern k` is laid over sector `k`. -/
def damagedBlock (block : Buffer) (pattern : Nat → Buffer) : Buffer := fun a =>
  block a ^^^ pattern (a / 2064) (a % 2064)

theorem sectorSyndrome_damagedBlock (plain : Nat → Buffer) (seed : BitVec 15) (pattern : Nat → Buffer)
    (s : BitVec 15) (k : Nat) :
    sectorSyndrome (decodedSector (damagedBlock (scrambledBlock plain seed) pattern) (seedOf s) k) =
      sectorSyndrome (decodedSector (scrambledBlock plain seed) (seedOf s) k) ^^^
        sectorSyndrome (pattern k) := by
  rw [← sectorSyndrome_xor]
  refine sectorSyndrome_congr fun i inside => ?_
  have quotient : (2064 * k + i) / 2064 = k := by omega
  have offset : (2064 * k + i) % 2064 = i := by omega
  simp only [decodedSector, damagedBlock, Buffer.xor, Buffer.advance_apply, quotient, offset]
  rw [UInt8.xor_assoc, UInt8.xor_assoc, UInt8.xor_comm (pattern k i)]

/-- As long as one sector of a block is undamaged, no state of the unscrambler takes it with one to
three wrong bits, or an odd number of them, in another one. What the other sectors have come to
makes no difference. -/
theorem unscramble_flips_rejected {u : Unscrambler} (reachable : Reachable u) (disctype : UInt8)
    (sectorNo : UInt32) (plain : Nat → Buffer) (seed : BitVec 15) {pattern : Nat → Buffer}
    {whole damaged : Nat} (insideWhole : whole < 16) (undamaged : (pattern whole).flips = 0)
    (inside : damaged < 16) (flipped : (pattern damaged).flips ≠ 0)
    (few : (pattern damaged).flips ≤ 3 ∨ (pattern damaged).flips % 2 = 1) (outbuf : Buffer) :
    (unscramblerUnscramble16sectors disctype u sectorNo
      (damagedBlock (scrambledBlock plain seed) pattern) outbuf).out = false := by
  refine Bool.eq_false_iff.mpr fun success => ?_
  obtain ⟨j, accepted, passes, _⟩ := (outcome reachable.formed).accepts success
  rw [toUInt16_eq_seedOf (Nat.lt_succ_of_lt accepted.1)] at passes
  have kept := passes whole insideWhole
  rw [sectorSyndrome_damagedBlock, sectorSyndrome_flips_zero undamaged, UInt32.xor_zero] at kept
  have sameSeed := (decodedSector_passes_iff plain seed _ whole).mp kept
  have wrong := passes damaged inside
  rw [sectorSyndrome_damagedBlock, sameSeed, (decodedSector_passes_iff plain seed seed damaged).mpr rfl,
    UInt32.zero_xor] at wrong
  exact sectorSyndrome_flips_ne_zero flipped few wrong

/-- Two wrong bits far apart in the second sector of a block of zeroes. -/
theorem unscramble_flips_rejected_pair :
    (unscramblerUnscramble16sectors 3
      (unscramblerNew { seeds := fun _ => { seed := 0, streamcipher := fun _ => 0 },
                        bruteforceSeeds := false })
      0 (damagedBlock (scrambledBlock (fun _ _ => 0) 0#15)
        (fun k i => if k = 1 ∧ (i = 0 ∨ i = 2000) then 0x80 else 0)) (fun _ => 0)).out = false := by
  have pair : Buffer.flips (fun i => if 1 = 1 ∧ (i = 0 ∨ i = 2000) then 0x80 else 0) = 2 := by
    decide +kernel
  have clear : Buffer.flips (fun i => if 0 = 1 ∧ (i = 0 ∨ i = 2000) then 0x80 else 0) = 0 :=
    List.countP_eq_zero.mpr fun i _ => by simp [Buffer.bit]
  exact @unscramble_flips_rejected _ (.new _) 3 0 (fun _ _ => 0) 0#15
    (fun k i => if k = 1 ∧ (i = 0 ∨ i = 2000) then 0x80 else 0) 0 1 (by decide) clear (by decide)
    (by rw [pair]; decide) (.inl (by rw [pair]; decide)) _

end Friidump
