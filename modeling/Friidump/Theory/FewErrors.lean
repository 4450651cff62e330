import Friidump.Theory.DivisionRegister
import Mathlib.Dynamics.PeriodicPts.Lemmas

/-!
# Errors of few bits

Two wrong bits leave a remainder as long as their distance is no period of the
register. A divisor that shares a root with every message of even weight detects
any odd number of wrong bits.
-/

set_option autoImplicit false

namespace Friidump.Theory

open Function (minimalPeriod IsPeriodicPt)

variable {w : Nat} {poly : BitVec w}

/-! ## Set bits of a message -/

/-- A message with a set bit, cut there. -/
theorem count_split {message : List Bool} {n : Nat} (set : message.count true = n + 1) :
    ∃ before rest, message = List.replicate before false ++ true :: rest ∧ rest.count true = n := by
  induction message with
  | nil => cases set
  | cons bit message ih =>
      cases bit with
      | true =>
          rw [List.count_cons_self] at set
          exact ⟨0, message, rfl, Nat.succ.inj set⟩
      | false =>
          rw [List.count_cons_of_ne Bool.false_ne_true] at set
          obtain ⟨before, rest, rfl, left⟩ := ih set
          exact ⟨before + 1, rest, rfl, left⟩

theorem remainder_clear (register : BitVec w) {message : List Bool} (clear : message.count true = 0) :
    remainder poly register message = (shiftOut poly)^[message.length] register := by
  have silent : message = List.replicate message.length false := by
    refine List.eq_replicate_iff.mpr ⟨rfl, fun bit member => ?_⟩
    cases bit with
    | false => rfl
    | true => exact absurd member (List.count_eq_zero.mp clear)
  rw [silent, remainder_replicate_false, List.length_replicate]

/-- The register after the first set bit. -/
theorem remainder_first (before : Nat) (rest : List Bool) :
    remainder poly 0#w (List.replicate before false ++ true :: rest) =
      remainder poly (shiftOut poly (topBit true)) rest := by
  have zero : (shiftOut poly)^[before] 0#w = 0#w := ((shiftOut_xorLinear poly).iterate before).map_zero
  rw [remainder_append, remainder_replicate_false, zero, remainder_cons, absorb, BitVec.zero_xor]

/-! ## Two bits -/

/-- Two set bits leave a remainder unless the register has come back to where it was. -/
theorem remainder_pair_ne_zero (constant : poly.getLsbD 0 = true) {message : List Bool}
    (short : message.length ≤ minimalPeriod (shiftOut poly) (topBit true))
    (pair : message.count true = 2) : remainder poly 0#w message ≠ 0#w := by
  obtain ⟨before, rest, rfl, single⟩ := count_split pair
  obtain ⟨between, rest, rfl, clear⟩ := count_split single
  rw [remainder_first, remainder_append, remainder_replicate_false, remainder_cons,
    remainder_clear _ clear, Ne, shiftOut_iterate_eq_zero_iff constant]
  intro vanishes
  have meets := (shiftOut_iterate_eq_zero_iff constant 1 _).mp vanishes
  have returns : IsPeriodicPt (shiftOut poly) (between + 1) (topBit true) :=
    BitVec.xor_eq_zero_iff.mp meets
  have near : between + 1 < minimalPeriod (shiftOut poly) (topBit true) := by
    refine Nat.lt_of_lt_of_le ?_ short
    simp only [List.length_append, List.length_cons, List.length_replicate]
    omega
  exact Function.not_isPeriodicPt_of_pos_of_lt_minimalPeriod (Nat.succ_ne_zero between) near returns

/-! ## The period of the register -/

/-- The columns of a map after repeated doubling of the number of its iterations. -/
def doubled : Nat → List (BitVec w) → List (BitVec w)
  | 0, table => table
  | k + 1, table => doubled k (table.map (combine table 0))

theorem doubled_columns {f : BitVec w → BitVec w} (linear : XorLinear f) (k n : Nat) :
    doubled k (columns f^[n]) = columns f^[2 ^ k * n] := by
  induction k generalizing n with
  | zero =>
      rw [Nat.pow_zero, Nat.one_mul]
      rfl
  | succ k ih =>
      rw [doubled, ← columns_comp _ (linear.iterate n), ← Function.iterate_add, ih, Nat.pow_succ,
        Nat.mul_assoc, Nat.two_mul n]

/-- A register that is back after a prime number of steps was not back before. -/
theorem minimalPeriod_shiftOut {k : Nat} [prime : Fact (Nat.Prime (2 ^ k - 1))]
    (constant : poly.getLsbD 0 = true) (returns : combine (doubled k (columns (shiftOut poly))) 0
      (topBit true : BitVec w) = shiftOut poly (topBit true))
    (moves : shiftOut poly (topBit true) ≠ topBit true) :
    minimalPeriod (shiftOut poly) (topBit true) = 2 ^ k - 1 := by
  have linear := shiftOut_xorLinear poly
  have positive : 2 ^ k = 2 ^ k - 1 + 1 := (Nat.sub_add_cancel Nat.one_le_two_pow).symm
  have table := doubled_columns linear k 1
  rw [Function.iterate_one, Nat.mul_one] at table
  rw [table, combine_columns (linear.iterate _), positive, Function.iterate_succ_apply'] at returns
  exact Function.minimalPeriod_eq_prime_iff.mpr ⟨shiftOut_injective constant returns, moves⟩

/-! ## An odd number of bits -/

/-- A linear functional that the register keeps counts the bits that go in. -/
theorem remainder_functional {f : BitVec w → BitVec 1} (linear : XorLinear f)
    (kept : ∀ register, f (shiftOut poly register) = f register) (top : f (topBit true) = 1#1)
    (register : BitVec w) (message : List Bool) :
    f (remainder poly register message) = f register ^^^ BitVec.ofNat 1 (message.count true) := by
  induction message generalizing register with
  | nil => simp
  | cons bit message ih =>
      rw [remainder_cons, ih, absorb, kept, linear.map_xor, BitVec.xor_assoc]
      cases bit with
      | false => rw [topBit_false, linear.map_zero, BitVec.zero_xor, List.count_cons_of_ne Bool.false_ne_true]
      | true =>
          have next : 1#1 ^^^ BitVec.ofNat 1 (message.count true) =
              BitVec.ofNat 1 (message.count true + 1) := by
            rw [BitVec.ofNat_add]
            generalize BitVec.ofNat 1 (message.count true) = parity
            revert parity
            decide
          rw [top, next, List.count_cons_self]

theorem remainder_odd_ne_zero {f : BitVec w → BitVec 1} (linear : XorLinear f)
    (kept : ∀ register, f (shiftOut poly register) = f register) (top : f (topBit true) = 1#1)
    {message : List Bool} (odd : message.count true % 2 = 1) : remainder poly 0#w message ≠ 0#w := by
  intro vanishes
  have counted := remainder_functional linear kept top 0#w message
  rw [vanishes, linear.map_zero, BitVec.zero_xor] at counted
  have parity := congrArg BitVec.toNat counted
  rw [BitVec.toNat_ofNat, BitVec.toNat_ofNat, Nat.pow_one, odd] at parity
  cases parity

end Friidump.Theory
