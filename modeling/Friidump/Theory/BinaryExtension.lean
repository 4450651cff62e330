import Mathlib.Algebra.CharP.Two
import Mathlib.Algebra.Field.ZMod
import Mathlib.Data.Nat.Bitwise
import Mathlib.Dynamics.PeriodicPts.Defs
import Mathlib.FieldTheory.IsAlgClosed.AlgebraicClosure

/-!
# Words as elements of a binary field

The bits of a word are coefficients of the powers of an element. Where the
element is a root of the feedback polynomial, a shift with feedback multiplies
by it.
-/

set_option autoImplicit false

namespace Friidump.Theory

open Polynomial

/-- The register of `w + 1` bits moves up; what leaves at the top comes back as `feedback`. -/
def shiftUpBy (w feedback a : ℕ) : ℕ :=
  if 2 ^ w ≤ a then feedback ^^^ ((a ^^^ 2 ^ w) <<< 1) else a <<< 1

section Sums

variable {K : Type*} [Field K] {β : K} {w a b feedback : ℕ}

def bitSum (β : K) (w a : ℕ) : K := ∑ i ∈ Finset.range w, if a.testBit i then β ^ i else 0

theorem bitSum_zero (β : K) (w : ℕ) : bitSum β w 0 = 0 :=
  Finset.sum_eq_zero fun i _ => by rw [Nat.zero_testBit, if_neg Bool.false_ne_true]

theorem bitSum_two_pow {i : ℕ} (inside : i < w) : bitSum β w (2 ^ i) = β ^ i := by
  refine (Finset.sum_eq_single_of_mem i (Finset.mem_range.mpr inside) fun j _ other => ?_).trans ?_
  · rw [Nat.testBit_two_pow_of_ne other.symm, if_neg Bool.false_ne_true]
  · rw [Nat.testBit_two_pow_self, if_pos rfl]

theorem bitSum_one (β : K) (w : ℕ) : bitSum β (w + 1) 1 = 1 :=
  (bitSum_two_pow (Nat.succ_pos w)).trans (pow_zero β)

theorem bitSum_xor [CharP K 2] (β : K) (w a b : ℕ) :
    bitSum β w (a ^^^ b) = bitSum β w a + bitSum β w b := by
  rw [bitSum, bitSum, bitSum, ← Finset.sum_add_distrib]
  refine Finset.sum_congr rfl fun i _ => ?_
  rw [Nat.testBit_xor]
  cases a.testBit i <;> cases b.testBit i <;> simp [CharTwo.add_self_eq_zero]

theorem bitSum_shiftLeft (below : a < 2 ^ w) :
    bitSum β (w + 1) (a <<< 1) = β * bitSum β (w + 1) a := by
  have top : a.testBit w = false := Nat.testBit_lt_two_pow below
  have bottom : (a <<< 1).testBit 0 = false := by
    rw [Nat.testBit_shiftLeft]
    rfl
  rw [bitSum, bitSum, Finset.sum_range_succ', Finset.sum_range_succ, top, bottom,
    if_neg Bool.false_ne_true, if_neg Bool.false_ne_true, add_zero, add_zero, Finset.mul_sum]
  refine Finset.sum_congr rfl fun i _ => ?_
  rw [Nat.testBit_shiftLeft, Nat.add_sub_cancel, decide_eq_true (Nat.le_add_left 1 i), Bool.true_and,
    mul_ite, mul_zero, pow_succ']

private theorem cleared_lt (top : 2 ^ w ≤ a) (inside : a < 2 ^ (w + 1)) : a ^^^ 2 ^ w < 2 ^ w := by
  refine Nat.lt_pow_two_of_testBit _ fun i above => ?_
  rw [Nat.testBit_xor]
  obtain rfl | higher := Nat.eq_or_lt_of_le above
  · rw [Nat.testBit_two_pow_self, Nat.testBit_of_two_pow_le_and_two_pow_add_one_gt top inside]
    rfl
  · have wide := Nat.pow_le_pow_right (by decide : 0 < 2) higher
    rw [Nat.testBit_two_pow_of_ne (Nat.ne_of_lt higher),
      Nat.testBit_lt_two_pow (Nat.lt_of_lt_of_le inside wide)]
    rfl

theorem shiftUpBy_lt (feeds : feedback < 2 ^ (w + 1)) (inside : a < 2 ^ (w + 1)) :
    shiftUpBy w feedback a < 2 ^ (w + 1) := by
  have doubled : ∀ c < 2 ^ w, c <<< 1 < 2 ^ (w + 1) := fun c below => by
    rw [Nat.shiftLeft_eq, pow_one, pow_succ]
    exact Nat.mul_lt_mul_of_pos_right below (by decide)
  rw [shiftUpBy]
  split
  · rename_i top
    exact Nat.xor_lt_two_pow feeds (doubled _ (cleared_lt top inside))
  · rename_i small
    exact doubled a (Nat.not_le.mp small)

/-- The shift multiplies by a root of the feedback polynomial. -/
theorem bitSum_shiftUpBy [CharP K 2] (root : bitSum β (w + 1) feedback = β ^ (w + 1))
    (inside : a < 2 ^ (w + 1)) :
    bitSum β (w + 1) (shiftUpBy w feedback a) = β * bitSum β (w + 1) a := by
  rw [shiftUpBy]
  split
  · rename_i top
    have restored : a ^^^ 2 ^ w ^^^ 2 ^ w = a := by
      rw [Nat.xor_assoc, Nat.xor_self, Nat.xor_zero]
    have value : bitSum β (w + 1) a = bitSum β (w + 1) (a ^^^ 2 ^ w) + β ^ w := by
      rw [← bitSum_two_pow (Nat.lt_succ_self w), ← bitSum_xor, restored]
    rw [bitSum_xor, root, bitSum_shiftLeft (cleared_lt top inside), value, mul_add, pow_succ',
      add_comm]
  · rename_i small
    exact bitSum_shiftLeft (Nat.not_le.mp small)

/-! ## A register of full period -/

/-- What one becomes after `k` shifts. -/
def power (w feedback k : ℕ) : ℕ := (shiftUpBy w feedback)^[k] 1

theorem power_succ (w feedback k : ℕ) :
    power w feedback (k + 1) = shiftUpBy w feedback (power w feedback k) :=
  Function.iterate_succ_apply' _ _ _

theorem power_lt (feeds : feedback < 2 ^ (w + 1)) (k : ℕ) : power w feedback k < 2 ^ (w + 1) := by
  induction k with
  | zero => exact Nat.one_lt_two_pow (Nat.succ_ne_zero w)
  | succ k ih =>
      rw [power_succ]
      exact shiftUpBy_lt feeds ih

variable [CharP K 2]

theorem bitSum_power (feeds : feedback < 2 ^ (w + 1))
    (root : bitSum β (w + 1) feedback = β ^ (w + 1)) (k : ℕ) :
    bitSum β (w + 1) (power w feedback k) = β ^ k := by
  induction k with
  | zero => exact bitSum_two_pow (Nat.succ_pos w)
  | succ k ih => rw [power_succ, bitSum_shiftUpBy root (power_lt feeds k), ih, pow_succ']

/-- The feedback makes the register run through every word but zero. -/
structure FullPeriod (w feedback : ℕ) : Prop where
  feeds : feedback < 2 ^ (w + 1)
  period : Function.minimalPeriod (shiftUpBy w feedback) 1 = 2 ^ (w + 1) - 1

theorem FullPeriod.period_pos (full : FullPeriod w feedback) :
    0 < Function.minimalPeriod (shiftUpBy w feedback) 1 := by
  have large := Nat.one_lt_two_pow (Nat.succ_ne_zero w)
  rw [full.period]
  exact Nat.sub_pos_of_lt large

theorem FullPeriod.power_injective (full : FullPeriod w feedback) {i j : ℕ}
    (first : i < 2 ^ (w + 1) - 1) (second : j < 2 ^ (w + 1) - 1)
    (same : power w feedback i = power w feedback j) : i = j :=
  Function.iterate_injOn_Iio_minimalPeriod (full.period.symm ▸ first) (full.period.symm ▸ second) same

theorem FullPeriod.power_period (full : FullPeriod w feedback) :
    power w feedback (2 ^ (w + 1) - 1) = 1 := by
  rw [← full.period]
  exact Function.iterate_minimalPeriod

section Root

variable (full : FullPeriod w feedback) (root : bitSum β (w + 1) feedback = β ^ (w + 1))

include full root

theorem FullPeriod.pow_period : β ^ (2 ^ (w + 1) - 1) = 1 := by
  rw [← bitSum_power full.feeds root, full.power_period, bitSum_one]

theorem FullPeriod.root_ne_zero : β ≠ 0 := by
  rintro rfl
  have positive := full.period_pos
  rw [full.period] at positive
  have one := full.pow_period root
  rw [zero_pow (Nat.ne_of_gt positive)] at one
  exact zero_ne_one one

theorem FullPeriod.power_ne_zero (k : ℕ) : power w feedback k ≠ 0 := by
  intro zero
  have value := bitSum_power full.feeds root k
  rw [zero, bitSum_zero] at value
  exact pow_ne_zero k (full.root_ne_zero root) value.symm

theorem FullPeriod.exists_power (positive : 0 < a) (inside : a < 2 ^ (w + 1)) :
    ∃ k < 2 ^ (w + 1) - 1, power w feedback k = a := by
  have image : (Finset.range (2 ^ (w + 1) - 1)).image (power w feedback) =
      Finset.Ico 1 (2 ^ (w + 1)) := by
    refine Finset.eq_of_subset_of_card_le (fun b member => ?_) ?_
    · obtain ⟨k, -, rfl⟩ := Finset.mem_image.mp member
      exact Finset.mem_Ico.mpr
        ⟨Nat.pos_of_ne_zero (full.power_ne_zero root k), power_lt full.feeds k⟩
    · rw [Finset.card_image_of_injOn, Finset.card_range, Nat.card_Ico]
      intro i first j second same
      exact full.power_injective (Finset.mem_range.mp first) (Finset.mem_range.mp second) same
  obtain ⟨k, below, value⟩ :=
    Finset.mem_image.mp (image.symm ▸ Finset.mem_Ico.mpr ⟨positive, inside⟩ : a ∈ _)
  exact ⟨k, Finset.mem_range.mp below, value⟩

theorem FullPeriod.bitSum_ne_zero (positive : 0 < a) (inside : a < 2 ^ (w + 1)) :
    bitSum β (w + 1) a ≠ 0 := by
  obtain ⟨k, -, rfl⟩ := full.exists_power root positive inside
  rw [bitSum_power full.feeds root]
  exact pow_ne_zero k (full.root_ne_zero root)

theorem FullPeriod.bitSum_injective (first : a < 2 ^ (w + 1)) (second : b < 2 ^ (w + 1))
    (same : bitSum β (w + 1) a = bitSum β (w + 1) b) : a = b := by
  have zero : bitSum β (w + 1) (a ^^^ b) = 0 := by
    rw [bitSum_xor, same, CharTwo.add_self_eq_zero]
  by_contra different
  have positive : 0 < a ^^^ b := Nat.pos_of_ne_zero fun same => different (Nat.xor_eq_zero_iff.mp same)
  exact full.bitSum_ne_zero root positive (Nat.xor_lt_two_pow first second) zero

theorem FullPeriod.pow_injective {i j : ℕ} (first : i < 2 ^ (w + 1) - 1)
    (second : j < 2 ^ (w + 1) - 1) (same : β ^ i = β ^ j) : i = j := by
  rw [← bitSum_power full.feeds root, ← bitSum_power full.feeds root] at same
  exact full.power_injective first second
    (full.bitSum_injective root (power_lt full.feeds i) (power_lt full.feeds j) same)

end Root

end Sums

/-- Over the two-element field every feedback polynomial has a root in the algebraic closure. -/
theorem exists_feedback_root (w feedback : ℕ) :
    ∃ β : AlgebraicClosure (ZMod 2), bitSum β (w + 1) feedback = β ^ (w + 1) := by
  let low : (AlgebraicClosure (ZMod 2))[X] :=
    ∑ i ∈ Finset.range (w + 1), if feedback.testBit i then X ^ i else 0
  have short : low.degree < ((w + 1 : ℕ) : WithBot ℕ) := by
    refine (degree_lt_iff_coeff_zero _ _).mpr fun k above => ?_
    rw [finsetSum_coeff]
    refine Finset.sum_eq_zero fun i inside => ?_
    have below := Finset.mem_range.mp inside
    split
    · rw [coeff_X_pow, if_neg (Nat.ne_of_gt (Nat.lt_of_lt_of_le below above))]
    · exact coeff_zero k
  have degree : (X ^ (w + 1) - low).degree ≠ 0 := by
    rw [degree_sub_eq_left_of_degree_lt (by rwa [degree_X_pow]), degree_X_pow]
    exact Nat.cast_ne_zero.mpr (Nat.succ_ne_zero w)
  obtain ⟨β, root⟩ := IsAlgClosed.exists_root _ degree
  refine ⟨β, ?_⟩
  have value : β ^ (w + 1) - low.eval β = 0 := by
    rwa [IsRoot, eval_sub, eval_pow, eval_X] at root
  rw [sub_eq_zero.mp value, eval_finsetSum, bitSum]
  refine Finset.sum_congr rfl fun i _ => ?_
  split
  · rw [eval_pow, eval_X]
  · rw [eval_zero]

end Friidump.Theory
