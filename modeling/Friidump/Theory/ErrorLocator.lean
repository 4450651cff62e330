import Friidump.Theory.LinearRecurrence
import Mathlib.LinearAlgebra.Lagrange

/-!
# Locators of power sums

The power sums of some weights at some points satisfy the recurrence whose
connection polynomial has the inverse points for roots. The formula of Forney
gives the weights back.
-/

set_option autoImplicit false

namespace Friidump.Theory

open Polynomial

variable {K : Type*} [Field K]

/-! ## Sequences as polynomials -/

noncomputable def terms (n : ℕ) (s : ℕ → K) : K[X] := ∑ k ∈ Finset.range n, C (s k) * X ^ k

theorem coeff_terms (n : ℕ) (s : ℕ → K) (k : ℕ) :
    (terms n s).coeff k = if k < n then s k else 0 := by
  simp only [terms, finsetSum_coeff, coeff_C_mul_X_pow, Finset.sum_ite_eq, Finset.mem_range]

theorem coeff_terms_below {n k : ℕ} (s : ℕ → K) (below : k < n) : (terms n s).coeff k = s k := by
  rw [coeff_terms, if_pos below]

theorem degree_terms_lt (n : ℕ) (s : ℕ → K) : (terms n s).degree < n := by
  refine (degree_lt_iff_coeff_zero _ _).mpr fun k above => ?_
  rw [coeff_terms, if_neg (Nat.not_lt.mpr above)]

/-- A factor with a constant coefficient can be cancelled from the front. -/
theorem coeff_eq_of_mul {p q q' : K[X]} {n : ℕ} (constant : p.coeff 0 ≠ 0)
    (same : ∀ k < n, (p * q).coeff k = (p * q').coeff k) : ∀ k < n, q.coeff k = q'.coeff k := by
  have cancelled : ∀ k < n, (q - q').coeff k = 0 := by
    intro k
    induction k using Nat.strong_induction_on with
    | _ k ih =>
        intro below
        have product : (p * (q - q')).coeff k = 0 := by
          rw [mul_sub, coeff_sub, same k below, sub_self]
        rw [coeff_mul_of_vanishing (Nat.le_refl p.natDegree) fun i _ earlier =>
          ih i earlier (earlier.trans below)] at product
        exact (mul_eq_zero.mp product).resolve_left constant
  intro k below
  exact sub_eq_zero.mp ((coeff_sub q q' k).symm.trans (cancelled k below))

/-! ## Locators -/

section Locators

variable {ι : Type*} [DecidableEq ι] {points : Finset ι} {x : ι → K} {e : ι → K}

def powerSum (points : Finset ι) (x e : ι → K) (k : ℕ) : K := ∑ j ∈ points, e j * x j ^ k

/-- The polynomial with the inverse points for roots. -/
noncomputable def locatorOf (points : Finset ι) (x : ι → K) : K[X] :=
  ∏ j ∈ points, (1 - C (x j) * X)

/-- The numerator of the generating function of the power sums. -/
noncomputable def evaluatorOf (points : Finset ι) (x e : ι → K) : K[X] :=
  ∑ j ∈ points, C (e j) * locatorOf (points.erase j) x

theorem weights_zero_of_powerSum {n : ℕ} (distinct : Set.InjOn x points)
    (enough : points.card ≤ n) (zero : ∀ k < n, powerSum points x e k = 0) :
    ∀ i ∈ points, e i = 0 := by
  intro i inside
  let p := Lagrange.basis points x i
  have short : p.natDegree < n := by
    have degree := Lagrange.degree_basis distinct inside
    have nonempty := Finset.card_pos.mpr ⟨i, inside⟩
    have value : p.natDegree = points.card - 1 := natDegree_eq_of_degree_eq_some degree
    omega
  have picked : ∑ j ∈ points, e j * p.eval (x j) = e i := by
    rw [Finset.sum_eq_single_of_mem i inside fun j member other => by
      rw [Lagrange.eval_basis_of_ne other.symm member, mul_zero]]
    rw [Lagrange.eval_basis_self distinct inside, mul_one]
  have expanded : ∀ j, e j * p.eval (x j) =
      ∑ k ∈ Finset.range n, p.coeff k * (e j * x j ^ k) := fun j => by
    rw [eval_eq_sum_range' short, Finset.mul_sum]
    exact Finset.sum_congr rfl fun k _ => mul_left_comm _ _ _
  calc e i = ∑ j ∈ points, ∑ k ∈ Finset.range n, p.coeff k * (e j * x j ^ k) := by
        rw [← picked]
        exact Finset.sum_congr rfl fun j _ => expanded j
    _ = ∑ k ∈ Finset.range n, p.coeff k * powerSum points x e k := by
        rw [Finset.sum_comm]
        exact Finset.sum_congr rfl fun k _ => (Finset.mul_sum _ _ _).symm
    _ = 0 := Finset.sum_eq_zero fun k inside => by
        rw [zero k (Finset.mem_range.mp inside), mul_zero]

theorem weights_eq_of_powerSum {n : ℕ} {e' : ι → K} (distinct : Set.InjOn x points)
    (enough : points.card ≤ n) (same : ∀ k < n, powerSum points x e k = powerSum points x e' k) :
    ∀ i ∈ points, e i = e' i := by
  intro i inside
  have zero : ∀ k < n, powerSum points x (fun j => e j - e' j) k = 0 := by
    intro k below
    rw [powerSum, Finset.sum_congr rfl fun j _ => sub_mul (e j) (e' j) (x j ^ k),
      Finset.sum_sub_distrib]
    exact sub_eq_zero.mpr (same k below)
  exact sub_eq_zero.mp (weights_zero_of_powerSum distinct enough zero i inside)

theorem locatorOf_erase {i : ι} (inside : i ∈ points) :
    locatorOf points x = (1 - C (x i) * X) * locatorOf (points.erase i) x :=
  (Finset.mul_prod_erase points (fun j => 1 - C (x j) * X) inside).symm

omit [DecidableEq ι] in
theorem locatorOf_one (points : Finset ι) (x : ι → K) : (locatorOf points x).coeff 0 = 1 := by
  rw [coeff_zero_eq_eval_zero, locatorOf, eval_prod]
  refine Finset.prod_eq_one fun j _ => ?_
  rw [eval_sub, eval_one, eval_mul, eval_X, mul_zero, sub_zero]

omit [DecidableEq ι] in
theorem natDegree_locatorOf_le (points : Finset ι) (x : ι → K) :
    (locatorOf points x).natDegree ≤ points.card := by
  refine (natDegree_prod_le _ _).trans ((Finset.sum_le_card_nsmul _ _ 1 fun j _ => ?_).trans ?_)
  · refine (natDegree_sub_le _ _).trans (max_le (natDegree_one.le.trans (Nat.zero_le 1)) ?_)
    exact (natDegree_C_mul_le _ _).trans natDegree_X_le
  · rw [smul_eq_mul, mul_one]

theorem locatorOf_root {i : ι} (inside : i ∈ points) (nonzero : x i ≠ 0) :
    (locatorOf points x).eval (x i)⁻¹ = 0 := by
  have root : (1 - C (x i) * X).eval (x i)⁻¹ = 0 := by
    rw [eval_sub, eval_one, eval_mul, eval_C, eval_X, mul_inv_cancel₀ nonzero, sub_self]
  rw [locatorOf_erase inside, eval_mul, root, zero_mul]

theorem locatorOf_eval_ne_zero {i : ι} (distinct : Set.InjOn x points) (inside : i ∈ points)
    (nonzero : x i ≠ 0) : (locatorOf (points.erase i) x).eval (x i)⁻¹ ≠ 0 := by
  rw [locatorOf, eval_prod]
  refine Finset.prod_ne_zero_iff.mpr fun j member => ?_
  obtain ⟨other, member⟩ := Finset.mem_erase.mp member
  rw [eval_sub, eval_one, eval_mul, eval_C, eval_X]
  intro zero
  have one : x j * (x i)⁻¹ = 1 := (sub_eq_zero.mp zero).symm
  exact other (distinct member inside ((mul_inv_eq_one₀ nonzero).mp one))

omit [DecidableEq ι] in
theorem inverse_injOn (distinct : Set.InjOn x points) : Set.InjOn (fun j => (x j)⁻¹) points :=
  fun _ first _ second same => distinct first second (inv_injective same)

/-- Its roots and its constant coefficient determine the locator. -/
theorem eq_locatorOf {locator : K[X]} (distinct : Set.InjOn x points)
    (nonzero : ∀ j ∈ points, x j ≠ 0) (one : locator.coeff 0 = 1)
    (degree : locator.natDegree ≤ points.card)
    (roots : ∀ j ∈ points, locator.eval (x j)⁻¹ = 0) : locator = locatorOf points x := by
  classical
  let nodes := insert 0 (points.image fun j => (x j)⁻¹)
  have fresh : (0 : K) ∉ points.image fun j => (x j)⁻¹ := by
    intro member
    obtain ⟨j, inside, zero⟩ := Finset.mem_image.mp member
    exact inv_ne_zero (nonzero j inside) zero
  have size : nodes.card = points.card + 1 := by
    rw [Finset.card_insert_of_notMem fresh, Finset.card_image_of_injOn (inverse_injOn distinct)]
  have short : ∀ p : K[X], p.natDegree ≤ points.card → p.degree < nodes.card := fun p small => by
    rw [size]
    exact degree_le_natDegree.trans_lt (Nat.cast_lt.mpr (Nat.lt_succ_of_le small))
  refine eq_of_degrees_lt_of_eval_finset_eq nodes (short _ degree)
    (short _ (natDegree_locatorOf_le points x)) fun node member => ?_
  obtain rfl | member := Finset.mem_insert.mp member
  · rw [← coeff_zero_eq_eval_zero, ← coeff_zero_eq_eval_zero, one, locatorOf_one]
  · obtain ⟨j, inside, rfl⟩ := Finset.mem_image.mp member
    exact (roots j inside).trans (locatorOf_root inside (nonzero j inside)).symm

/-! ## The recurrence of power sums -/

private theorem terms_geometric (n : ℕ) (y : K) :
    (1 - C y * X) * terms n (fun k => y ^ k) = 1 - (C y * X) ^ n := by
  have powers : terms n (fun k => y ^ k) = ∑ k ∈ Finset.range n, (C y * X) ^ k :=
    Finset.sum_congr rfl fun k _ => by rw [mul_pow, C_pow]
  rw [powers, mul_neg_geom_sum]

omit [DecidableEq ι] in
theorem terms_powerSum (points : Finset ι) (x e : ι → K) (n : ℕ) :
    terms n (powerSum points x e) = ∑ j ∈ points, C (e j) * terms n fun k => x j ^ k := by
  refine Polynomial.ext fun k => ?_
  rw [coeff_terms, finsetSum_coeff]
  simp only [coeff_C_mul, coeff_terms]
  split
  · rfl
  · rw [Finset.sum_eq_zero fun j _ => mul_zero (e j)]

theorem coeff_locatorOf_mul {n k : ℕ} (below : k < n) :
    (locatorOf points x * terms n (powerSum points x e)).coeff k = (evaluatorOf points x e).coeff k := by
  rw [terms_powerSum, Finset.mul_sum, evaluatorOf, finsetSum_coeff, finsetSum_coeff]
  refine Finset.sum_congr rfl fun j inside => ?_
  have factored : locatorOf points x * (C (e j) * terms n fun k => x j ^ k) =
      C (e j) * locatorOf (points.erase j) x -
        C (e j * x j ^ n) * (locatorOf (points.erase j) x * X ^ n) := by
    rw [locatorOf_erase inside]
    calc (1 - C (x j) * X) * locatorOf (points.erase j) x * (C (e j) * terms n fun k => x j ^ k)
        = C (e j) * locatorOf (points.erase j) x *
            ((1 - C (x j) * X) * terms n fun k => x j ^ k) := by ring
      _ = C (e j) * locatorOf (points.erase j) x * (1 - (C (x j) * X) ^ n) := by
          rw [terms_geometric]
      _ = _ := by
          rw [mul_pow, ← C_pow, C_mul]
          ring
  have beyond : (C (e j * x j ^ n) * (locatorOf (points.erase j) x * X ^ n)).coeff k = 0 := by
    rw [coeff_C_mul, coeff_mul_X_pow', if_neg (Nat.not_le.mpr below), mul_zero]
  rw [factored, coeff_sub, beyond, sub_zero]

theorem degree_evaluatorOf_lt (points : Finset ι) (x e : ι → K) :
    (evaluatorOf points x e).degree < points.card := by
  refine (degree_sum_le _ _).trans_lt ((Finset.sup_lt_iff (WithBot.bot_lt_coe _)).mpr fun j inside => ?_)
  have small := natDegree_locatorOf_le (points.erase j) x
  rw [Finset.card_erase_of_mem inside] at small
  have positive := Finset.card_pos.mpr ⟨j, inside⟩
  have bound : (C (e j) * locatorOf (points.erase j) x).natDegree < points.card :=
    (natDegree_C_mul_le _ _).trans_lt (by omega)
  exact degree_le_natDegree.trans_lt (Nat.cast_lt.mpr bound)

theorem generates_powerSum (points : Finset ι) (x e : ι → K) (n : ℕ) :
    Generates (terms n (powerSum points x e)) n (locatorOf points x) points.card where
  one := locatorOf_one points x
  degree := natDegree_locatorOf_le points x
  vanishes k above below := by
    rw [coeff_locatorOf_mul below]
    exact (degree_lt_iff_coeff_zero _ _).mp (degree_evaluatorOf_lt points x e) k above

omit [DecidableEq ι] in
theorem powerSum_filter [DecidablePred fun j => e j ≠ 0] (k : ℕ) :
    powerSum (points.filter fun j => e j ≠ 0) x e k = powerSum points x e k := by
  refine Finset.sum_subset (Finset.filter_subset _ _) fun j inside outside => ?_
  have zero : e j = 0 := by
    by_contra weight
    exact outside (Finset.mem_filter.mpr ⟨inside, weight⟩)
  rw [zero, zero_mul]

/-- A coefficient behind the length of a recurrence is a sum over that length. -/
theorem Generates.coeff_terms {locator : K[X]} {c : ℕ → K} {n length : ℕ}
    (generates : Generates (terms n c) n locator length) {k : ℕ} (covered : length + k < n) :
    (locator * terms n c).coeff (length + k) =
      ∑ i ∈ Finset.range (length + 1), locator.coeff i * c (length + k - i) := by
  rw [coeff_mul, Finset.Nat.sum_antidiagonal_eq_sum_range_succ_mk]
  refine (Finset.sum_subset ?_ ?_).symm.trans (Finset.sum_congr rfl fun i below => ?_)
  · intro i below
    have small := Finset.mem_range.mp below
    exact Finset.mem_range.mpr (by omega)
  · intro i _ outside
    have above : length < i := by
      have far := Finset.mem_range.not.mp outside
      omega
    rw [coeff_eq_zero_of_natDegree_lt (generates.degree.trans_lt above), zero_mul]
  · rw [coeff_terms_below _ (Nat.lt_of_le_of_lt (Nat.sub_le _ _) covered)]

omit [DecidableEq ι] in
/-- Weights scaled by the values of a polynomial at the inverse points. -/
theorem powerSum_scaled {locator : K[X]} {length : ℕ} (degree : locator.natDegree ≤ length)
    (nonzero : ∀ j ∈ points, x j ≠ 0) (k : ℕ) :
    powerSum points x (fun j => e j * x j ^ length * locator.eval (x j)⁻¹) k =
      ∑ i ∈ Finset.range (length + 1), locator.coeff i * powerSum points x e (length + k - i) := by
  simp only [powerSum, Finset.mul_sum]
  rw [Finset.sum_comm]
  refine Finset.sum_congr rfl fun j inside => ?_
  have evaluated : locator.eval (x j)⁻¹ =
      ∑ i ∈ Finset.range (length + 1), locator.coeff i * (x j)⁻¹ ^ i :=
    eval_eq_sum_range' (Nat.lt_succ_of_le degree) _
  rw [evaluated, Finset.mul_sum, Finset.sum_mul]
  refine Finset.sum_congr rfl fun i below => ?_
  have small : i ≤ length := Nat.le_of_lt_succ (Finset.mem_range.mp below)
  have power : x j ^ length * (x j)⁻¹ ^ i * x j ^ k = x j ^ (length + k - i) := by
    have split : length + k - i = length - i + k := by omega
    rw [split, pow_add, pow_sub₀ _ (nonzero j inside) small, inv_pow]
  rw [← power]
  ring

/-- A recurrence of enough terms has every inverse point for a root. -/
theorem Generates.root {locator : K[X]} {n length : ℕ} (distinct : Set.InjOn x points)
    (nonzero : ∀ j ∈ points, x j ≠ 0)
    (generates : Generates (terms n (powerSum points x e)) n locator length)
    (enough : length + points.card ≤ n) {i : ι} (inside : i ∈ points) (weight : e i ≠ 0) :
    locator.eval (x i)⁻¹ = 0 := by
  have vanishes : ∀ k < points.card,
      powerSum points x (fun j => e j * x j ^ length * locator.eval (x j)⁻¹) k = 0 := by
    intro k below
    have covered : length + k < n := by omega
    rw [powerSum_scaled generates.degree nonzero, ← generates.coeff_terms covered]
    exact generates.vanishes (length + k) (Nat.le_add_right _ _) covered
  have zero := weights_zero_of_powerSum distinct (Nat.le_refl _) vanishes i inside
  have factor : e i * x i ^ length ≠ 0 := mul_ne_zero weight (pow_ne_zero _ (nonzero i inside))
  exact (mul_eq_zero.mp zero).resolve_left factor

/-! ## The formula of Forney -/

noncomputable def forney (locator evaluator : K[X]) (y : K) : K :=
  -(y * evaluator.eval y⁻¹ / (derivative locator).eval y⁻¹)

theorem derivative_locatorOf {i : ι} (inside : i ∈ points) (nonzero : x i ≠ 0) :
    (derivative (locatorOf points x)).eval (x i)⁻¹ =
      -(x i * (locatorOf (points.erase i) x).eval (x i)⁻¹) := by
  rw [locatorOf_erase inside, derivative_mul, derivative_sub, derivative_one, derivative_C_mul,
    derivative_X, mul_one, zero_sub, eval_add, eval_mul, eval_mul, eval_neg, eval_C, eval_sub,
    eval_one, eval_mul, eval_C, eval_X, mul_inv_cancel₀ nonzero, sub_self, zero_mul, add_zero, neg_mul]

theorem forney_locatorOf (evaluator : K[X]) {i : ι} (inside : i ∈ points) (nonzero : x i ≠ 0) :
    forney (locatorOf points x) evaluator (x i) =
      evaluator.eval (x i)⁻¹ / (locatorOf (points.erase i) x).eval (x i)⁻¹ := by
  rw [forney, derivative_locatorOf inside nonzero, div_neg, neg_neg, mul_div_mul_left _ _ nonzero]

/-- A polynomial of small degree is the evaluator of the weights that the formula gives. -/
theorem evaluatorOf_forney {evaluator : K[X]} (distinct : Set.InjOn x points)
    (nonzero : ∀ j ∈ points, x j ≠ 0) (short : evaluator.degree < points.card) :
    evaluatorOf points x (fun j => forney (locatorOf points x) evaluator (x j)) = evaluator := by
  classical
  have size : (points.image fun j => (x j)⁻¹).card = points.card :=
    Finset.card_image_of_injOn (inverse_injOn distinct)
  refine eq_of_degrees_lt_of_eval_finset_eq (points.image fun j => (x j)⁻¹)
    (size.symm ▸ degree_evaluatorOf_lt points x _) (size.symm ▸ short) fun node member => ?_
  obtain ⟨i, inside, rfl⟩ := Finset.mem_image.mp member
  have here := nonzero i inside
  rw [evaluatorOf, eval_finsetSum, Finset.sum_eq_single_of_mem i inside fun j member other => ?_]
  · rw [eval_mul, eval_C, forney_locatorOf evaluator inside here,
      div_mul_cancel₀ _ (locatorOf_eval_ne_zero distinct inside here)]
  · rw [eval_mul, locatorOf_root (Finset.mem_erase.mpr ⟨other.symm, inside⟩) here, mul_zero]

/-- A sequence with the recurrence of a locator consists of power sums. -/
theorem powerSum_of_generates {S : K[X]} {n : ℕ} (distinct : Set.InjOn x points)
    (nonzero : ∀ j ∈ points, x j ≠ 0)
    (generates : Generates S n (locatorOf points x) points.card) :
    ∀ k < n, S.coeff k = powerSum points x (fun j => forney (locatorOf points x)
      (terms points.card (locatorOf points x * S).coeff) (x j)) k := by
  have evaluator := evaluatorOf_forney distinct nonzero
    (degree_terms_lt points.card (locatorOf points x * S).coeff)
  intro k below
  rw [← coeff_terms_below (powerSum points x _) below]
  have constant : (locatorOf points x).coeff 0 ≠ 0 := by
    rw [locatorOf_one]
    exact one_ne_zero
  refine @coeff_eq_of_mul _ _ _ _ (terms n (powerSum points x _)) n constant (fun k below => ?_) k
    below
  rw [coeff_locatorOf_mul below, evaluator, coeff_terms]
  split
  · rfl
  · rename_i above
    exact generates.vanishes k (Nat.not_lt.mp above) below

theorem forney_powerSum {n : ℕ} (distinct : Set.InjOn x points) (nonzero : ∀ j ∈ points, x j ≠ 0)
    (enough : points.card ≤ n) {i : ι} (inside : i ∈ points) :
    forney (locatorOf points x)
      (terms points.card (locatorOf points x * terms n (powerSum points x e)).coeff) (x i) = e i := by
  have sums := powerSum_of_generates distinct nonzero (generates_powerSum points x e n)
  have same : ∀ k < n, powerSum points x e k = powerSum points x (fun j =>
      forney (locatorOf points x)
        (terms points.card (locatorOf points x * terms n (powerSum points x e)).coeff) (x j)) k :=
    fun k below => (coeff_terms_below _ below).symm.trans (sums k below)
  exact (weights_eq_of_powerSum distinct enough same i inside).symm

end Locators

end Friidump.Theory
