import Mathlib.Algebra.Polynomial.FieldDivision
import Mathlib.Tactic.Ring

/-!
# Shortest linear recurrences

The terms of a sequence are the coefficients of a polynomial. A connection
polynomial of some length generates the first of them, and the algorithm of
Berlekamp and Massey finds one of the least length.
-/

set_option autoImplicit false

namespace Friidump.Theory

open Polynomial

variable {K : Type*} [Field K] {S locator other : K[X]} {n length length' : ℕ}

/-- From position `length` on every term below `n` is determined by those before it. -/
structure Generates (S : K[X]) (n : ℕ) (locator : K[X]) (length : ℕ) : Prop where
  one : locator.coeff 0 = 1
  degree : locator.natDegree ≤ length
  vanishes : ∀ k, length ≤ k → k < n → (locator * S).coeff k = 0

theorem Generates.earlier (generates : Generates S (n + 1) locator length) :
    Generates S n locator length where
  one := generates.one
  degree := generates.degree
  vanishes k above below := generates.vanishes k above (Nat.lt_succ_of_lt below)

/-- Behind a run of zeros a short factor contributes its constant coefficient alone. -/
theorem coeff_mul_of_vanishing {p q : K[X]} (degree : p.natDegree ≤ length)
    (vanishes : ∀ k, n ≤ k + length → k < n → q.coeff k = 0) :
    (p * q).coeff n = p.coeff 0 * q.coeff n := by
  rw [coeff_mul]
  refine Finset.sum_eq_single (0, n) ?_ ?_
  · rintro ⟨i, k⟩ inside different
    have total : i + k = n := Finset.HasAntidiagonal.mem_antidiagonal.mp inside
    by_cases short : i ≤ length
    · have positive : i ≠ 0 := by
        rintro rfl
        exact different (Prod.ext rfl (by simpa using total))
      have zero : q.coeff k = 0 := vanishes k (by omega) (by omega)
      exact mul_eq_zero_of_right _ zero
    · have zero : p.coeff i = 0 := coeff_eq_zero_of_natDegree_lt (by omega)
      exact mul_eq_zero_of_left zero _
  · intro outside
    exact absurd (Finset.HasAntidiagonal.mem_antidiagonal.mpr (Nat.zero_add n)) outside

/-- When a connection polynomial misses a term, another one that does not is long. -/
theorem Generates.length_of_missed (generates : Generates S n locator length)
    (missed : (locator * S).coeff n ≠ 0) (better : Generates S (n + 1) other length') :
    n + 1 ≤ length + length' := by
  by_contra short
  have first : (other * (locator * S)).coeff n = other.coeff 0 * (locator * S).coeff n :=
    coeff_mul_of_vanishing better.degree fun k near below =>
      generates.vanishes k (by omega) below
  have second : (locator * (other * S)).coeff n = locator.coeff 0 * (other * S).coeff n :=
    coeff_mul_of_vanishing generates.degree fun k near below =>
      better.vanishes k (by omega) (Nat.lt_succ_of_lt below)
  have hit : (other * S).coeff n = 0 := better.vanishes n (by omega) (Nat.lt_succ_self n)
  have swapped : other * (locator * S) = locator * (other * S) := by ring
  rw [swapped, second, hit, better.one, mul_zero, one_mul] at first
  exact missed first.symm

/-! ## The algorithm -/

/-- The connection polynomial, its length, and the last one before the length grew. -/
structure Massey (K : Type*) [Field K] where
  locator : K[X]
  previous : K[X]
  length : ℕ

open scoped Classical in
noncomputable def masseyStep (S : K[X]) (n : ℕ) (state : Massey K) : Massey K :=
  let discrepancy := (state.locator * S).coeff n
  if discrepancy = 0 then { state with previous := X * state.previous }
  else
    { locator := state.locator - C discrepancy * (X * state.previous)
      previous :=
        if 2 * state.length ≤ n then C discrepancy⁻¹ * state.locator else X * state.previous
      length := if 2 * state.length ≤ n then n + 1 - state.length else state.length }

/-- What the algorithm has after `n` terms. -/
noncomputable def massey (S : K[X]) : ℕ → Massey K
  | 0 => { locator := 1, previous := 1, length := 0 }
  | n + 1 => masseyStep S n (massey S n)

/-- A shifted and scaled multiple of the previous polynomial misses the next term by one. -/
structure MasseyInvariant (S : K[X]) (n : ℕ) (locator previous : K[X]) (length : ℕ) : Prop where
  generates : Generates S n locator length
  bounded : length ≤ n
  degree : (X * previous).natDegree + length ≤ n + 1
  vanishes : ∀ k, n + 1 ≤ k + length → k < n → (X * previous * S).coeff k = 0
  missed : length = 0 ∨ (X * previous * S).coeff n = 1
  shortest : ∀ other length', Generates S n other length' → length ≤ length'

theorem MasseyInvariant.start (S : K[X]) : MasseyInvariant S 0 1 1 0 where
  generates := ⟨coeff_one_zero, natDegree_one.le, nofun⟩
  bounded := Nat.le_refl 0
  degree := by
    rw [mul_one, natDegree_X]
  vanishes := nofun
  missed := .inl rfl
  shortest _ length _ := Nat.zero_le length

section Step

variable {previous : K[X]}

private theorem shifted_coeff (k : ℕ) (p : K[X]) : (X * p * S).coeff (k + 1) = (p * S).coeff k := by
  rw [mul_assoc, coeff_X_mul]

/-- The previous polynomial is shifted when the length stays. -/
private theorem MasseyInvariant.shifted (invariant : MasseyInvariant S n locator previous length)
    (generates : Generates S (n + 1) other length) :
    MasseyInvariant S (n + 1) other (X * previous) length where
  generates := generates
  bounded := Nat.le_succ_of_le invariant.bounded
  degree := by
    have one : (X * (X * previous)).natDegree ≤ 1 + (X * previous).natDegree :=
      natDegree_mul_le.trans (Nat.add_le_add_right natDegree_X_le _)
    have before := invariant.degree
    omega
  vanishes k above below := by
    cases k with
    | zero => rw [mul_assoc, coeff_X_mul_zero]
    | succ k =>
        rw [shifted_coeff]
        exact invariant.vanishes k (by omega) (Nat.lt_of_succ_lt_succ below)
  missed := by
    rw [shifted_coeff]
    exact invariant.missed
  shortest other length generates := invariant.shortest other length generates.earlier

private theorem hit_generates (generates : Generates S n locator length)
    (hit : (locator * S).coeff n = 0) : Generates S (n + 1) locator length where
  one := generates.one
  degree := generates.degree
  vanishes k above below := by
    obtain earlier | rfl := Nat.lt_or_eq_of_le (Nat.le_of_lt_succ below)
    · exact generates.vanishes k above earlier
    · exact hit

private theorem corrected_coeff (d : K) (k : ℕ) :
    ((locator - C d * (X * previous)) * S).coeff k =
      (locator * S).coeff k - d * (X * previous * S).coeff k := by
  rw [sub_mul, coeff_sub, mul_assoc (C d), coeff_C_mul]

/-- The corrected polynomial no longer misses the term. -/
private theorem corrected_generates (invariant : MasseyInvariant S n locator previous length)
    (longer : length ≤ length') (enough : n + 1 ≤ length + length')
    (reached : length = 0 → n + 1 ≤ length') :
    Generates S (n + 1) (locator - C ((locator * S).coeff n) * (X * previous)) length' where
  one := by
    rw [coeff_sub, coeff_C_mul, coeff_X_mul_zero, mul_zero, sub_zero]
    exact invariant.generates.one
  degree := by
    have before := invariant.degree
    refine (natDegree_sub_le _ _).trans (max_le (invariant.generates.degree.trans longer) ?_)
    exact (natDegree_C_mul_le _ _).trans (by omega)
  vanishes k above below := by
    rw [corrected_coeff]
    obtain earlier | rfl := Nat.lt_or_eq_of_le (Nat.le_of_lt_succ below)
    · have first := invariant.generates.vanishes k (longer.trans above) earlier
      have second := invariant.vanishes k (by omega) earlier
      rw [first, second, mul_zero, sub_zero]
    · obtain zero | one := invariant.missed
      · have beyond := reached zero
        omega
      · rw [one, mul_one, sub_self]

private theorem scaled_coeff (d : K) (p : K[X]) (k : ℕ) :
    (X * (C d * p) * S).coeff (k + 1) = d * (p * S).coeff k := by
  rw [shifted_coeff, mul_assoc, coeff_C_mul]

private theorem MasseyInvariant.grown (invariant : MasseyInvariant S n locator previous length)
    (missed : (locator * S).coeff n ≠ 0) (grows : 2 * length ≤ n) :
    MasseyInvariant S (n + 1) (locator - C ((locator * S).coeff n) * (X * previous))
      (C ((locator * S).coeff n)⁻¹ * locator) (n + 1 - length) where
  generates := corrected_generates invariant (by omega) (by omega) (by omega)
  bounded := Nat.sub_le (n + 1) length
  degree := by
    have scale : (C ((locator * S).coeff n)⁻¹ * locator).natDegree ≤ length :=
      (natDegree_C_mul_le _ _).trans invariant.generates.degree
    have one := natDegree_mul_le.trans (Nat.add_le_add (natDegree_X_le (R := K)) scale)
    omega
  vanishes k above below := by
    cases k with
    | zero => omega
    | succ k =>
        have zero := invariant.generates.vanishes k (by omega) (Nat.lt_of_succ_lt_succ below)
        rw [scaled_coeff, zero, mul_zero]
  missed := .inr (by rw [scaled_coeff, inv_mul_cancel₀ missed])
  shortest other length' generates := by
    have enough := invariant.generates.length_of_missed missed generates
    omega

theorem MasseyInvariant.step {state : Massey K}
    (invariant : MasseyInvariant S n state.locator state.previous state.length) :
    MasseyInvariant S (n + 1) (masseyStep S n state).locator (masseyStep S n state).previous
      (masseyStep S n state).length := by
  by_cases hit : (state.locator * S).coeff n = 0
  · rw [masseyStep, if_pos hit]
    exact invariant.shifted (hit_generates invariant.generates hit)
  · rw [masseyStep, if_neg hit]
    by_cases grows : 2 * state.length ≤ n
    · rw [if_pos grows, if_pos grows]
      exact invariant.grown hit grows
    · rw [if_neg grows, if_neg grows]
      exact invariant.shifted (corrected_generates invariant (Nat.le_refl _) (by omega) (by omega))

end Step

theorem massey_invariant (S : K[X]) (n : ℕ) :
    MasseyInvariant S n (massey S n).locator (massey S n).previous (massey S n).length := by
  induction n with
  | zero => exact .start S
  | succ n ih => exact ih.step

end Friidump.Theory
