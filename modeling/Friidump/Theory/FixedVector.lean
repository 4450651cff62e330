import Mathlib.Algebra.Group.Basic
import Mathlib.Algebra.Group.Hom.Defs
import Mathlib.Algebra.Group.Nat.Defs
import Mathlib.Logic.Function.Iterate

/-!
# Fixed vectors of maps of two-power order

In a group where every element is its own inverse, an additive map whose power
with a two-power exponent fixes a nonzero element fixes one itself. The element
can be found inside any property that the map plus the identity preserves.
-/

set_option autoImplicit false

namespace Friidump.Theory

section Doubled

variable {V : Type*} [AddCommGroup V] (double : ∀ x : V, x + x = 0)

include double

theorem eq_of_add_eq_zero {x y : V} (sum : x + y = 0) : x = y := by
  have cancelled : x + y + y = y := by rw [sum, zero_add]
  rwa [add_assoc, double, add_zero] at cancelled

theorem add_self_twice (f : V →+ V) (x : V) : f (f x + x) + (f x + x) = f (f x) + x := by
  rw [map_add, ← add_assoc, add_assoc (f (f x)), double, add_zero]

theorem add_self_iterate (k : Nat) (f : V →+ V) (x : V) :
    (fun y => f y + y)^[2 ^ k] x = f^[2 ^ k] x + x := by
  induction k generalizing f x with
  | zero => rfl
  | succ k ih =>
      have square : (fun y => f y + y)^[2] = fun y => (f.comp f) y + y :=
        funext fun y => add_self_twice double f y
      have twice : f^[2] = f.comp f := rfl
      rw [Nat.pow_succ, Nat.mul_comm, Function.iterate_mul, Function.iterate_mul, square, twice]
      exact ih (f.comp f) x

/-- The last nonzero power of `f + 1` at `x` is fixed by `f`. -/
theorem exists_fixed_of_iterate {f : V →+ V} {P : V → Prop} (closed : ∀ x, P x → P (f x + x))
    {k : Nat} {x : V} (period : f^[2 ^ k] x = x) (good : P x) (nonzero : x ≠ 0) :
    ∃ y, P y ∧ y ≠ 0 ∧ f y = y := by
  have vanishes : (fun y => f y + y)^[2 ^ k] x = 0 := by
    rw [add_self_iterate double, period, double]
  clear period
  generalize 2 ^ k = n at vanishes
  induction n generalizing x with
  | zero => exact absurd vanishes nonzero
  | succ n ih =>
      by_cases fixed : f x + x = 0
      · exact ⟨x, good, nonzero, eq_of_add_eq_zero double fixed⟩
      · exact ih (closed x good) fixed vanishes

end Doubled

end Friidump.Theory
