import Mathlib.Algebra.Group.Nat.Defs
import Mathlib.Data.List.Basic
import Mathlib.Logic.Function.Iterate

/-!
# Maps that preserve exclusive or

A map between bit vectors that preserves exclusive or is determined by its
values on the single bits. Storing those values as columns makes composition
and long iteration computable.
-/

set_option autoImplicit false

namespace Friidump.Theory

theorem xor_cancel {w : Nat} (x y z : BitVec w) : x ^^^ z ^^^ (y ^^^ z) = x ^^^ y := by
  have grouped : x ^^^ z ^^^ (y ^^^ z) = x ^^^ y ^^^ (z ^^^ z) := by ac_rfl
  rw [grouped, BitVec.xor_self, BitVec.xor_zero]

/-- Preservation of exclusive or, the additivity of maps over the two-element field. -/
structure XorLinear {a b : Nat} (f : BitVec a → BitVec b) : Prop where
  map_xor : ∀ x y, f (x ^^^ y) = f x ^^^ f y

namespace XorLinear

variable {a b c : Nat}

theorem map_zero {f : BitVec a → BitVec b} (linear : XorLinear f) : f 0#a = 0#b := by
  have doubled := linear.map_xor 0#a 0#a
  rw [BitVec.xor_self, BitVec.xor_self] at doubled
  exact doubled

theorem identity : XorLinear (id : BitVec a → BitVec a) := ⟨fun _ _ => rfl⟩

theorem comp {f : BitVec b → BitVec c} {g : BitVec a → BitVec b}
    (outer : XorLinear f) (inner : XorLinear g) : XorLinear (f ∘ g) :=
  ⟨fun x y => by rw [Function.comp_apply, inner.map_xor, outer.map_xor]; rfl⟩

theorem iterate {f : BitVec a → BitVec a} (linear : XorLinear f) (n : Nat) :
    XorLinear f^[n] := by
  induction n with
  | zero => exact identity
  | succ n ih => rw [Function.iterate_succ]; exact ih.comp linear

end XorLinear

/-! ## Columns -/

variable {a b c : Nat}

/-- Values on the single bits, least significant bit first. -/
def columns (f : BitVec a → BitVec b) : List (BitVec b) :=
  (List.range a).map fun i => f (BitVec.twoPow a i)

/-- Exclusive or of the columns selected by the bits of `x` from position `i` on. -/
def combine : List (BitVec b) → Nat → BitVec a → BitVec b
  | [], _, _ => 0#b
  | column :: rest, i, x =>
      if x.getLsbD i then column ^^^ combine rest (i + 1) x else combine rest (i + 1) x

private theorem upper_bits_split (x : BitVec a) {i : Nat} (bound : i < a) :
    (x >>> i) <<< i =
      (if x.getLsbD i then BitVec.twoPow a i else 0#a) ^^^ ((x >>> (i + 1)) <<< (i + 1)) := by
  apply BitVec.eq_of_getLsbD_eq
  intro j inside
  have single : (if x.getLsbD i then BitVec.twoPow a i else 0#a).getLsbD j =
      (x.getLsbD i && decide (i = j)) := by
    cases x.getLsbD i <;> simp only [BitVec.getLsbD_twoPow, BitVec.getLsbD_zero, bound,
      decide_true, Bool.true_and, Bool.false_and, if_true, Bool.false_eq_true, if_false]
  rw [BitVec.getLsbD_xor, single]
  simp only [BitVec.getLsbD_shiftLeft, BitVec.getLsbD_ushiftRight, inside, decide_true,
    Bool.true_and]
  rcases Nat.lt_trichotomy j i with below | rfl | above
  · simp [below, Nat.lt_succ_of_lt below, Nat.ne_of_gt below]
  · simp
  · have place : i + 1 + (j - (i + 1)) = i + (j - i) := by omega
    rw [place]
    simp [Nat.lt_asymm above, Nat.not_lt.mpr above, Nat.ne_of_lt above]

private theorem combine_upper {f : BitVec a → BitVec b} (linear : XorLinear f) (x : BitVec a)
    (n i : Nat) (total : i + n = a) :
    combine ((List.range' i n).map fun j => f (BitVec.twoPow a j)) i x =
      f ((x >>> i) <<< i) := by
  induction n generalizing i with
  | zero =>
      have empty : (x >>> i) <<< i = 0#a := by
        apply BitVec.eq_of_getLsbD_eq
        intro j inside
        simp only [BitVec.getLsbD_shiftLeft, BitVec.getLsbD_zero, Bool.and_eq_false_iff,
          Bool.not_eq_false', decide_eq_true_eq]
        exact .inl (.inr (by omega))
      rw [empty, linear.map_zero]
      rfl
  | succ n ih =>
      have rest := ih (i + 1) (by omega)
      rw [upper_bits_split x (by omega), linear.map_xor, ← rest, List.range'_succ, List.map_cons,
        combine]
      cases x.getLsbD i <;> simp [linear.map_zero]

theorem combine_columns {f : BitVec a → BitVec b} (linear : XorLinear f) (x : BitVec a) :
    combine (columns f) 0 x = f x := by
  have whole := combine_upper linear x a 0 (Nat.zero_add a)
  simpa [columns, List.range_eq_range'] using whole

theorem columns_comp {f : BitVec b → BitVec c} (g : BitVec a → BitVec b)
    (linear : XorLinear f) : columns (f ∘ g) = (columns g).map (combine (columns f) 0) := by
  simp only [columns, List.map_map]
  refine List.map_congr_left fun i _ => ?_
  exact (combine_columns linear _).symm

theorem XorLinear.eq_of_columns {f g : BitVec a → BitVec b}
    (left : XorLinear f) (right : XorLinear g) (same : columns f = columns g) : f = g := by
  funext x
  rw [← combine_columns left, ← combine_columns right, same]

theorem combine_xorLinear (table : List (BitVec b)) (i : Nat) :
    XorLinear (combine table i : BitVec a → BitVec b) := by
  constructor
  intro x y
  induction table generalizing i with
  | nil => simp [combine]
  | cons column rest ih =>
      simp only [combine, BitVec.getLsbD_xor, ih (i + 1)]
      cases x.getLsbD i <;> cases y.getLsbD i <;> simp
      · ac_rfl
      · ac_rfl
      · rw [BitVec.xor_comm column, BitVec.xor_comm column, xor_cancel]

/-- A linear map with a left inverse on the single bits is injective. The
inverse is given by its columns, so the premise can be evaluated. -/
theorem XorLinear.injective_of_columns {f : BitVec a → BitVec b} (linear : XorLinear f)
    (inverse : List (BitVec a))
    (inverts : (columns f).map (combine inverse 0) = columns (id : BitVec a → BitVec a)) :
    Function.Injective f := by
  have composed : (combine inverse 0 ∘ f : BitVec a → BitVec a) = id := by
    refine ((combine_xorLinear inverse 0).comp linear).eq_of_columns .identity ?_
    rw [← inverts]
    simp [columns]
  exact Function.LeftInverse.injective (g := combine inverse 0) (congrFun composed)

/-! ## A linear source feeding a linear register -/

section Machine

variable (next : BitVec a → BitVec a) (feed : BitVec a → BitVec b)
  (shift : BitVec b → BitVec b)

/-- The register after `n` states of the source were fed into it in turn. -/
def accumulate : Nat → BitVec a → BitVec b → BitVec b
  | 0, _, register => register
  | n + 1, source, register => accumulate n (next source) (shift (register ^^^ feed source))

theorem accumulate_add (m n : Nat) (source : BitVec a) (register : BitVec b) :
    accumulate next feed shift (m + n) source register =
      accumulate next feed shift n (next^[m] source)
        (accumulate next feed shift m source register) := by
  induction m generalizing source register with
  | zero => rw [Nat.zero_add]; rfl
  | succ m ih =>
      rw [Nat.succ_add, accumulate, ih, Function.iterate_succ_apply, accumulate]

variable {next feed shift}

theorem accumulate_xor (nextLinear : XorLinear next) (feedLinear : XorLinear feed)
    (shiftLinear : XorLinear shift) (n : Nat) (source source' : BitVec a)
    (register register' : BitVec b) :
    accumulate next feed shift n (source ^^^ source') (register ^^^ register') =
      accumulate next feed shift n source register ^^^
        accumulate next feed shift n source' register' := by
  induction n generalizing source source' register register' with
  | zero => rfl
  | succ n ih =>
      simp only [accumulate]
      rw [← ih, nextLinear.map_xor, feedLinear.map_xor, ← shiftLinear.map_xor]
      congr 2
      ac_rfl

theorem accumulate_zero_source (nextLinear : XorLinear next) (feedLinear : XorLinear feed)
    (n : Nat) (register : BitVec b) :
    accumulate next feed shift n 0#a register = shift^[n] register := by
  induction n generalizing register with
  | zero => rfl
  | succ n ih =>
      rw [accumulate, nextLinear.map_zero, feedLinear.map_zero, BitVec.xor_zero, ih,
        Function.iterate_succ_apply]

theorem accumulate_xorLinear (nextLinear : XorLinear next) (feedLinear : XorLinear feed)
    (shiftLinear : XorLinear shift) (n : Nat) :
    XorLinear fun source => accumulate next feed shift n source 0#b := by
  constructor
  intro x y
  simpa using accumulate_xor nextLinear feedLinear shiftLinear n x y 0#b 0#b

/-- Columns of the source, of the register fed from zero and of the bare
register, all after the same number of steps. -/
structure Stride (a b : Nat) where
  next : List (BitVec a)
  fed : List (BitVec b)
  shift : List (BitVec b)

/-- Twice as many steps, from the columns alone. -/
def Stride.double (stride : Stride a b) : Stride a b where
  next := stride.next.map (combine stride.next 0)
  fed := List.zipWith
    (fun early source => combine stride.shift 0 early ^^^ combine stride.fed 0 source)
    stride.fed stride.next
  shift := stride.shift.map (combine stride.shift 0)

variable (next feed shift)

/-- The columns reached after `n` steps. -/
def strideOf (n : Nat) : Stride a b where
  next := columns next^[n]
  fed := columns fun source => accumulate next feed shift n source 0#b
  shift := columns shift^[n]

variable {next feed shift}

theorem strideOf_double (nextLinear : XorLinear next) (feedLinear : XorLinear feed)
    (shiftLinear : XorLinear shift) (n : Nat) :
    (strideOf next feed shift n).double = strideOf next feed shift (n + n) := by
  have fedLinear := accumulate_xorLinear nextLinear feedLinear shiftLinear n
  have split : ∀ source, accumulate next feed shift (n + n) source 0#b =
      shift^[n] (accumulate next feed shift n source 0#b) ^^^
        accumulate next feed shift n (next^[n] source) 0#b := by
    intro source
    have parts := accumulate_xor nextLinear feedLinear shiftLinear n 0#a (next^[n] source)
      (accumulate next feed shift n source 0#b) 0#b
    rw [BitVec.zero_xor, BitVec.xor_zero, accumulate_zero_source nextLinear feedLinear] at parts
    rw [accumulate_add, parts]
  have sourceColumns := columns_comp (next^[n]) (nextLinear.iterate n)
  have shiftColumns := columns_comp (shift^[n]) (shiftLinear.iterate n)
  rw [← Function.iterate_add] at sourceColumns shiftColumns
  simp only [Stride.double, strideOf, ← sourceColumns, ← shiftColumns, Stride.mk.injEq,
    true_and, and_true]
  simp only [columns, List.zipWith_map, List.zipWith_self]
  refine List.map_congr_left fun i _ => ?_
  rw [split]
  congr 1
  · exact combine_columns (shiftLinear.iterate n) _
  · exact combine_columns fedLinear _

/-- Repeated doubling, a computable fast-forward over `2 ^ k` steps. -/
def Stride.advance : Nat → Stride a b → Stride a b
  | 0, stride => stride
  | k + 1, stride => advance k stride.double

theorem strideOf_advance (nextLinear : XorLinear next) (feedLinear : XorLinear feed)
    (shiftLinear : XorLinear shift) (k n : Nat) :
    (strideOf next feed shift n).advance k = strideOf next feed shift (2 ^ k * n) := by
  induction k generalizing n with
  | zero => rw [Nat.pow_zero, Nat.one_mul]; rfl
  | succ k ih =>
      rw [Stride.advance, strideOf_double nextLinear feedLinear shiftLinear, ih,
        Nat.pow_succ, Nat.mul_assoc, Nat.two_mul n]

end Machine

end Friidump.Theory
