import Friidump.Theory.XorLinear

/-!
# Polynomial division over the two-element field

A shift register that divides a bit message, most significant bit first, by a
fixed polynomial. The remainder is linear in the message, and a polynomial with
a constant term detects every error burst no longer than the register.
-/

set_option autoImplicit false

namespace Friidump.Theory

variable {w : Nat}

/-- Multiplication by the indeterminate: the leading coefficient leaves the
register and is replaced by the lower coefficients of the divisor. -/
def shiftOut (poly register : BitVec w) : BitVec w :=
  if register.msb then (register <<< 1) ^^^ poly else register <<< 1

/-- A message bit at the leading position of the register. -/
def topBit (bit : Bool) : BitVec w :=
  if bit then BitVec.twoPow w (w - 1) else 0#w

def absorb (poly register : BitVec w) (bit : Bool) : BitVec w :=
  shiftOut poly (register ^^^ topBit bit)

/-- The remainder left by a message, starting from a given register. -/
def remainder (poly register : BitVec w) (message : List Bool) : BitVec w :=
  message.foldl (absorb poly) register

/-- At most `w` message bits, left aligned in a register. -/
def pack : List Bool → BitVec w
  | [] => 0#w
  | bit :: rest => topBit bit ^^^ (pack rest >>> 1)

def msbBits (x : BitVec w) : List Bool :=
  (List.range w).map x.getMsbD

@[simp] theorem remainder_nil (poly register : BitVec w) : remainder poly register [] = register :=
  rfl

@[simp] theorem remainder_cons (poly register : BitVec w) (bit : Bool) (rest : List Bool) :
    remainder poly register (bit :: rest) = remainder poly (absorb poly register bit) rest :=
  rfl

theorem remainder_append (poly register : BitVec w) (first second : List Bool) :
    remainder poly register (first ++ second) =
      remainder poly (remainder poly register first) second :=
  List.foldl_append

@[simp] theorem topBit_false : (topBit false : BitVec w) = 0#w := rfl

theorem getMsbD_topBit (bit : Bool) (i : Nat) (inside : i < w) :
    (topBit bit : BitVec w).getMsbD i = (bit && decide (i = 0)) := by
  cases bit with
  | false => simp
  | true =>
      simp only [topBit, if_true, BitVec.getMsbD_twoPow, Bool.true_and]
      have place : w - (w - 1) - 1 = 0 := by omega
      have last : w - 1 < w := by omega
      simp [place, last]

@[simp] theorem length_msbBits (x : BitVec w) : (msbBits x).length = w := by
  simp [msbBits]

theorem msbBits_append {m n : Nat} (x : BitVec m) (y : BitVec n) :
    msbBits (x ++ y) = msbBits x ++ msbBits y := by
  simp only [msbBits, List.range_add, List.map_append, List.map_map]
  congr 1
  · refine List.map_congr_left fun i member => ?_
    have first : ¬ m ≤ i := Nat.not_le.mpr (List.mem_range.mp member)
    simp [BitVec.getMsbD_append, first]
  · refine List.map_congr_left fun i _ => ?_
    simp [BitVec.getMsbD_append]

/-! ## Linearity -/

theorem shiftOut_xorLinear (poly : BitVec w) : XorLinear (shiftOut poly) := by
  constructor
  intro x y
  simp only [shiftOut, BitVec.msb_xor, BitVec.shiftLeft_xor_distrib]
  cases x.msb <;> cases y.msb <;> simp
  · ac_rfl
  · ac_rfl
  · rw [xor_cancel]

theorem topBit_xor (left right : Bool) :
    (topBit (left ^^ right) : BitVec w) = topBit left ^^^ topBit right := by
  cases left <;> cases right <;> simp [topBit]

theorem absorb_xor (poly register register' : BitVec w) (bit bit' : Bool) :
    absorb poly (register ^^^ register') (bit ^^ bit') =
      absorb poly register bit ^^^ absorb poly register' bit' := by
  simp only [absorb, topBit_xor]
  rw [← (shiftOut_xorLinear poly).map_xor]
  congr 1
  ac_rfl

theorem remainder_xor (poly register register' : BitVec w) (first second : List Bool)
    (sameLength : first.length = second.length) :
    remainder poly (register ^^^ register') (List.zipWith (fun a b => a ^^ b) first second) =
      remainder poly register first ^^^ remainder poly register' second := by
  induction first generalizing second register register' with
  | nil =>
      cases second with
      | nil => rfl
      | cons bit rest => simp at sameLength
  | cons bit rest ih =>
      cases second with
      | nil => simp at sameLength
      | cons bit' rest' =>
          simp only [List.zipWith_cons_cons, remainder_cons, absorb_xor]
          exact ih _ _ rest' (by simpa using sameLength)

/-! ## Short messages -/

theorem getMsbD_pack (message : List Bool) (i : Nat) (inside : i < w) :
    (pack message : BitVec w).getMsbD i = message.getD i false := by
  induction message generalizing i with
  | nil => simp [pack]
  | cons bit rest ih =>
      rw [pack, BitVec.getMsbD_xor, getMsbD_topBit _ _ inside, BitVec.getMsbD_ushiftRight]
      cases i with
      | zero => simp
      | succ i => simp [ih i (by omega), inside]

theorem pack_msbBits (x : BitVec w) : pack (msbBits x) = x := by
  apply BitVec.eq_of_getMsbD_eq
  intro i inside
  rw [getMsbD_pack _ _ inside]
  simp [msbBits, inside]

/-- A register whose trailing bits are clear is only shifted while they last. -/
theorem shiftOut_iterate_ushiftRight (poly x : BitVec w) (k : Nat)
    (clear : ∀ i < k, x.getLsbD i = false) : (shiftOut poly)^[k] (x >>> k) = x := by
  induction k with
  | zero => simp
  | succ k ih =>
      have once : shiftOut poly (x >>> (k + 1)) = x >>> k := by
        have lead : (x >>> (k + 1)).msb = false := by simp [BitVec.msb_ushiftRight]
        rw [shiftOut, lead]
        apply BitVec.eq_of_getLsbD_eq
        intro i inside
        rcases Nat.eq_zero_or_pos i with rfl | positive
        · simpa using (clear k (Nat.lt_succ_self k)).symm
        · have place : k + 1 + (i - 1) = k + i := by omega
          simp [inside, Nat.not_lt.mpr positive, place]
      rw [Function.iterate_succ_apply, once]
      exact ih fun i below => clear i (Nat.lt_succ_of_lt below)

private theorem pack_last_clear (message : List Bool) (short : message.length < w) :
    (pack message : BitVec w).getLsbD 0 = false := by
  have inside : w - 1 < w := by omega
  have beyond : message.length ≤ w - 1 := by omega
  have last := getMsbD_pack (w := w) message (w - 1) inside
  rw [BitVec.getMsbD_eq_getLsbD] at last
  simpa [inside, List.getElem?_eq_none beyond] using last

/-- A message no longer than the register may be added to it at once. -/
theorem remainder_eq_iterate (poly register : BitVec w) (message : List Bool)
    (short : message.length ≤ w) :
    remainder poly register message =
      (shiftOut poly)^[message.length] (register ^^^ pack message) := by
  induction message generalizing register with
  | nil => simp [pack]
  | cons bit rest ih =>
      have shorter : rest.length < w := by rwa [List.length_cons] at short
      have aligned : shiftOut poly (pack rest >>> 1) = pack rest := by
        refine shiftOut_iterate_ushiftRight poly (pack rest) 1 fun i below => ?_
        rw [Nat.lt_one_iff.mp below]
        exact pack_last_clear rest shorter
      rw [remainder_cons, ih _ (Nat.le_of_lt shorter), List.length_cons, Function.iterate_succ_apply, absorb,
        pack, ← BitVec.xor_assoc, (shiftOut_xorLinear poly).map_xor _ (pack rest >>> 1), aligned]

/-! ## Divisors with a constant term -/

section Constant

variable {poly : BitVec w}

theorem shiftOut_injective (constant : poly.getLsbD 0 = true) :
    Function.Injective (shiftOut poly) := by
  have kernel : ∀ x, shiftOut poly x = 0#w → x = 0#w := by
    intro x vanishes
    have positive : 0 < w := BitVec.lt_of_getLsbD constant
    have lead : x.msb = false := by
      cases top : x.msb with
      | false => rfl
      | true =>
          have low := congrArg (fun y => y.getLsbD 0) vanishes
          simp [shiftOut, top, constant] at low
    simp only [shiftOut, lead, Bool.false_eq_true, if_false] at vanishes
    apply BitVec.eq_of_getMsbD_eq
    intro i inside
    cases i with
    | zero => simpa [BitVec.msb] using lead
    | succ i =>
        have bit := congrArg (fun y => y.getMsbD i) vanishes
        simpa using bit
  intro x y same
  have difference : x ^^^ y = 0#w := by
    apply kernel
    rw [(shiftOut_xorLinear poly).map_xor, same, BitVec.xor_self]
  exact BitVec.xor_eq_zero_iff.mp difference

theorem shiftOut_iterate_eq_zero_iff (constant : poly.getLsbD 0 = true) (n : Nat)
    (register : BitVec w) : (shiftOut poly)^[n] register = 0#w ↔ register = 0#w := by
  have zero : (shiftOut poly)^[n] 0#w = 0#w := ((shiftOut_xorLinear poly).iterate n).map_zero
  constructor
  · intro vanishes
    exact ((shiftOut_injective constant).iterate n) (vanishes.trans zero.symm)
  · rintro rfl
    exact zero

/-- Appending the remainder to the message makes the whole divisible, and no
other trailing field does. -/
theorem remainder_append_field_eq_zero_iff (constant : poly.getLsbD 0 = true)
    (register field : BitVec w) (message : List Bool) :
    remainder poly register (message ++ msbBits field) = 0#w ↔
      remainder poly register message = field := by
  rw [remainder_append, remainder_eq_iterate _ _ _ (Nat.le_of_eq (length_msbBits field)),
    shiftOut_iterate_eq_zero_iff constant, pack_msbBits, BitVec.xor_eq_zero_iff]

theorem remainder_replicate_false (register : BitVec w) (n : Nat) :
    remainder poly register (List.replicate n false) = (shiftOut poly)^[n] register := by
  induction n generalizing register with
  | zero => rfl
  | succ n ih =>
      rw [List.replicate_succ, remainder_cons, ih, Function.iterate_succ_apply, absorb,
        topBit_false, BitVec.xor_zero]

private theorem all_false_eq_replicate (message : List Bool)
    (clear : ∀ i : Nat, message[i]? ≠ some true) :
    message = List.replicate message.length false := by
  apply List.eq_replicate_iff.mpr
  refine ⟨rfl, fun bit member => ?_⟩
  obtain ⟨i, found⟩ := List.mem_iff_getElem?.mp member
  cases bit with
  | false => rfl
  | true => exact absurd found (clear i)

private theorem remainder_short_ne_zero (constant : poly.getLsbD 0 = true) (message : List Bool)
    (short : message.length ≤ w) {i : Nat} (found : message[i]? = some true) :
    remainder poly 0#w message ≠ 0#w := by
  rw [remainder_eq_iterate _ _ _ short, Ne, shiftOut_iterate_eq_zero_iff constant,
    BitVec.zero_xor]
  intro vanishes
  obtain ⟨inside, _⟩ := List.getElem?_eq_some_iff.mp found
  have bit := getMsbD_pack (w := w) message i (by omega)
  rw [vanishes] at bit
  simp [found] at bit

/-- Burst detection: a non-zero message whose set bits lie within as many
consecutive positions as the register is long leaves a non-zero remainder. -/
theorem remainder_burst_ne_zero (constant : poly.getLsbD 0 = true) (message : List Bool)
    (start : Nat) (confined : ∀ i : Nat, message[i]? = some true → start ≤ i ∧ i < start + w)
    (nonzero : ∃ i : Nat, message[i]? = some true) :
    remainder poly 0#w message ≠ 0#w := by
  have split : message =
      message.take start ++ ((message.drop start).take w ++ (message.drop start).drop w) := by
    rw [List.take_append_drop, List.take_append_drop]
  have before : message.take start = List.replicate (message.take start).length false := by
    apply all_false_eq_replicate
    intro i found
    rw [List.getElem?_take] at found
    split at found
    · have := (confined i found).1
      omega
    · simp at found
  have after : (message.drop start).drop w =
      List.replicate ((message.drop start).drop w).length false := by
    apply all_false_eq_replicate
    intro i found
    rw [List.getElem?_drop, List.getElem?_drop] at found
    have := (confined _ found).2
    omega
  have middle : remainder poly 0#w ((message.drop start).take w) ≠ 0#w := by
    obtain ⟨i, found⟩ := nonzero
    obtain ⟨first, last⟩ := confined i found
    refine remainder_short_ne_zero constant _ (List.length_take_le _ _) (i := i - start) ?_
    rw [List.getElem?_take_of_lt (by omega), List.getElem?_drop, Nat.add_sub_cancel' first]
    exact found
  rw [split, remainder_append, remainder_append, before, after, remainder_replicate_false,
    remainder_replicate_false, ((shiftOut_xorLinear poly).iterate _).map_zero, Ne,
    shiftOut_iterate_eq_zero_iff constant]
  exact middle

end Constant

end Friidump.Theory
