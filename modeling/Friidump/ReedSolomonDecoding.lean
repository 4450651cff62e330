import Friidump.ReedSolomonEncoding

/-!
# What the decoder computes

The registers of `rs_decode` hold the polynomials of the algorithm of Berlekamp
and Massey, its search finds their roots, and what it adds to a byte is the value
of Forney's formula as far as the exponents are reduced as they should be.
-/

set_option autoImplicit false

namespace Friidump

open Theory Polynomial

/-! ## Lists of coefficients -/

structure PolyForm (l : List Nat) (p : GfField[X]) : Prop where
  length : l.length = 11
  byte : ∀ i < 11, l.getD i 0 < 256
  value : ∀ i < 11, gfValue (l.getD i 0) = p.coeff i

structure IndexForm (n : Nat) (l : List Nat) (p : GfField[X]) : Prop where
  length : l.length = n
  index : ∀ i < n, IsIndex (l.getD i 0) (p.coeff i)

theorem getD_map {α β : Type} (f : α → β) {l : List α} {i : Nat} (inside : i < l.length) (a : α)
    (b : β) : (l.map f).getD i b = f (l.getD i a) := by
  rw [List.getD_eq_getElem _ _ (by rwa [List.length_map]), List.getElem_map,
    List.getD_eq_getElem _ _ inside]

theorem PolyForm.indexForm {l : List Nat} {p : GfField[X]} (form : PolyForm l p) :
    IndexForm 11 (l.map indexOf) p where
  length := (List.length_map _).trans form.length
  index i inside := by
    rw [getD_map indexOf (form.length ▸ inside) 0, ← form.value i inside]
    exact isIndex_indexOf (form.byte i inside)

theorem IndexForm.unique {n : Nat} {l l' : List Nat} {p : GfField[X]} (form : IndexForm n l p)
    (form' : IndexForm n l' p) : l = l' := by
  refine List.ext_getElem (form.length.trans form'.length.symm) fun i inside inside' => ?_
  have here : i < n := form.length ▸ inside
  have same := (form.index i here).unique (form'.index i here)
  rwa [List.getD_eq_getElem _ _ inside, List.getD_eq_getElem _ _ inside'] at same

/-! ## Berlekamp-Massey -/

section Registers

variable {s lambda b : List Nat} {S locator previous : GfField[X]}

theorem discrepancy_value (form : PolyForm lambda locator) (syndromes : IndexForm 10 s S) {n : Nat}
    (inside : n < 10) :
    discrepancy s lambda (n + 1) < 256 ∧
      gfValue (discrepancy s lambda (n + 1)) = (locator * S).coeff n := by
  have partialSum : ∀ m ≤ n + 1,
      (List.range m).foldl (fun discr i =>
        if lambda.getD i 0 ≠ 0 ∧ s.getD (n + 1 - i - 1) 0 ≠ 255 then
          discr ^^^ alphaTo (modnn (indexOf (lambda.getD i 0) + s.getD (n + 1 - i - 1) 0))
        else discr) 0 < 256 ∧
      gfValue ((List.range m).foldl (fun discr i =>
        if lambda.getD i 0 ≠ 0 ∧ s.getD (n + 1 - i - 1) 0 ≠ 255 then
          discr ^^^ alphaTo (modnn (indexOf (lambda.getD i 0) + s.getD (n + 1 - i - 1) 0))
        else discr) 0) = ∑ i ∈ Finset.range m, locator.coeff i * S.coeff (n - i) := by
    intro m early
    induction m with
    | zero => exact ⟨Nat.zero_lt_succ 255, gfValue_zero⟩
    | succ m ih =>
        obtain ⟨byte, value⟩ := ih (Nat.le_of_succ_le early)
        have place : n + 1 - m - 1 = n - m := by omega
        have coeff := form.value m (by omega)
        have index := isIndex_indexOf (form.byte m (by omega))
        have other := syndromes.index (n - m) (by omega)
        have nonzero : lambda.getD m 0 ≠ 0 ↔ indexOf (lambda.getD m 0) ≠ 255 := by
          rw [Ne, Ne, index.zero_iff, gfValue_eq_zero (form.byte m (by omega))]
        rw [List.range_succ, List.foldl_append, List.foldl_cons, List.foldl_nil, place]
        refine ⟨product_lt byte, ?_⟩
        rw [Finset.sum_range_succ, ← value, ← coeff, ← gfValue_product index other]
        exact congrArg gfValue (if_congr (and_congr_left' nonzero) rfl rfl)
  obtain ⟨byte, value⟩ := partialSum (n + 1) (Nat.le_refl _)
  refine ⟨byte, value.trans ?_⟩
  rw [coeff_mul, Finset.Nat.sum_antidiagonal_eq_sum_range_succ_mk]

theorem shiftUp_form (form : IndexForm 11 b previous) : IndexForm 11 (shiftUp b) (X * previous) where
  length := by
    rw [shiftUp, List.length_cons, List.length_take, form.length]
    rfl
  index i inside := by
    cases i with
    | zero => exact .inl ⟨rfl, coeff_X_mul_zero _⟩
    | succ i =>
        have below : i < (b.take 10).length := by
          rw [List.length_take, form.length]
          omega
        have entry : (shiftUp b).getD (i + 1) 0 = b.getD i 0 := by
          rw [shiftUp, List.getD_cons_succ, List.getD_eq_getElem _ _ below, List.getElem_take,
            List.getD_eq_getElem]
        rw [entry, coeff_X_mul]
        exact form.index i (by omega)

theorem corrected_form (form : PolyForm lambda locator) (form' : IndexForm 11 b previous)
    {discr : Nat} {d : GfField} (index : IsIndex discr d) (nonzero : discr ≠ 255) :
    PolyForm (corrected lambda b discr) (locator - C d * (X * previous)) := by
  have head : (corrected lambda b discr).getD 0 0 = lambda.getD 0 0 := rfl
  have entry : ∀ i < 10, (corrected lambda b discr).getD (i + 1) 0 =
      if b.getD i 0 ≠ 255 then lambda.getD (i + 1) 0 ^^^ alphaTo (modnn (discr + b.getD i 0))
      else lambda.getD (i + 1) 0 := fun i inside => by
    have below : i < (List.range 10).length := List.length_range ▸ inside
    rw [corrected, List.getD_cons_succ, getD_map _ below 0, List.getD_eq_getElem _ _ below,
      List.getElem_range]
  refine ⟨rfl, fun i inside => ?_, fun i inside => ?_⟩
  · cases i with
    | zero => exact head ▸ form.byte 0 inside
    | succ i =>
        rw [entry i (by omega)]
        exact product_lt (form.byte (i + 1) inside)
  · rw [coeff_sub, coeff_C_mul, CharTwo.sub_eq_add]
    cases i with
    | zero => rw [head, coeff_X_mul_zero, mul_zero, add_zero, form.value 0 inside]
    | succ i =>
        have other := form'.index i (by omega)
        rw [entry i (by omega), coeff_X_mul, ← form.value (i + 1) inside, ← gfValue_product index other]
        exact congrArg gfValue (if_congr (and_iff_right nonzero).symm rfl rfl)

theorem scaled_form (form : PolyForm lambda locator) {discr : Nat} {d : GfField}
    (index : IsIndex discr d) (nonzero : discr ≠ 255) :
    IndexForm 11 (scaled lambda discr) (C d⁻¹ * locator) where
  length := (List.length_map _).trans form.length
  index i inside := by
    obtain ⟨below, rfl⟩ := index.pow nonzero
    rw [scaled, getD_map _ (form.length ▸ inside) 0, coeff_C_mul, ← form.value i inside]
    have entry := isIndex_indexOf (form.byte i inside)
    split
    · rename_i zero
      rw [zero, gfValue_zero, mul_zero]
      exact .inl ⟨rfl, rfl⟩
    · rename_i positive
      obtain ⟨small, value⟩ := entry.pow fun top =>
        positive ((gfValue_eq_zero (form.byte i inside)).mp (entry.zero_iff.mp top))
      refine .inr ⟨modnn_lt _, ?_⟩
      rw [modnn_sum (by omega), gfAlpha_pow_mod, value,
        pow_sub₀ _ gfAlpha_ne_zero (Nat.le_trans (Nat.le_of_lt below) (Nat.le_add_left 255 _)), pow_add,
        gfAlpha_period, mul_one, mul_comm]

/-- The registers hold the state of the algorithm. -/
structure Refines (reg : Registers) (state : Massey GfField) : Prop where
  lambda : PolyForm reg.lambda state.locator
  b : IndexForm 11 reg.b state.previous
  el : reg.el = state.length

theorem berlekampStep_refines {reg : Registers} {state : Massey GfField} (refines : Refines reg state)
    (syndromes : IndexForm 10 s S) {n : Nat} (inside : n < 10) :
    Refines (berlekampStep s (n + 1) reg) (masseyStep S n state) := by
  obtain ⟨byte, value⟩ := discrepancy_value refines.lambda syndromes inside
  have index := isIndex_indexOf byte
  rw [value] at index
  by_cases hit : (state.locator * S).coeff n = 0
  · have top := index.zero_iff.mpr hit
    rw [berlekampStep, masseyStep, if_pos hit, if_pos top]
    exact ⟨refines.lambda, shiftUp_form refines.b, refines.el⟩
  · have nonzero : indexOf (discrepancy s reg.lambda (n + 1)) ≠ 255 := fun top =>
      hit (index.zero_iff.mp top)
    have lambda := corrected_form refines.lambda refines.b index nonzero
    rw [berlekampStep, masseyStep, if_neg hit, if_neg nonzero, refines.el, Nat.add_sub_cancel]
    by_cases grows : 2 * state.length ≤ n
    · rw [if_pos grows, if_pos grows, if_pos grows]
      exact ⟨lambda, scaled_form refines.lambda index nonzero, rfl⟩
    · rw [if_neg grows, if_neg grows, if_neg grows]
      exact ⟨lambda, shiftUp_form refines.b, rfl⟩

theorem polyForm_one : PolyForm ((List.replicate 11 0).set 0 1) (1 : GfField[X]) := by
  refine ⟨rfl, by decide, fun i inside => ?_⟩
  rw [coeff_one]
  cases i with
  | zero => exact gfValue_one
  | succ i =>
      have zero : ((List.replicate 11 0).set 0 1).getD (i + 1) 0 = 0 := by
        rw [getD_set_other (Nat.succ_ne_zero i).symm, List.getD_eq_getElem?_getD,
          List.getElem?_replicate]
        split <;> rfl
      rw [zero, gfValue_zero, if_neg (Nat.succ_ne_zero i)]

theorem start_refines (S : GfField[X]) : Refines .start (massey S 0) :=
  ⟨polyForm_one, polyForm_one.indexForm, rfl⟩

theorem berlekampMassey_refines (syndromes : IndexForm 10 s S) (left n : Nat) (reg : Registers)
    (bound : n + left ≤ 10) (refines : Refines reg (massey S n)) :
    Refines (berlekampMassey s left n reg) (massey S (n + left)) := by
  induction left generalizing n reg with
  | zero => exact refines
  | succ left ih =>
      have step := berlekampStep_refines refines syndromes (by omega : n < 10)
      have rest := ih (n + 1) _ (by omega) step
      rwa [Nat.add_right_comm n 1 left] at rest

end Registers

/-! ## The degree -/

theorem degLambda_eq {lambda : List Nat} {locator : GfField[X]} (form : IndexForm 11 lambda locator)
    (one : locator.coeff 0 = 1) (small : locator.natDegree ≤ 10) :
    degLambda lambda = locator.natDegree := by
  have last : ∀ n ≤ 11, ∀ deg,
      (List.range n).foldl (fun deg i => if lambda.getD i 0 ≠ 255 then i else deg) 0 = deg →
      locator.coeff deg ≠ 0 ∧ ∀ i, deg < i → i < n → locator.coeff i = 0 := by
    intro n early
    induction n with
    | zero =>
        rintro _ rfl
        exact ⟨one ▸ one_ne_zero, nofun⟩
    | succ n ih =>
        rintro deg found
        rw [List.range_succ, List.foldl_append, List.foldl_cons, List.foldl_nil] at found
        obtain ⟨nonzero, above⟩ := ih (Nat.le_of_succ_le early) _ rfl
        have index := form.index n early
        split at found
        · rename_i entry
          subst found
          refine ⟨fun zero => entry (index.zero_iff.mpr zero), fun i beyond below => ?_⟩
          omega
        · rename_i entry
          subst found
          refine ⟨nonzero, fun i beyond below => ?_⟩
          obtain earlier | rfl := Nat.lt_or_eq_of_le (Nat.le_of_lt_succ below)
          · exact above i beyond earlier
          · exact index.zero_iff.mp (not_not.mp entry)
  obtain ⟨nonzero, above⟩ := last 11 (Nat.le_refl 11) _ rfl
  refine Nat.le_antisymm (le_natDegree_of_ne_zero nonzero) ?_
  refine natDegree_le_iff_coeff_eq_zero.mpr fun i beyond => ?_
  rcases Nat.lt_or_ge i 11 with inside | outside
  · exact above i beyond inside
  · exact coeff_eq_zero_of_natDegree_lt (by omega)

/-! ## The search for roots -/

theorem chienStep_spec {c : Nat → GfField} (j : Nat) (reg : List Nat) (q : Nat) (small : j ≤ 10)
    (length : reg.length = 11) (byte : q < 256)
    (index : ∀ k, 1 ≤ k → k ≤ j → IsIndex (reg.getD k 0) (c k)) :
    (chienStep j reg q).1.length = 11 ∧ (chienStep j reg q).2 < 256 ∧
      gfValue (chienStep j reg q).2 =
        gfValue q + ∑ k ∈ Finset.range j, c (k + 1) * gfAlpha ^ (k + 1) ∧
      (∀ k, 1 ≤ k → k ≤ j → IsIndex ((chienStep j reg q).1.getD k 0) (c k * gfAlpha ^ k)) ∧
      ∀ k, j < k → (chienStep j reg q).1.getD k 0 = reg.getD k 0 := by
  induction j generalizing reg q with
  | zero =>
      refine ⟨length, byte, ?_, fun k first last => ?_, fun _ _ => rfl⟩
      · rw [Finset.sum_range_zero, add_zero]
        rfl
      · omega
  | succ j ih =>
      have here := index (j + 1) (Nat.le_add_left 1 j) (Nat.le_refl _)
      rw [chienStep]
      split
      · rename_i nonzero
        obtain ⟨below, value⟩ := here.pow nonzero
        have stays : ∀ k ≤ j, (reg.set (j + 1) (modnn (reg.getD (j + 1) 0 + (j + 1)))).getD k 0 =
            reg.getD k 0 := fun k earlier => getD_set_other (by omega)
        have power : c (j + 1) * gfAlpha ^ (j + 1) = gfAlpha ^ (reg.getD (j + 1) 0 + (j + 1)) := by
          rw [value]
          exact (pow_add _ _ _).symm
        obtain ⟨length', byte', value', index', above⟩ :=
          ih (reg.set (j + 1) (modnn (reg.getD (j + 1) 0 + (j + 1))))
            (q ^^^ alphaTo (modnn (reg.getD (j + 1) 0 + (j + 1)))) (by omega)
            (List.length_set.trans length) (byte_xor byte (alphaTo_lt (modnn_lt _)))
            fun k first last => (stays k last).symm ▸ index k first (Nat.le_succ_of_le last)
        refine ⟨length', byte', ?_, fun k first last => ?_, fun k beyond => ?_⟩
        · rw [value', gfValue_xor, gfValue_alphaTo_modnn (by omega), Finset.sum_range_succ, power]
          ring
        · obtain earlier | rfl := Nat.lt_or_eq_of_le last
          · exact index' k first (Nat.le_of_lt_succ earlier)
          · rw [above (j + 1) (Nat.lt_succ_self j), getD_set_self (by omega)]
            refine .inr ⟨modnn_lt _, ?_⟩
            rw [modnn_sum (by omega), gfAlpha_pow_mod, power]
        · rw [above k (by omega), getD_set_other (by omega)]
      · rename_i top
        have zero := here.zero_iff.mp (not_not.mp top)
        obtain ⟨length', byte', value', index', above⟩ :=
          ih reg q (by omega) length byte fun k first last => index k first (Nat.le_succ_of_le last)
        refine ⟨length', byte', ?_, fun k first last => ?_, fun k beyond => above k (by omega)⟩
        · rw [value', Finset.sum_range_succ, zero, zero_mul, add_zero]
        · obtain earlier | rfl := Nat.lt_or_eq_of_le last
          · exact index' k first (Nat.le_of_lt_succ earlier)
          · rw [above (j + 1) (Nat.lt_succ_self j), zero, zero_mul, ← zero]
            exact here

open scoped Classical in
/-- The exponents from `i` on whose powers are roots. -/
noncomputable def rootsFrom (p : GfField[X]) (i left : Nat) : List Nat :=
  (List.range' i left).filter fun i => p.eval (gfAlpha ^ i) = 0

noncomputable def errorRoots (p : GfField[X]) : List Nat := rootsFrom p 1 255

theorem mem_errorRoots {p : GfField[X]} {i : Nat} :
    i ∈ errorRoots p ↔ 1 ≤ i ∧ i ≤ 255 ∧ p.eval (gfAlpha ^ i) = 0 := by
  classical
  rw [errorRoots, rootsFrom, List.mem_filter, List.mem_range'_1, decide_eq_true_iff, and_assoc,
    Nat.lt_succ_iff]

theorem nodup_errorRoots (p : GfField[X]) : (errorRoots p).Nodup :=
  List.Nodup.filter _ List.nodup_range'

theorem gfAlpha_injective_upper {i j : Nat} (first : 1 ≤ i) (last : i ≤ 255) (first' : 1 ≤ j)
    (last' : j ≤ 255) (same : gfAlpha ^ i = gfAlpha ^ j) : i = j := by
  rw [← gfAlpha_pow_mod i, ← gfAlpha_pow_mod j] at same
  have remainders := gfAlpha_injective (Nat.mod_lt i (by decide)) (Nat.mod_lt j (by decide)) same
  omega

theorem length_errorRoots_le {p : GfField[X]} (nonzero : p ≠ 0) :
    (errorRoots p).length ≤ p.natDegree := by
  classical
  have distinct : ((errorRoots p).map fun i => gfAlpha ^ i).Nodup := by
    refine (nodup_errorRoots p).map_on fun i inside j inside' same => ?_
    obtain ⟨first, last, -⟩ := mem_errorRoots.mp inside
    obtain ⟨first', last', -⟩ := mem_errorRoots.mp inside'
    exact gfAlpha_injective_upper first last first' last' same
  have roots : ((errorRoots p).map fun i => gfAlpha ^ i).toFinset ⊆ p.roots.toFinset := by
    intro x member
    obtain ⟨i, inside, rfl⟩ := List.mem_map.mp (List.mem_toFinset.mp member)
    exact Multiset.mem_toFinset.mpr ((mem_roots nonzero).mpr (mem_errorRoots.mp inside).2.2)
  calc (errorRoots p).length = ((errorRoots p).map fun i => gfAlpha ^ i).toFinset.card := by
        rw [List.toFinset_card_of_nodup distinct, List.length_map]
    _ ≤ p.roots.toFinset.card := Finset.card_le_card roots
    _ ≤ p.roots.card := Multiset.toFinset_card_le _
    _ ≤ p.natDegree := card_roots' p

theorem rootsFrom_root {p : GfField[X]} {i : Nat} (root : p.eval (gfAlpha ^ i) = 0) (left : Nat) :
    rootsFrom p i (left + 1) = i :: rootsFrom p (i + 1) left := by
  rw [rootsFrom, List.range'_succ, List.filter_cons_of_pos (by simpa using root)]
  rfl

theorem rootsFrom_other {p : GfField[X]} {i : Nat} (other : p.eval (gfAlpha ^ i) ≠ 0) (left : Nat) :
    rootsFrom p i (left + 1) = rootsFrom p (i + 1) left := by
  rw [rootsFrom, List.range'_succ, List.filter_cons_of_neg (by simpa using other)]
  rfl

/-- The next power of the generator in a term of a polynomial. -/
private theorem next_term (c : GfField) (i j : Nat) :
    c * (gfAlpha ^ i) ^ j * gfAlpha ^ j = c * (gfAlpha ^ (i + 1)) ^ j := by
  rw [mul_assoc, ← mul_pow, ← pow_succ]

theorem chienSearch_roots {locator : GfField[X]} (one : locator.coeff 0 = 1)
    (small : locator.natDegree ≤ 10) (left i k : Nat) (reg : List Nat) (found : List Root)
    (bound : i + left = 256) (first : 1 ≤ i) (position : left ≠ 0 → k = i - 1)
    (length : reg.length = 11)
    (index : ∀ j, 1 ≤ j → j ≤ locator.natDegree →
      IsIndex (reg.getD j 0) (locator.coeff j * (gfAlpha ^ (i - 1)) ^ j))
    (room : found.length + (rootsFrom locator i left).length ≤ locator.natDegree) :
    chienSearch locator.natDegree left i k reg found =
      found ++ (rootsFrom locator i left).map fun i => { root := i, loc := i - 1 } := by
  induction left generalizing i k reg found with
  | zero => exact (List.append_nil found).symm
  | succ left ih =>
      have spec := chienStep_spec locator.natDegree reg 1 small length (by decide) index
      rw [chienSearch]
      generalize chienStep locator.natDegree reg 1 = stepped at spec ⊢
      obtain ⟨reg', q⟩ := stepped
      obtain ⟨length', byte, value, index', -⟩ := spec
      dsimp only at length' byte value index' ⊢
      obtain rfl := position (Nat.succ_ne_zero left)
      obtain ⟨i, rfl⟩ := Nat.exists_eq_add_of_le' first
      rw [Nat.add_sub_cancel] at index' ⊢
      have evaluated : gfValue q = locator.eval (gfAlpha ^ (i + 1)) := by
        rw [value, gfValue_one, eval_eq_sum_range, Finset.sum_range_succ', pow_zero, mul_one, one,
          add_comm]
        congr 1
        exact Finset.sum_congr rfl fun j _ => next_term _ i (j + 1)
      have later := fun found => ih (i + 1 + 1) (modnn (i + 1)) reg' found (by omega)
        (Nat.le_add_left 1 _) (fun more => by
          rw [modnn_sum (by omega), Nat.mod_eq_of_lt (by omega), Nat.add_sub_cancel]) length'
        (fun j lower upper => next_term (locator.coeff j) i j ▸ index' j lower upper)
      by_cases root : locator.eval (gfAlpha ^ (i + 1)) = 0
      · have zero : ¬ q ≠ 0 :=
          not_not.mpr ((gfValue_eq_zero byte).mp (evaluated.trans root))
        have here := rootsFrom_root root left
        rw [here, List.length_cons] at room
        rw [here, if_neg zero]
        split
        · rename_i full
          rw [List.length_append, List.length_singleton] at full
          have none : rootsFrom locator (i + 1 + 1) left = [] :=
            List.eq_nil_of_length_eq_zero (by omega)
          rw [none]
          rfl
        · rw [later _ (by
            rw [List.length_append, List.length_singleton]
            omega), List.append_assoc]
          rfl
      · have nonzero : q ≠ 0 := fun zero =>
          root (evaluated.symm.trans ((gfValue_eq_zero byte).mpr zero))
        have here := rootsFrom_other root left
        rw [here] at room ⊢
        rw [if_pos nonzero]
        exact later found room

end Friidump
