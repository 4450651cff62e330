import Friidump.ReedSolomonDecoding

/-!
# The correction of a word

The whole of `rs_decode` as one equation over the locator of the word, with the
values that the exponents reduced by `modnn` give.
-/

set_option autoImplicit false

namespace Friidump

open Theory Polynomial

/-! ## Sums of guarded terms -/

theorem foldr_guarded_lt (p : Nat → Prop) [DecidablePred p] {f : Nat → Nat} (bytes : ∀ k, f k < 256)
    (n : Nat) : (List.range n).foldr (fun k acc => if p k then acc ^^^ f k else acc) 0 < 256 := by
  generalize List.range n = indices
  induction indices with
  | nil => exact Nat.zero_lt_succ 255
  | cons k rest ih =>
      rw [List.foldr_cons]
      split
      · exact byte_xor ih (bytes k)
      · exact ih

theorem guarded_term {k : Nat} {c : GfField} (index : IsIndex k c) (e : Nat) :
    (if k ≠ 255 then gfValue (alphaTo ((k + e) % 255)) else 0) = c * gfAlpha ^ e := by
  split
  · rename_i nonzero
    obtain ⟨-, rfl⟩ := index.pow nonzero
    rw [gfValue_alphaTo (Nat.mod_lt _ (by decide)), gfAlpha_pow_mod, pow_add]
  · rename_i top
    rw [index.zero_iff.mp (not_not.mp top), zero_mul]

/-! ## The evaluator -/

section Evaluator

variable {s lambda omega : List Nat} {S locator evaluator : GfField[X]}

theorem omegaEntry_value (form : IndexForm 11 lambda locator) (syndromes : IndexForm 10 s S) {i : Nat}
    (inside : i < 10) :
    omegaEntry s lambda i < 256 ∧ gfValue (omegaEntry s lambda i) = (locator * S).coeff i := by
  refine ⟨foldr_guarded_lt _ (fun k => alphaTo_lt (modnn_lt _)) _, ?_⟩
  rw [omegaEntry, gfValue_foldr_guarded (fun j => s.getD (i - j) 0 ≠ 255 ∧ lambda.getD j 0 ≠ 255)
    (fun j => alphaTo (modnn (s.getD (i - j) 0 + lambda.getD j 0))), gfValue_zero, zero_add, coeff_mul,
    Finset.Nat.sum_antidiagonal_eq_sum_range_succ_mk]
  refine Finset.sum_congr rfl fun j below => ?_
  have early : j ≤ i := Nat.le_of_lt_succ (Finset.mem_range.mp below)
  have product := gfValue_product (syndromes.index (i - j) (by omega)) (form.index j (by omega)) 0
  rw [gfValue_zero, zero_add, mul_comm] at product
  rw [← product]
  split
  · rw [Nat.zero_xor]
  · exact gfValue_zero.symm

theorem formOmega_form (form : IndexForm 11 lambda locator) (syndromes : IndexForm 10 s S) {deg : Nat}
    (small : deg ≤ 10) : IndexForm deg (formOmega s lambda deg) (locator * S) where
  length := (List.length_map _).trans List.length_range
  index i inside := by
    have below : i < (List.range deg).length := List.length_range.symm ▸ inside
    obtain ⟨byte, value⟩ := omegaEntry_value form syndromes (Nat.lt_of_lt_of_le inside small)
    rw [formOmega, getD_map _ below 0, List.getD_eq_getElem _ _ below, List.getElem_range, ← value]
    exact isIndex_indexOf byte

/-- The even powers of the derivative are all there are. -/
theorem derivative_eval (locator : GfField[X]) (small : locator.natDegree ≤ 10) (x : GfField) :
    (derivative locator).eval x =
      ∑ h ∈ Finset.range (min locator.natDegree 9 / 2 + 1), locator.coeff (2 * h + 1) * x ^ (2 * h) := by
  have degree : (derivative locator).natDegree < 2 * 5 :=
    Nat.lt_of_le_of_lt (natDegree_derivative_le locator) (by omega)
  have paired : ∀ n, ∑ i ∈ Finset.range (2 * n), (derivative locator).coeff i * x ^ i =
      ∑ h ∈ Finset.range n, locator.coeff (2 * h + 1) * x ^ (2 * h) := by
    intro n
    induction n with
    | zero => rfl
    | succ n ih =>
        have even : ((2 * n : ℕ) : GfField) = 0 := by
          rw [Nat.cast_mul, Nat.cast_ofNat, CharTwo.two_eq_zero, zero_mul]
        have odd : ((2 * n + 1 : ℕ) : GfField) + 1 = 0 := by
          rw [Nat.cast_add, even, zero_add, Nat.cast_one, CharTwo.add_self_eq_zero]
        rw [Nat.mul_succ, Finset.sum_range_succ, Finset.sum_range_succ, ih, Finset.sum_range_succ,
          coeff_derivative, coeff_derivative, even, odd, zero_add, mul_one, mul_zero, zero_mul, add_zero]
  rw [eval_eq_sum_range' degree, paired 5]
  refine (Finset.sum_subset (fun h inside => ?_) fun h inside outside => ?_).symm
  · have bound := Finset.mem_range.mp inside
    exact Finset.mem_range.mpr (by omega)
  · have beyond := Finset.mem_range.not.mp outside
    have below := Finset.mem_range.mp inside
    rw [coeff_eq_zero_of_natDegree_lt (by omega), zero_mul]

theorem errorValue_lt {reduce : Nat → Nat} (reduces : ∀ x, reduce x < 255) (lambda omega : List Nat)
    (deg root : Nat) : errorValue reduce lambda omega deg root < 256 := by
  rw [errorValue]
  split
  · exact alphaTo_lt (reduces _)
  · exact Nat.zero_lt_succ 255

/-! The two sums of `errorValue`, with the exponents reduced exactly. -/

private def errorNumerator (omega : List Nat) (deg root : Nat) : Nat :=
  (List.range deg).foldr (fun i num1 =>
    if omega.getD i 0 ≠ 255 then num1 ^^^ alphaTo ((omega.getD i 0 + i * root) % 255) else num1) 0

private def errorDenominator (lambda : List Nat) (deg root : Nat) : Nat :=
  (List.range (min deg 9 / 2 + 1)).foldr (fun h den =>
    if lambda.getD (2 * h + 1) 0 ≠ 255 then
      den ^^^ alphaTo ((lambda.getD (2 * h + 1) 0 + 2 * h * root) % 255)
    else den) 0

private theorem reduced (x : Nat) : x % 255 < 255 := Nat.mod_lt x (by decide)

private theorem errorNumerator_lt (omega : List Nat) (deg root : Nat) :
    errorNumerator omega deg root < 256 :=
  foldr_guarded_lt _ (fun _ => alphaTo_lt (reduced _)) _

private theorem errorDenominator_lt (lambda : List Nat) (deg root : Nat) :
    errorDenominator lambda deg root < 256 :=
  foldr_guarded_lt _ (fun _ => alphaTo_lt (reduced _)) _

private theorem errorNumerator_value {deg : Nat} (form : IndexForm deg omega evaluator) (root : Nat) :
    gfValue (errorNumerator omega deg root) =
      (terms deg evaluator.coeff).eval (gfAlpha ^ root) := by
  refine (gfValue_foldr_guarded (fun i => omega.getD i 0 ≠ 255)
    (fun i => alphaTo ((omega.getD i 0 + i * root) % 255)) _ _).trans ?_
  rw [gfValue_zero, zero_add, terms, eval_finsetSum]
  refine Finset.sum_congr rfl fun i inside => ?_
  rw [guarded_term (form.index i (Finset.mem_range.mp inside)), eval_mul, eval_C, eval_pow, eval_X,
    ← pow_mul, Nat.mul_comm root i]

private theorem errorDenominator_value (form : IndexForm 11 lambda locator)
    (small : locator.natDegree ≤ 10) (root : Nat) :
    gfValue (errorDenominator lambda locator.natDegree root) =
      (derivative locator).eval (gfAlpha ^ root) := by
  refine (gfValue_foldr_guarded (fun h => lambda.getD (2 * h + 1) 0 ≠ 255)
    (fun h => alphaTo ((lambda.getD (2 * h + 1) 0 + 2 * h * root) % 255)) _ _).trans ?_
  rw [gfValue_zero, zero_add, derivative_eval locator small]
  refine Finset.sum_congr rfl fun h inside => ?_
  have below := Finset.mem_range.mp inside
  rw [guarded_term (form.index (2 * h + 1) (by omega)), ← pow_mul, Nat.mul_comm root (2 * h)]

/-- A byte that is not zero is the power that its index names. -/
private theorem pow_indexOf {a : Nat} (byte : a < 256) (nonzero : gfValue a ≠ 0) :
    indexOf a < 255 ∧ gfValue a = gfAlpha ^ indexOf a :=
  (isIndex_indexOf byte).pow fun top => nonzero ((isIndex_indexOf byte).zero_iff.mp top)

/-- With the exponents reduced exactly the value is that of Forney's formula. -/
theorem errorValue_exact (form : IndexForm 11 lambda locator) (small : locator.natDegree ≤ 10)
    (form' : IndexForm locator.natDegree omega evaluator) {root : Nat}
    (last : root ≤ 255) (simple : (derivative locator).eval (gfAlpha ^ root) ≠ 0) :
    gfValue (errorValue (· % 255) lambda omega locator.natDegree root) =
      forney locator (terms locator.natDegree evaluator.coeff) (gfAlpha ^ (255 - root)) := by
  have inverse : (gfAlpha ^ (255 - root))⁻¹ = gfAlpha ^ root := by
    refine inv_eq_of_mul_eq_one_left ?_
    rw [← pow_add, Nat.add_sub_cancel' last, gfAlpha_period]
  have numValue := errorNumerator_value form' root
  have denValue := errorDenominator_value form small root
  have two : gfValue (alphaTo ((255 - root) % 255)) = gfAlpha ^ (255 - root) := by
    rw [gfValue_alphaTo (reduced _), gfAlpha_pow_mod]
  have unfolded : errorValue (· % 255) lambda omega locator.natDegree root =
      if errorNumerator omega locator.natDegree root ≠ 0 then
        alphaTo ((indexOf (errorNumerator omega locator.natDegree root) +
          indexOf (alphaTo ((255 - root) % 255)) + 255 -
            indexOf (errorDenominator lambda locator.natDegree root)) % 255)
      else 0 := rfl
  obtain ⟨denBelow, denPow⟩ := pow_indexOf (errorDenominator_lt lambda locator.natDegree root)
    (denValue.symm ▸ simple)
  obtain ⟨-, twoPow⟩ := pow_indexOf (alphaTo_lt (reduced (255 - root)))
    (two.symm ▸ pow_ne_zero _ gfAlpha_ne_zero)
  have numByte := errorNumerator_lt omega locator.natDegree root
  rw [unfolded, forney, inverse, ← numValue, ← denValue, CharTwo.neg_eq]
  split
  · rename_i nonzero
    obtain ⟨-, numPow⟩ := pow_indexOf numByte ((gfValue_eq_zero numByte).not.mpr nonzero)
    rw [gfValue_alphaTo (reduced _), gfAlpha_pow_mod,
      pow_sub₀ _ gfAlpha_ne_zero (Nat.le_trans (Nat.le_of_lt denBelow) (Nat.le_add_left 255 _)), pow_add,
      pow_add, gfAlpha_period, mul_one, ← denPow, ← numPow, ← twoPow, two,
      mul_comm (gfValue (errorNumerator omega locator.natDegree root)), div_eq_mul_inv]
  · rename_i zero
    rw [not_not.mp zero, gfValue_zero, mul_zero, zero_div]

end Evaluator

/-! ## The result -/

noncomputable def syndromePoly (w : Buffer) : GfField[X] :=
  terms 10 (powerSum (Finset.range 182) location (byteValue w))

/-- The connection polynomial of the syndromes. -/
noncomputable def wordLocator (w : Buffer) : GfField[X] := (massey (syndromePoly w) 10).locator

/-- The length of the shortest recurrence of the syndromes. -/
noncomputable def wordLength (w : Buffer) : Nat := (massey (syndromePoly w) 10).length

theorem length_formSyndromes (w : Buffer) : (formSyndromes w).length = 10 :=
  (List.length_map _).trans List.length_range

theorem getD_formSyndromes (w : Buffer) {i : Nat} (row : i < 10) :
    (formSyndromes w).getD i 0 = syndrome w i := by
  have below : i < (List.range 10).length := List.length_range.symm ▸ row
  rw [formSyndromes, getD_map _ below 0, List.getD_eq_getElem _ _ below, List.getElem_range]

theorem coeff_syndromePoly (w : Buffer) {i : Nat} (row : i < 10) :
    (syndromePoly w).coeff i = gfValue (syndrome w i) := by
  rw [syndromePoly, coeff_terms_below _ row, syndrome_value (by omega)]

theorem syndromes_form (w : Buffer) :
    IndexForm 10 ((formSyndromes w).map indexOf) (syndromePoly w) where
  length := (List.length_map _).trans (length_formSyndromes w)
  index i row := by
    rw [getD_map _ (length_formSyndromes w ▸ row) 0, getD_formSyndromes w row, coeff_syndromePoly w row]
    exact isIndex_indexOf (syndrome_lt (by omega) w)

private theorem foldl_or_eq_zero (l : List Nat) (acc : Nat) :
    l.foldl (fun synError entry => synError ||| entry) acc = 0 ↔ acc = 0 ∧ ∀ entry ∈ l, entry = 0 := by
  induction l generalizing acc with
  | nil => exact ⟨fun zero => ⟨zero, nofun⟩, And.left⟩
  | cons entry rest ih =>
      rw [List.foldl_cons, ih, Nat.or_eq_zero_iff, List.forall_mem_cons, and_assoc]

theorem synError_iff (w : Buffer) :
    (formSyndromes w).foldl (fun synError entry => synError ||| entry) 0 = 0 ↔ Codeword w := by
  rw [foldl_or_eq_zero, formSyndromes, List.forall_mem_map]
  constructor
  · rintro ⟨-, zero⟩ i row
    exact zero i (List.mem_range.mpr row)
  · exact fun codeword => ⟨rfl, fun i member => codeword i (List.mem_range.mp member)⟩

/-- Every root outside the padding changes its own byte. -/
theorem foldr_applyError (value : Nat → Nat) (roots : List Nat) (distinct : roots.Nodup)
    (first : ∀ i ∈ roots, 1 ≤ i) (w : Buffer) (m : Nat) :
    (roots.map fun i => ({ root := i, loc := i - 1 } : Root)).foldr
        (fun found => applyError (value found.root) found.loc) w m =
      if m + 74 ∈ roots then w m ^^^ (value (m + 74)).toUInt8 else w m := by
  induction roots with
  | nil => rfl
  | cons i rest ih =>
      obtain ⟨fresh, distinct⟩ := List.nodup_cons.mp distinct
      have later := ih distinct fun i member => first i (List.mem_cons_of_mem _ member)
      have positive := first i List.mem_cons_self
      rw [List.map_cons, List.foldr_cons, applyError, later]
      dsimp only
      by_cases here : i = m + 74
      · subst here
        rw [if_pos (by omega), if_neg fresh, if_pos List.mem_cons_self]
      · have elsewhere : ¬ (73 ≤ i - 1 ∧ m = i - 1 - 73) := by omega
        rw [if_neg elsewhere]
        refine if_congr ?_ rfl rfl
        rw [List.mem_cons, or_iff_right (Ne.symm here)]

open scoped Classical in
noncomputable def gfIndex (c : GfField) : Nat := if index : ∃ k, IsIndex k c then index.choose else 255

noncomputable def indexList (n : Nat) (p : GfField[X]) : List Nat :=
  (List.range n).map fun i => gfIndex (p.coeff i)

theorem IndexForm.eq_indexList {n : Nat} {l : List Nat} {p : GfField[X]} (form : IndexForm n l p) :
    l = indexList n p := by
  refine form.unique ⟨(List.length_map _).trans List.length_range, fun i inside => ?_⟩
  have below : i < (List.range n).length := List.length_range.symm ▸ inside
  have index : ∃ k, IsIndex k (p.coeff i) := ⟨_, form.index i inside⟩
  rw [indexList, getD_map _ below 0, List.getD_eq_getElem _ _ below, List.getElem_range, gfIndex,
    dif_pos index]
  exact index.choose_spec

/-- What is added to the byte of a root, with the exponents reduced in one way or another. -/
noncomputable def correction (reduce : Nat → Nat) (w : Buffer) (root : Nat) : Nat :=
  errorValue reduce (indexList 11 (wordLocator w))
    (indexList (wordLocator w).natDegree (wordLocator w * syndromePoly w)) (wordLocator w).natDegree root

theorem wordLocator_invariant (w : Buffer) :
    Generates (syndromePoly w) 10 (wordLocator w) (wordLength w) ∧
      ∀ other length, Generates (syndromePoly w) 10 other length → wordLength w ≤ length :=
  ⟨(massey_invariant (syndromePoly w) 10).generates, (massey_invariant (syndromePoly w) 10).shortest⟩

theorem wordLocator_natDegree_le (w : Buffer) : (wordLocator w).natDegree ≤ 10 :=
  (wordLocator_invariant w).1.degree.trans (massey_invariant (syndromePoly w) 10).bounded

theorem wordLocator_ne_zero (w : Buffer) : wordLocator w ≠ 0 := by
  intro zero
  have one := (wordLocator_invariant w).1.one
  rw [zero, coeff_zero] at one
  exact zero_ne_one one

theorem decoder_forms (w : Buffer) :
    (berlekampMassey ((formSyndromes w).map indexOf) 10 0 .start).lambda.map indexOf =
        indexList 11 (wordLocator w) ∧
      IndexForm 11 (indexList 11 (wordLocator w)) (wordLocator w) ∧
      formOmega ((formSyndromes w).map indexOf) (indexList 11 (wordLocator w))
          (wordLocator w).natDegree =
        indexList (wordLocator w).natDegree (wordLocator w * syndromePoly w) ∧
      IndexForm (wordLocator w).natDegree
        (indexList (wordLocator w).natDegree (wordLocator w * syndromePoly w))
        (wordLocator w * syndromePoly w) := by
  have syndromes := syndromes_form w
  have refines := berlekampMassey_refines syndromes 10 0 .start (Nat.le_refl 10)
    (start_refines (syndromePoly w))
  have form : IndexForm 11
      ((berlekampMassey ((formSyndromes w).map indexOf) 10 0 .start).lambda.map indexOf)
      (wordLocator w) := refines.lambda.indexForm
  have same := form.eq_indexList
  rw [same] at form
  have omega := formOmega_form form syndromes (wordLocator_natDegree_le w)
  have same' := omega.eq_indexList
  rw [same'] at omega
  exact ⟨same, form, same', omega⟩

theorem rsDecode_eq (w : Buffer) (faulty : ¬ Codeword w) :
    rsDecode w =
      if (wordLocator w).natDegree ≠ (errorRoots (wordLocator w)).length then (w, -1)
      else (fun m => if m + 74 ∈ errorRoots (wordLocator w) then
          w m ^^^ (correction modnn w (m + 74)).toUInt8 else w m,
        ((wordLocator w).natDegree : Int)) := by
  obtain ⟨lambda, form, omega, -⟩ := decoder_forms w
  have one := (wordLocator_invariant w).1.one
  have small := wordLocator_natDegree_le w
  have found : chienSearch (wordLocator w).natDegree 255 1 0 (indexList 11 (wordLocator w)) [] =
      (errorRoots (wordLocator w)).map fun i => { root := i, loc := i - 1 } := by
    refine chienSearch_roots one small 255 1 0 _ [] (by decide) (Nat.le_refl 1) (fun _ => rfl)
      form.length (fun j lower upper => ?_) ?_
    · rw [Nat.sub_self, pow_zero, one_pow, mul_one]
      exact form.index j (by omega)
    · rw [List.length_nil, Nat.zero_add]
      exact length_errorRoots_le (wordLocator_ne_zero w)
  rw [rsDecode]
  dsimp only
  rw [if_neg ((synError_iff w).not.mpr faulty), lambda, degLambda_eq form one small, found,
    List.length_map, omega]
  split
  · rfl
  · rename_i same
    refine Prod.ext (funext fun m => ?_) (congrArg Nat.cast (not_not.mp same).symm)
    exact foldr_applyError (fun root => correction modnn w root) _ (nodup_errorRoots _)
      (fun i member => (mem_errorRoots.mp member).1) w m

/-- What lies behind the word is left as it is. -/
theorem rsDecode_behind (w : Buffer) {m : Nat} (behind : 182 ≤ m) : (rsDecode w).1 m = w m := by
  by_cases codeword : Codeword w
  · rw [rsDecode]
    exact congrFun (congrArg Prod.fst (if_pos ((synError_iff w).mpr codeword))) m
  · rw [rsDecode_eq w codeword]
    split
    · rfl
    · refine if_neg fun root => ?_
      have late := (mem_errorRoots.mp root).2.1
      omega

theorem rsDecode_codeword {w : Buffer} (codeword : Codeword w) : rsDecode w = (w, 0) := by
  rw [rsDecode]
  exact if_pos ((synError_iff w).mpr codeword)

/-! ## The code of the encoder and that of the decoder -/

theorem codeword_iff_formSyndromes (w : Buffer) :
    Codeword w ↔ ∀ syndrome ∈ formSyndromes w, syndrome = 0 := by
  simp [formSyndromes, Codeword]

theorem bytes_encodedWord (data : Buffer) :
    (encodedWord data).bytes 182 = data.bytes 172 ++ rsEncode data := by
  have length := length_rsEncode data
  have front : (encodedWord data).bytes 172 = data.bytes 172 :=
    Buffer.bytes_congr fun m inside => if_pos inside
  have back : ((encodedWord data).advance 172).bytes 10 = rsEncode data := by
    refine List.ext_getElem (by simp [length]) fun j inside _ => ?_
    have small : j < 10 := by simpa using inside
    simp [Buffer.bytes, encodedWord, length, small]
  rw [← front, ← back]
  exact Buffer.bytes_add (encodedWord data) 172 10

/-- Data with the parity of the encoder pass the decoder unchanged, and a word without
syndromes ends with the parity of its data. -/
theorem rsDecode_rsEncode (data w : Buffer) :
    (w.bytes 182 = data.bytes 172 ++ rsEncode data → rsDecode w = (w, 0)) ∧
      ((∀ syndrome ∈ formSyndromes w, syndrome = 0) → (w.advance 172).bytes 10 = rsEncode w) := by
  constructor
  · intro encoded
    refine rsDecode_codeword ((encodedWord_codeword data).congr fun m inside => ?_)
    rw [← bytes_encodedWord] at encoded
    exact (Buffer.bytes_inj.mp encoded m inside).symm
  · intro none
    have parity := (codeword_iff_parity w).mp ((codeword_iff_formSyndromes w).mpr none)
    have length := length_rsEncode w
    refine List.ext_getElem (by simp [length]) fun j inside _ => ?_
    have small : j < 10 := by simpa using inside
    have same := parity j small
    rw [List.getD_eq_getElem _ _ (length ▸ small)] at same
    simpa [Buffer.bytes] using same

/-- The bytes 0 to 171 with their parity. -/
theorem rsDecode_rsEncode_counting :
    rsDecode (encodedWord Nat.toUInt8) = (encodedWord Nat.toUInt8, 0) ∧
      ((encodedWord Nat.toUInt8).advance 172).bytes 10 = rsEncode (encodedWord Nat.toUInt8) := by
  refine ⟨(rsDecode_rsEncode Nat.toUInt8 _).1 (bytes_encodedWord _), ?_⟩
  refine (rsDecode_rsEncode Nat.toUInt8 _).2 ?_
  exact (codeword_iff_formSyndromes _).mp (encodedWord_codeword _)

end Friidump
