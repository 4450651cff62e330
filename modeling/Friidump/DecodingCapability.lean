import Friidump.DecodingSoundness

/-!
# Errors that the decoder corrects

Up to five changed bytes of a codeword are found and counted. They are restored
exactly where the exponents of Forney's formula, reduced by `modnn`, give the value
that the exact reduction gives.
-/

set_option autoImplicit false

namespace Friidump

open Theory Polynomial

/-! ## Error patterns -/

def errorPositions (error : Buffer) : List Nat := (List.range 182).filter fun m => error m ≠ 0

def received (data error : Buffer) : Buffer := fun m => encodedWord data m ^^^ error m

/-- The codeword is back, and the number of changed bytes is returned. -/
def Restores (data error : Buffer) : Prop :=
  (∀ m < 182, (rsDecode (received data error)).1 m = encodedWord data m) ∧
    (rsDecode (received data error)).2 = ((errorPositions error).length : Int)

def gfMul (a b : Nat) : Nat :=
  if a = 0 ∨ b = 0 then 0 else alphaTo ((indexOf a + indexOf b) % 255)

def timesFactor (x : Nat) (lambda : List Nat) : List Nat :=
  lambda.getD 0 0 :: (List.range 10).map fun i => lambda.getD (i + 1) 0 ^^^ gfMul x (lambda.getD i 0)

/-- The locator of the errors in poly form: the product over their positions. -/
def errorLocator (error : Buffer) : List Nat :=
  (errorPositions error).foldr (fun m => timesFactor (alphaTo (181 - m)))
    ((List.replicate 11 0).set 0 1)

/-- Forney's formula for the error at `m` by locator and evaluator of the errors, with the
reduction of exponents a parameter. -/
def forneyValue (reduce : Nat → Nat) (error : Buffer) (m : Nat) : Nat :=
  let lambda := (errorLocator error).map indexOf
  let omega := formOmega ((formSyndromes error).map indexOf) lambda (errorPositions error).length
  errorValue reduce lambda omega (errorPositions error).length (m + 74)

theorem mem_errorPositions {error : Buffer} {m : Nat} :
    m ∈ errorPositions error ↔ m < 182 ∧ error m ≠ 0 := by
  rw [errorPositions, List.mem_filter, List.mem_range, decide_eq_true_iff]

theorem nodup_errorPositions (error : Buffer) : (errorPositions error).Nodup :=
  List.nodup_range.filter _

/-! ## The locator of the errors -/

theorem gfMul_value {a b : Nat} (first : a < 256) (second : b < 256) :
    gfMul a b < 256 ∧ gfValue (gfMul a b) = gfValue a * gfValue b := by
  rw [gfMul]
  split
  · rename_i zero
    refine ⟨Nat.zero_lt_succ 255, ?_⟩
    obtain rfl | rfl := zero
    · rw [gfValue_zero, zero_mul]
    · rw [gfValue_zero, mul_zero]
  · rename_i nonzero
    obtain ⟨left, right⟩ := not_or.mp nonzero
    have index := isIndex_indexOf first
    have index' := isIndex_indexOf second
    obtain ⟨-, value⟩ := index.pow fun top => left ((gfValue_eq_zero first).mp (index.zero_iff.mp top))
    obtain ⟨-, value'⟩ := index'.pow fun top =>
      right ((gfValue_eq_zero second).mp (index'.zero_iff.mp top))
    have reduced := Nat.mod_lt (indexOf a + indexOf b) (by decide : 0 < 255)
    refine ⟨alphaTo_lt reduced, ?_⟩
    rw [gfValue_alphaTo reduced, gfAlpha_pow_mod, pow_add, ← value, ← value']

theorem timesFactor_form {x : Nat} (byte : x < 256) {lambda : List Nat} {p : GfField[X]}
    (form : PolyForm lambda p) : PolyForm (timesFactor x lambda) ((1 - C (gfValue x) * X) * p) := by
  have entry : ∀ i < 10, (timesFactor x lambda).getD (i + 1) 0 =
      lambda.getD (i + 1) 0 ^^^ gfMul x (lambda.getD i 0) := fun i inside => by
    have below : i < (List.range 10).length := List.length_range ▸ inside
    rw [timesFactor, List.getD_cons_succ, getD_map _ below 0, List.getD_eq_getElem _ _ below,
      List.getElem_range]
  refine ⟨rfl, fun i inside => ?_, fun i inside => ?_⟩
  · cases i with
    | zero => exact form.byte 0 inside
    | succ i =>
        rw [entry i (by omega)]
        exact byte_xor (form.byte _ inside) (gfMul_value byte (form.byte i (by omega))).1
  · have expanded : (1 - C (gfValue x) * X) * p = p - C (gfValue x) * (X * p) := by ring
    rw [expanded, coeff_sub, coeff_C_mul, CharTwo.sub_eq_add]
    cases i with
    | zero =>
        rw [coeff_X_mul_zero, mul_zero, add_zero]
        exact form.value 0 inside
    | succ i =>
        rw [entry i (by omega), gfValue_xor, (gfMul_value byte (form.byte i (by omega))).2, coeff_X_mul,
          form.value (i + 1) inside, form.value i (by omega)]

private theorem factors_form (positions : List Nat) (distinct : positions.Nodup) :
    PolyForm (positions.foldr (fun m => timesFactor (alphaTo (181 - m)))
      ((List.replicate 11 0).set 0 1)) (locatorOf positions.toFinset location) := by
  induction positions with
  | nil => exact polyForm_one
  | cons m rest ih =>
      obtain ⟨fresh, distinct⟩ := List.nodup_cons.mp distinct
      have small : 181 - m < 255 := Nat.lt_of_le_of_lt (Nat.sub_le _ _) (by decide)
      have factor := timesFactor_form (alphaTo_lt small) (ih distinct)
      rw [gfValue_alphaTo small] at factor
      rw [List.toFinset_cons, locatorOf, Finset.prod_insert (by rwa [List.mem_toFinset])]
      exact factor

theorem errorLocator_form (error : Buffer) :
    PolyForm (errorLocator error) (locatorOf (errorPositions error).toFinset location) :=
  factors_form _ (nodup_errorPositions error)

/-! ## The decoder on a word with errors -/

variable {data error : Buffer}

theorem syndromePoly_received (data error : Buffer) :
    syndromePoly (received data error) = syndromePoly error := by
  have bytes : ∀ m, byteValue (received data error) m =
      byteValue (encodedWord data) m + byteValue error m := fun m => by
    rw [byteValue, received, UInt8.toNat_xor, gfValue_xor]
    rfl
  refine Polynomial.ext fun i => ?_
  rw [syndromePoly, syndromePoly, coeff_terms, coeff_terms]
  split
  · rename_i row
    have clean := (codeword_iff _).mp (encodedWord_codeword data) i row
    rw [powerSum, Finset.sum_congr rfl fun m _ => by rw [bytes, add_mul], Finset.sum_add_distrib]
    exact (congrArg (· + _) clean).trans (zero_add _)
  · rfl

theorem byteValue_ne_zero {m : Nat} : byteValue error m ≠ 0 ↔ error m ≠ 0 := by
  rw [Ne, Ne, byteValue, gfValue_eq_zero (byte_lt _), ← UInt8.toNat_inj]
  rfl

theorem syndromePoly_error (error : Buffer) :
    syndromePoly error =
      terms 10 (powerSum (errorPositions error).toFinset location (byteValue error)) := by
  classical
  have positions : (errorPositions error).toFinset =
      (Finset.range 182).filter fun m => byteValue error m ≠ 0 := by
    ext m
    rw [List.mem_toFinset, mem_errorPositions, Finset.mem_filter, Finset.mem_range, byteValue_ne_zero]
  rw [syndromePoly, positions]
  congr 1
  exact funext fun i => (powerSum_filter i).symm

private theorem errors_injOn : Set.InjOn location (errorPositions error).toFinset :=
  location_injOn.mono fun _ inside => Finset.mem_coe.mpr (Finset.mem_range.mpr
    (mem_errorPositions.mp (List.mem_toFinset.mp (Finset.mem_coe.mp inside))).1)

private theorem card_errors (error : Buffer) :
    (errorPositions error).toFinset.card = (errorPositions error).length :=
  List.toFinset_card_of_nodup (nodup_errorPositions error)

section Few

variable (few : (errorPositions error).length ≤ 5)

include few

/-- The algorithm of Berlekamp and Massey finds the locator of few errors. -/
theorem wordLocator_received :
    wordLocator (received data error) = locatorOf (errorPositions error).toFinset location := by
  obtain ⟨generates, shortest⟩ := wordLocator_invariant (received data error)
  have size := card_errors error
  rw [syndromePoly_received, syndromePoly_error] at generates shortest
  have length := shortest _ _ (generates_powerSum (errorPositions error).toFinset location
    (byteValue error) 10)
  refine eq_locatorOf errors_injOn (fun m _ => location_ne_zero m) generates.one
    (generates.degree.trans length) fun m inside => ?_
  exact generates.root errors_injOn (fun m _ => location_ne_zero m) (by omega) inside
    (byteValue_ne_zero.mpr (mem_errorPositions.mp (List.mem_toFinset.mp inside)).2)

theorem rootPositions_received :
    rootPositions (received data error) = (errorPositions error).toFinset ∧
      (wordLocator (received data error)).natDegree = (errorPositions error).toFinset.card ∧
      Accepted (received data error) := by
  have locator := @wordLocator_received data error few
  have covered : (errorPositions error).toFinset ⊆ rootPositions (received data error) := by
    intro m inside
    have below := (mem_errorPositions.mp (List.mem_toFinset.mp inside)).1
    refine mem_rootPositions.mpr ⟨below, mem_errorRoots.mpr ⟨by omega, by omega, ?_⟩⟩
    rw [locator, ← location_inverse below]
    exact locatorOf_root inside (location_ne_zero m)
  have first := Finset.card_le_card covered
  have second := card_rootPositions_le (received data error)
  have third := length_errorRoots_le (wordLocator_ne_zero (received data error))
  have fourth : (wordLocator (received data error)).natDegree ≤ _ :=
    locator ▸ natDegree_locatorOf_le (errorPositions error).toFinset location
  refine ⟨(Finset.eq_of_subset_of_card_le covered (by omega)).symm, by omega, ?_⟩
  rw [Accepted]
  omega

theorem received_faulty {m : Nat} (inside : m ∈ errorPositions error) :
    ¬ Codeword (received data error) := by
  intro codeword
  have zero : ∀ i < 10, powerSum (errorPositions error).toFinset location (byteValue error) i = 0 := by
    intro i row
    have term := coeff_syndromePoly (received data error) row
    rwa [codeword i row, gfValue_zero, syndromePoly_received, syndromePoly_error,
      coeff_terms_below _ row] at term
  have size := card_errors error
  exact byteValue_ne_zero.mpr (mem_errorPositions.mp inside).2
    (weights_zero_of_powerSum errors_injOn (by omega) zero m (List.mem_toFinset.mpr inside))

/-- Reduced exactly, Forney's formula gives the error. -/
theorem correction_received {m : Nat} (inside : m ∈ errorPositions error) :
    correction (· % 255) (received data error) (m + 74) = (error m).toNat := by
  obtain ⟨positions, degree, -⟩ := @rootPositions_received data error few
  have full : (rootPositions (received data error)).card =
      (wordLocator (received data error)).natDegree := positions.symm ▸ degree.symm
  have member := List.mem_toFinset.mpr inside
  have value := correction_exact full (positions.symm ▸ member)
  have size := card_errors error
  rw [positions, syndromePoly_received, syndromePoly_error,
    forney_powerSum errors_injOn (fun m _ => location_ne_zero m) (by omega) member] at value
  exact gfValue_injective (correction_lt (fun x => Nat.mod_lt x (by decide)) _ _) (byte_lt _) value

theorem correction_eq_forneyValue (reduce : Nat → Nat) (m : Nat) :
    correction reduce (received data error) (m + 74) = forneyValue reduce error m := by
  have degree := (@rootPositions_received data error few).2.1
  rw [card_errors] at degree
  have small := wordLocator_natDegree_le (received data error)
  rw [degree] at small
  have form : IndexForm 11 ((errorLocator error).map indexOf) (wordLocator (received data error)) :=
    @wordLocator_received data error few ▸ (errorLocator_form error).indexForm
  have omega := formOmega_form form (syndromes_form error) small
  rw [correction, degree, syndromePoly_received, ← form.eq_indexList, ← omega.eq_indexList]
  rfl

theorem rsDecode_received {m : Nat} (inside : m ∈ errorPositions error) :
    rsDecode (received data error) =
      (correctedWord (received data error), ((errorPositions error).length : Int)) := by
  obtain ⟨-, degree, accepted⟩ := @rootPositions_received data error few
  rw [rsDecode_accepted (received_faulty few inside) accepted, degree, card_errors]

private theorem restored_iff {m : Nat} (below : m < 182) :
    correctedWord (received data error) m = encodedWord data m ↔
      (m ∈ errorPositions error → correction modnn (received data error) (m + 74) = (error m).toNat) := by
  have positions := (@rootPositions_received data error few).1
  have root : m + 74 ∈ errorRoots (wordLocator (received data error)) ↔ m ∈ errorPositions error := by
    rw [← List.mem_toFinset (l := errorPositions error), ← positions, mem_rootPositions,
      and_iff_right below]
  have char := toNat_char (correction_lt modnn_lt (received data error) (m + 74))
  by_cases inside : m ∈ errorPositions error
  · rw [correctedWord, if_pos (root.mpr inside), received, UInt8.xor_assoc, imp_iff_right inside]
    constructor
    · intro same
      have cancelled := congrArg (encodedWord data m ^^^ ·) same
      rw [← UInt8.xor_assoc, UInt8.xor_self, UInt8.zero_xor] at cancelled
      rw [← char, UInt8.xor_eq_zero_iff.mp cancelled]
    · intro same
      have byte : (correction modnn (received data error) (m + 74)).toUInt8 = error m :=
        UInt8.toNat_inj.mp (char.trans same)
      rw [byte, UInt8.xor_self, UInt8.xor_zero]
  · have zero : error m = 0 := by
      by_contra changed
      exact inside (mem_errorPositions.mpr ⟨below, changed⟩)
    refine iff_of_true ?_ fun member => absurd member inside
    rw [correctedWord, if_neg (root.not.mpr inside), received, zero, UInt8.xor_zero]

/-- For every block of data and every pattern of up to five errors, in the terms of the decoder. -/
theorem restores_iff_correction :
    Restores data error ↔ ∀ m ∈ errorPositions error,
      correction modnn (received data error) (m + 74) = (error m).toNat := by
  by_cases clean : ∀ m < 182, error m = 0
  · have none : ∀ m, m ∉ errorPositions error := fun m inside =>
      (mem_errorPositions.mp inside).2 (clean m (mem_errorPositions.mp inside).1)
    have untouched : ∀ m < 182, encodedWord data m = received data error m := fun m below => by
      rw [received, clean m below, UInt8.xor_zero]
    have decoded := rsDecode_codeword ((encodedWord_codeword data).congr untouched)
    refine iff_of_true ⟨fun m below => ?_, ?_⟩ fun m inside => absurd inside (none m)
    · rw [decoded]
      exact (untouched m below).symm
    · rw [decoded, List.eq_nil_iff_forall_not_mem.mpr none]
      rfl
  · obtain ⟨m, below, changed⟩ : ∃ m < 182, error m ≠ 0 := by
      simpa only [not_forall, exists_prop] using clean
    have decoded := @rsDecode_received data error few m (mem_errorPositions.mpr ⟨below, changed⟩)
    rw [Restores, decoded, and_iff_left rfl]
    constructor
    · intro restored m inside
      have below := (mem_errorPositions.mp inside).1
      exact (restored_iff few below).mp (restored m below) inside
    · exact fun added m below => (restored_iff few below).mpr (added m)

theorem forneyValue_exact {m : Nat} (inside : m ∈ errorPositions error) :
    forneyValue (· % 255) error m = (error m).toNat := by
  have data : Buffer := fun _ => 0
  rw [← @correction_eq_forneyValue data error few, correction_received few inside]

theorem restores_iff_forneyValue :
    Restores data error ↔
      ∀ m ∈ errorPositions error, forneyValue modnn error m = (error m).toNat := by
  rw [restores_iff_correction few]
  exact forall₂_congr fun m _ => by rw [correction_eq_forneyValue few]

end Few

/-- For every block of data and every pattern of up to five errors: the codeword is restored and
the errors are counted exactly when the exponents that `modnn` reduces give the value of the exact
reduction at every error. -/
theorem restores_iff (data error : Buffer) (few : (errorPositions error).length ≤ 5) :
    Restores data error ↔
      ∀ m ∈ errorPositions error, forneyValue modnn error m = forneyValue (· % 255) error m := by
  rw [restores_iff_forneyValue few]
  exact forall₂_congr fun m inside => by rw [forneyValue_exact few inside]

def lastByte : Buffer := fun m => if m = 181 then 1 else 0

/-- Three of them. -/
def lastBytes : Buffer := fun m => if 179 ≤ m ∧ m < 182 then 1 else 0

theorem restores_iff_lastByte : Restores (fun _ => 0) lastByte := by
  refine (restores_iff (fun _ => 0) lastByte (by decide +kernel)).mpr ?_
  decide +kernel

theorem restores_fails_lastBytes :
    (errorPositions lastBytes).length ≤ 5 ∧ ¬ Restores (fun _ => 0) lastBytes := by
  have few : (errorPositions lastBytes).length ≤ 5 := by decide +kernel
  refine ⟨few, fun restored => ?_⟩
  have added := (restores_iff_forneyValue few).mp restored 181 (by decide +kernel)
  exact absurd added (by decide +kernel)

end Friidump
