import Friidump.ReedSolomonCorrection

/-!
# Soundness of the decoder

A word passed as corrected is a codeword at the distance returned exactly when
its locator has full degree and no root in the padding, and the reduction of
exponents leaves the values right.
-/

set_option autoImplicit false

namespace Friidump

open Theory Polynomial

variable {w w' : Buffer}

/-! ## Positions of roots -/

noncomputable def rootPositions (w : Buffer) : Finset Nat :=
  (Finset.range 182).filter fun m => m + 74 ∈ errorRoots (wordLocator w)

theorem mem_rootPositions {m : Nat} :
    m ∈ rootPositions w ↔ m < 182 ∧ m + 74 ∈ errorRoots (wordLocator w) := by
  rw [rootPositions, Finset.mem_filter, Finset.mem_range]

theorem location_inverse {m : Nat} (inside : m < 182) : (location m)⁻¹ = gfAlpha ^ (m + 74) := by
  refine inv_eq_of_mul_eq_one_right ?_
  have total : 181 - m + (m + 74) = 255 := by omega
  rw [location, ← pow_add, total, gfAlpha_period]

theorem rootPositions_injOn : Set.InjOn location (rootPositions w) :=
  location_injOn.mono fun _ inside =>
    Finset.mem_coe.mpr (Finset.mem_range.mpr (mem_rootPositions.mp (Finset.mem_coe.mp inside)).1)

private theorem map_rootPositions (w : Buffer) :
    (rootPositions w).map (addRightEmbedding 74) =
      (errorRoots (wordLocator w)).toFinset.filter fun i => 74 ≤ i := by
  ext i
  rw [Finset.mem_map, Finset.mem_filter, List.mem_toFinset]
  constructor
  · rintro ⟨m, inside, rfl⟩
    exact ⟨(mem_rootPositions.mp inside).2, Nat.le_add_left 74 m⟩
  · rintro ⟨root, late⟩
    have last := (mem_errorRoots.mp root).2.1
    have place : i - 74 + 74 = i := Nat.sub_add_cancel late
    exact ⟨i - 74, mem_rootPositions.mpr ⟨by omega, place.symm ▸ root⟩, place⟩

theorem card_rootPositions_le (w : Buffer) :
    (rootPositions w).card ≤ (errorRoots (wordLocator w)).length := by
  rw [← Finset.card_map (addRightEmbedding 74), map_rootPositions,
    ← List.toFinset_card_of_nodup (nodup_errorRoots _)]
  exact Finset.card_filter_le _ _

theorem card_rootPositions_eq_iff (w : Buffer) :
    (rootPositions w).card = (errorRoots (wordLocator w)).length ↔
      ∀ i ∈ errorRoots (wordLocator w), 74 ≤ i := by
  rw [← Finset.card_map (addRightEmbedding 74), map_rootPositions,
    ← List.toFinset_card_of_nodup (nodup_errorRoots _), Finset.card_filter_eq_iff]
  simp only [List.mem_toFinset]

/-- Enough roots in the word determine the locator. -/
theorem wordLocator_eq (full : (rootPositions w).card = (wordLocator w).natDegree) :
    wordLocator w = locatorOf (rootPositions w) location := by
  refine eq_locatorOf rootPositions_injOn (fun m _ => location_ne_zero m)
    (wordLocator_invariant w).1.one full.ge fun m inside => ?_
  obtain ⟨below, root⟩ := mem_rootPositions.mp inside
  rw [location_inverse below]
  exact (mem_errorRoots.mp root).2.2

theorem correction_exact (full : (rootPositions w).card = (wordLocator w).natDegree) {m : Nat}
    (inside : m ∈ rootPositions w) :
    gfValue (correction (· % 255) w (m + 74)) =
      forney (locatorOf (rootPositions w) location) (terms (rootPositions w).card
        (locatorOf (rootPositions w) location * syndromePoly w).coeff) (location m) := by
  obtain ⟨below, -⟩ := mem_rootPositions.mp inside
  obtain ⟨-, form, -, form'⟩ := decoder_forms w
  have simple : (derivative (wordLocator w)).eval (gfAlpha ^ (m + 74)) ≠ 0 := by
    rw [wordLocator_eq full, ← location_inverse below, derivative_locatorOf inside (location_ne_zero m)]
    exact neg_ne_zero.mpr (mul_ne_zero (location_ne_zero m)
      (locatorOf_eval_ne_zero rootPositions_injOn inside (location_ne_zero m)))
  have exponent : 255 - (m + 74) = 181 - m := by omega
  have exact := errorValue_exact form (wordLocator_natDegree_le w) form' (by omega) simple
  rw [exponent, ← full, wordLocator_eq full] at exact
  rw [correction, ← full, wordLocator_eq full]
  exact exact

theorem correction_lt {reduce : Nat → Nat} (reduces : ∀ x, reduce x < 255) (w : Buffer) (root : Nat) :
    correction reduce w root < 256 := errorValue_lt reduces _ _ _ _

/-! ## The corrected word -/

/-- The word after the values of the locator's roots have been added. -/
noncomputable def correctedWord (w : Buffer) : Buffer := fun m =>
  if m + 74 ∈ errorRoots (wordLocator w) then w m ^^^ (correction modnn w (m + 74)).toUInt8 else w m

noncomputable def addedValue (w : Buffer) (m : Nat) : GfField := gfValue (correction modnn w (m + 74))

theorem toNat_char {value : Nat} (small : value < 256) : value.toUInt8.toNat = value :=
  Nat.mod_eq_of_lt small

theorem xor_char_eq_iff {value : Nat} (small : value < 256) (byte : UInt8) :
    byte ^^^ value.toUInt8 = byte ↔ value = 0 := by
  constructor
  · intro same
    have added : byte ^^^ (byte ^^^ value.toUInt8) = byte ^^^ byte := congrArg (byte ^^^ ·) same
    rw [← UInt8.xor_assoc, UInt8.xor_self, UInt8.zero_xor] at added
    rw [← toNat_char small, added]
    rfl
  · rintro rfl
    exact UInt8.xor_zero

theorem correctedWord_changed {m : Nat} (inside : m ∈ rootPositions w) :
    correctedWord w m ≠ w m ↔ addedValue w m ≠ 0 := by
  have small := correction_lt modnn_lt w (m + 74)
  rw [correctedWord, if_pos (mem_rootPositions.mp inside).2, addedValue, Ne, Ne,
    gfValue_eq_zero small, xor_char_eq_iff small]

theorem powerSum_correctedWord (w : Buffer) (i : Nat) :
    powerSum (Finset.range 182) location (byteValue (correctedWord w)) i =
      powerSum (Finset.range 182) location (byteValue w) i +
        powerSum (rootPositions w) location (addedValue w) i := by
  have bytes : ∀ m, byteValue (correctedWord w) m * location m ^ i =
      byteValue w m * location m ^ i +
        if m + 74 ∈ errorRoots (wordLocator w) then addedValue w m * location m ^ i else 0 := by
    intro m
    rw [byteValue, correctedWord]
    split
    · rw [UInt8.toNat_xor, gfValue_xor, toNat_char (correction_lt modnn_lt w _), add_mul]
      rfl
    · rw [add_zero]
      rfl
  rw [powerSum, Finset.sum_congr rfl fun m _ => bytes m, Finset.sum_add_distrib, ← Finset.sum_filter]
  rfl

theorem codeword_correctedWord_iff (w : Buffer) :
    Codeword (correctedWord w) ↔
      syndromePoly w = terms 10 (powerSum (rootPositions w) location (addedValue w)) := by
  rw [codeword_iff]
  constructor
  · intro codeword
    refine Polynomial.ext fun i => ?_
    rw [syndromePoly, coeff_terms, coeff_terms]
    split
    · rename_i row
      have zero := codeword i row
      rw [powerSum_correctedWord] at zero
      exact CharTwo.add_eq_zero.mp zero
    · rfl
  · intro same i row
    have term := congrArg (fun p => coeff p i) same
    rw [syndromePoly, coeff_terms_below _ row, coeff_terms_below _ row] at term
    rw [powerSum_correctedWord, term, CharTwo.add_self_eq_zero]

/-! ## Soundness -/

def changes (w w' : Buffer) : Nat := ((Finset.range 182).filter fun m => w' m ≠ w m).card

/-- A word that is not refused has become a codeword by the number of changes returned. -/
def DecodesSoundly (w : Buffer) : Prop :=
  0 ≤ (rsDecode w).2 → Codeword (rsDecode w).1 ∧ (changes w (rsDecode w).1 : Int) = (rsDecode w).2

def Accepted (w : Buffer) : Prop := (errorRoots (wordLocator w)).length = (wordLocator w).natDegree

theorem wordLocator_of_codeword (codeword : Codeword w) :
    (wordLocator w).natDegree = 0 ∧ wordLength w = 0 := by
  have zero : syndromePoly w = 0 := by
    refine Polynomial.ext fun i => ?_
    rw [syndromePoly, coeff_terms, coeff_zero]
    split
    · rename_i row
      exact (codeword_iff w).mp codeword i row
    · rfl
  have trivial : Generates (syndromePoly w) 10 1 0 :=
    ⟨coeff_one_zero, natDegree_one.le, fun k _ _ => by rw [zero, mul_zero, coeff_zero]⟩
  obtain ⟨generates, shortest⟩ := wordLocator_invariant w
  have length := Nat.le_zero.mp (shortest 1 0 trivial)
  exact ⟨Nat.le_zero.mp (length ▸ generates.degree), length⟩

theorem errorRoots_of_codeword (codeword : Codeword w) : errorRoots (wordLocator w) = [] := by
  have none := length_errorRoots_le (wordLocator_ne_zero w)
  rw [(wordLocator_of_codeword codeword).1] at none
  exact List.eq_nil_of_length_eq_zero (Nat.le_zero.mp none)

theorem rsDecode_accepted (faulty : ¬ Codeword w) (accepted : Accepted w) :
    rsDecode w = (correctedWord w, ((wordLocator w).natDegree : Int)) := by
  rw [rsDecode_eq w faulty, if_neg (not_not.mpr accepted.symm)]
  rfl

theorem rsDecode_refused (faulty : ¬ Codeword w) (refused : ¬ Accepted w) : rsDecode w = (w, -1) := by
  rw [rsDecode_eq w faulty, if_pos (Ne.symm refused)]

private theorem changes_le (w : Buffer) : changes w (correctedWord w) ≤ (rootPositions w).card := by
  refine Finset.card_le_card fun m inside => ?_
  obtain ⟨below, changed⟩ := Finset.mem_filter.mp inside
  refine mem_rootPositions.mpr ⟨Finset.mem_range.mp below, ?_⟩
  by_contra elsewhere
  exact changed (if_neg elsewhere)

private theorem changes_eq_iff (w : Buffer) :
    changes w (correctedWord w) = (rootPositions w).card ↔ ∀ m ∈ rootPositions w, addedValue w m ≠ 0 := by
  have changed : (Finset.range 182).filter (fun m => correctedWord w m ≠ w m) =
      (rootPositions w).filter fun m => correctedWord w m ≠ w m := by
    ext m
    simp only [Finset.mem_filter, Finset.mem_range, mem_rootPositions, and_assoc]
    refine and_congr_right fun _ => ⟨fun differs => ⟨?_, differs⟩, And.right⟩
    by_contra elsewhere
    exact differs (if_neg elsewhere)
  rw [changes, changed, Finset.card_filter_eq_iff]
  exact forall₂_congr fun m inside => correctedWord_changed inside

section Values

variable (full : (rootPositions w).card = (wordLocator w).natDegree)

include full

/-- The values that make a codeword are those of the exact reduction. -/
theorem correction_of_codeword (codeword : Codeword (correctedWord w)) {m : Nat}
    (inside : m ∈ rootPositions w) :
    correction modnn w (m + 74) = correction (· % 255) w (m + 74) := by
  have enough : (rootPositions w).card ≤ 10 := full ▸ wordLocator_natDegree_le w
  have sums := (codeword_correctedWord_iff w).mp codeword
  have value := forney_powerSum (e := addedValue w) rootPositions_injOn
    (fun m _ => location_ne_zero m) enough inside
  rw [← sums, ← correction_exact full inside] at value
  exact gfValue_injective (correction_lt modnn_lt w _)
    (correction_lt (fun x => Nat.mod_lt x (by decide)) w _) value.symm

/-- A recurrence of full length and exact values make a codeword. -/
theorem codeword_of_correction (length : (wordLocator w).natDegree = wordLength w)
    (exact : ∀ m ∈ rootPositions w,
      correction modnn w (m + 74) = correction (· % 255) w (m + 74)) :
    Codeword (correctedWord w) := by
  have generates := (wordLocator_invariant w).1
  rw [← length, ← full, wordLocator_eq full] at generates
  have sums := powerSum_of_generates rootPositions_injOn (fun m _ => location_ne_zero m) generates
  refine (codeword_correctedWord_iff w).mpr (Polynomial.ext fun i => ?_)
  rw [coeff_terms]
  split
  · rename_i row
    rw [sums i row]
    refine Finset.sum_congr rfl fun m inside => ?_
    rw [addedValue, exact m inside, correction_exact full inside]
  · rename_i beyond
    rw [syndromePoly, coeff_terms, if_neg beyond]

/-- In a shortest recurrence every root has a weight. -/
theorem addedValue_ne_zero (length : (wordLocator w).natDegree = wordLength w)
    (codeword : Codeword (correctedWord w)) : ∀ m ∈ rootPositions w, addedValue w m ≠ 0 := by
  classical
  intro m inside zero
  have sums := (codeword_correctedWord_iff w).mp codeword
  have fewer : syndromePoly w = terms 10
      (powerSum ((rootPositions w).filter fun m => addedValue w m ≠ 0) location (addedValue w)) := by
    rw [sums]
    congr 1
    exact funext fun i => (powerSum_filter i).symm
  have generates := generates_powerSum ((rootPositions w).filter fun m => addedValue w m ≠ 0) location
    (addedValue w) 10
  rw [← fewer] at generates
  have shortest := (wordLocator_invariant w).2 _ _ generates
  have less : ((rootPositions w).filter fun m => addedValue w m ≠ 0).card < (rootPositions w).card :=
    Finset.card_lt_card (Finset.filter_ssubset.mpr ⟨m, inside, not_not.mpr zero⟩)
  omega

end Values

private theorem exact_positions (w : Buffer) (outside : ∀ i ∈ errorRoots (wordLocator w), 74 ≤ i) :
    (∀ m ∈ rootPositions w, correction modnn w (m + 74) = correction (· % 255) w (m + 74)) ↔
      ∀ i ∈ errorRoots (wordLocator w), correction modnn w i = correction (· % 255) w i := by
  constructor
  · intro exact i root
    have late := outside i root
    have last := (mem_errorRoots.mp root).2.1
    have place : i - 74 + 74 = i := Nat.sub_add_cancel late
    have here := exact (i - 74) (mem_rootPositions.mpr ⟨by omega, place.symm ▸ root⟩)
    rwa [place] at here
  · exact fun exact m inside => exact (m + 74) (mem_rootPositions.mp inside).2

private theorem decodesSoundly_of_codeword {w : Buffer} (codeword : Codeword w) : DecodesSoundly w := by
  intro _
  rw [rsDecode_codeword codeword]
  refine ⟨codeword, ?_⟩
  rw [changes, Finset.filter_false_of_mem fun m _ => not_not.mpr rfl]
  rfl

/-- What a sound correction says of the locator. -/
private theorem exact_of_sound {w : Buffer} (accepted : Accepted w)
    (codeword : Codeword (correctedWord w))
    (count : changes w (correctedWord w) = (wordLocator w).natDegree) :
    (wordLocator w).natDegree = wordLength w ∧ (∀ i ∈ errorRoots (wordLocator w), 74 ≤ i) ∧
      ∀ i ∈ errorRoots (wordLocator w), correction modnn w i = correction (· % 255) w i := by
  have upper := changes_le w
  have lower := card_rootPositions_le w
  have total := accepted
  rw [Accepted] at total
  have full : (rootPositions w).card = (wordLocator w).natDegree := by omega
  have outside := (card_rootPositions_eq_iff w).mp (full.trans total.symm)
  have generates := generates_powerSum (rootPositions w) location (addedValue w) 10
  rw [← (codeword_correctedWord_iff w).mp codeword] at generates
  have shortest := (wordLocator_invariant w).2 _ _ generates
  have degree := (wordLocator_invariant w).1.degree
  refine ⟨by omega, outside, (exact_positions w outside).mp fun m inside => ?_⟩
  exact correction_of_codeword full codeword inside

/-- For every received word: a word is passed as corrected rightly exactly when the roots of
its locator are errors of the word, as many as the recurrence is long, with exact values. -/
theorem decodesSoundly_iff (w : Buffer) :
    DecodesSoundly w ↔ ¬ Accepted w ∨
      ((wordLocator w).natDegree = wordLength w ∧ (∀ i ∈ errorRoots (wordLocator w), 74 ≤ i) ∧
        ∀ i ∈ errorRoots (wordLocator w), correction modnn w i = correction (· % 255) w i) := by
  by_cases codeword : Codeword w
  · obtain ⟨degree, length⟩ := wordLocator_of_codeword codeword
    refine iff_of_true (decodesSoundly_of_codeword codeword) (.inr ⟨degree.trans length.symm, ?_, ?_⟩)
    · rw [errorRoots_of_codeword codeword]
      exact nofun
    · rw [errorRoots_of_codeword codeword]
      exact nofun
  · by_cases accepted : Accepted w
    · rw [DecodesSoundly, rsDecode_accepted codeword accepted, or_iff_right (not_not.mpr accepted)]
      constructor
      · intro sound
        obtain ⟨codeword', count⟩ := sound (Int.natCast_nonneg _)
        exact exact_of_sound accepted codeword' (Int.ofNat_inj.mp count)
      · rintro ⟨length, outside, exact⟩ -
        have full : (rootPositions w).card = (wordLocator w).natDegree :=
          ((card_rootPositions_eq_iff w).mpr outside).trans accepted
        have codeword' := codeword_of_correction full length ((exact_positions w outside).mpr exact)
        have count := (changes_eq_iff w).mpr (addedValue_ne_zero full length codeword')
        exact ⟨codeword', congrArg Nat.cast (count.trans full)⟩
    · refine iff_of_true (fun positive => ?_) (.inl accepted)
      rw [rsDecode_refused codeword accepted] at positive
      have negative : ¬ (0 : Int) ≤ -1 := by decide
      exact absurd positive negative

/-- Ten bytes behind zeros whose syndromes are all zero but the first. -/
def spoiledWord : Buffer := fun m =>
  if 172 ≤ m then [248, 121, 189, 2, 217, 34, 76, 218, 131, 209].getD (m - 172) 0 else 0

private theorem spoiledWord_syndromes : formSyndromes spoiledWord = [1, 0, 0, 0, 0, 0, 0, 0, 0, 0] := by
  have zeros : ∀ m < 172, spoiledWord m = 0 := fun m below => if_neg (Nat.not_le.mpr below)
  have rows : formSyndromes spoiledWord = (List.range 10).map fun i => (List.range 10).foldl
      (fun s j => (shiftUpBy 7 29)^[i] s ^^^ (spoiledWord (172 + j)).toNat) 0 := by
    refine List.map_congr_left fun i member => ?_
    have row := List.mem_range.mp member
    exact syndrome_of_parity (by omega) zeros
  rw [rows]
  decide +kernel

/-- It is returned as it came, as a word without errors. -/
theorem decodesSoundly_fails_spoiledWord :
    (rsDecode spoiledWord).2 = 0 ∧ ¬ Codeword spoiledWord ∧ ¬ DecodesSoundly spoiledWord := by
  have count : (rsDecode spoiledWord).2 = 0 := by
    rw [rsDecode, spoiledWord_syndromes]
    decide +kernel
  have first : syndrome spoiledWord 0 = 1 := by
    have entry := congrArg (fun l => l.getD 0 0) spoiledWord_syndromes
    rwa [getD_formSyndromes _ (by decide)] at entry
  have faulty : ¬ Codeword spoiledWord := fun codeword =>
    absurd (first.symm.trans (codeword 0 (by decide))) (by decide)
  refine ⟨count, faulty, fun sound => ?_⟩
  obtain ⟨codeword, unchanged⟩ := sound count.ge
  have same : ∀ m < 182, (rsDecode spoiledWord).1 m = spoiledWord m := by
    rw [count] at unchanged
    intro m below
    by_contra changed
    have none := Finset.card_eq_zero.mp (Int.natCast_eq_zero.mp unchanged)
    exact Finset.notMem_empty m (none ▸ Finset.mem_filter.mpr ⟨Finset.mem_range.mpr below, changed⟩)
  exact faulty (codeword.congr same)

end Friidump
