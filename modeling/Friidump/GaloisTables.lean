import Friidump.ReedSolomon
import Friidump.Theory.BinaryExtension

/-!
# The tables of the field

The table `alpha_to` holds the powers of a root of the primitive polynomial and
`index_of` their exponents. Sums of two exponents are reduced correctly by `modnn`.
-/

set_option autoImplicit false

namespace Friidump

open Theory

/-! ## The field -/

/-- Any field with a root of the primitive polynomial will do. -/
def GfField : Type := AlgebraicClosure (ZMod 2)

noncomputable instance : Field GfField := inferInstanceAs (Field (AlgebraicClosure (ZMod 2)))

instance : CharP GfField 2 := inferInstanceAs (CharP (AlgebraicClosure (ZMod 2)) 2)

theorem exists_gfAlpha : ∃ α : GfField, bitSum α 8 29 = α ^ 8 := exists_feedback_root 7 29

noncomputable def gfAlpha : GfField := exists_gfAlpha.choose

theorem gfAlpha_root : bitSum gfAlpha 8 29 = gfAlpha ^ 8 := exists_gfAlpha.choose_spec

/-- The element a character stands for. -/
noncomputable def gfValue (a : Nat) : GfField := bitSum gfAlpha 8 a

theorem fullPeriod : FullPeriod 7 29 where
  feeds := by decide
  period := by
    have divides : Function.minimalPeriod (shiftUpBy 7 29) 1 ∣ 255 :=
      Function.IsPeriodicPt.minimalPeriod_dvd (by decide +kernel : (shiftUpBy 7 29)^[255] 1 = 1)
    have longer : ∀ n, (shiftUpBy 7 29)^[n] 1 ≠ 1 → ¬ Function.minimalPeriod (shiftUpBy 7 29) 1 ∣ n :=
      fun n moved early => moved (Function.isPeriodicPt_iff_minimalPeriod_dvd.mpr early)
    have third := longer 85 (by decide +kernel)
    have fifth := longer 51 (by decide +kernel)
    have seventeenth := longer 15 (by decide +kernel)
    generalize Function.minimalPeriod (shiftUpBy 7 29) 1 = period at divides third fifth seventeenth
    have divisors : Nat.divisors 255 = {1, 3, 5, 15, 17, 51, 85, 255} := by decide +kernel
    have member := Nat.mem_divisors.mpr ⟨divides, by decide⟩
    simp only [divisors, Finset.mem_insert, Finset.mem_singleton] at member
    rcases member with rfl | rfl | rfl | rfl | rfl | rfl | rfl | rfl <;> omega

@[simp] theorem gfValue_zero : gfValue 0 = 0 := bitSum_zero _ _

@[simp] theorem gfValue_one : gfValue 1 = 1 := bitSum_one gfAlpha 7

@[simp] theorem gfValue_xor (a b : Nat) : gfValue (a ^^^ b) = gfValue a + gfValue b :=
  bitSum_xor gfAlpha 8 a b

theorem gfValue_injective {a b : Nat} (first : a < 256) (second : b < 256)
    (same : gfValue a = gfValue b) : a = b :=
  fullPeriod.bitSum_injective gfAlpha_root first second same

theorem gfValue_eq_zero {a : Nat} (inside : a < 256) : gfValue a = 0 ↔ a = 0 := by
  constructor
  · intro zero
    exact gfValue_injective inside (by decide) (zero.trans gfValue_zero.symm)
  · rintro rfl
    exact gfValue_zero

theorem gfAlpha_ne_zero : gfAlpha ≠ 0 := fullPeriod.root_ne_zero gfAlpha_root

theorem gfAlpha_period : gfAlpha ^ 255 = 1 := fullPeriod.pow_period gfAlpha_root

theorem gfAlpha_injective {i j : Nat} (first : i < 255) (second : j < 255)
    (same : gfAlpha ^ i = gfAlpha ^ j) : i = j :=
  fullPeriod.pow_injective gfAlpha_root first second same

theorem gfAlpha_pow_mod (x : Nat) : gfAlpha ^ (x % 255) = gfAlpha ^ x :=
  (pow_eq_pow_mod x gfAlpha_period).symm

/-! ## Powers and exponents -/

/-- The tables are filled below `i`. -/
structure GfTables.Filled (t : GfTables) (i : Nat) : Prop where
  powers : t.alphaTo.length = 256
  indices : t.indexOf.length = 256
  alphaTo : ∀ j < i, t.alphaTo.getD j 0 = power 7 29 j
  indexOf : ∀ j < i, t.indexOf.getD (power 7 29 j) 0 = j

theorem getD_set_self {l : List Nat} {i value : Nat} (inside : i < l.length) :
    (l.set i value).getD i 0 = value := by
  rw [List.getD_eq_getElem _ _ (by rwa [List.length_set]), List.getElem_set_self]

theorem getD_set_other {l : List Nat} {i j value : Nat} (other : i ≠ j) :
    (l.set i value).getD j 0 = l.getD j 0 := by
  rw [List.getD_eq_getElem?_getD, List.getElem?_set_ne other, ← List.getD_eq_getElem?_getD]

private theorem power_byte (k : Nat) : power 7 29 k < 256 := power_lt fullPeriod.feeds k

theorem GfTables.Filled.next {t : GfTables} {i : Nat} (filled : t.Filled i) (inside : i < 255) :
    GfTables.Filled
      { alphaTo := t.alphaTo.set i (power 7 29 i), indexOf := t.indexOf.set (power 7 29 i) i }
      (i + 1) where
  powers := List.length_set.trans filled.powers
  indices := List.length_set.trans filled.indices
  alphaTo j below := by
    obtain earlier | rfl := Nat.lt_or_eq_of_le (Nat.le_of_lt_succ below)
    · rw [getD_set_other (Nat.ne_of_gt earlier)]
      exact filled.alphaTo j earlier
    · exact getD_set_self (filled.powers ▸ Nat.lt_succ_of_lt inside)
  indexOf j below := by
    obtain earlier | rfl := Nat.lt_or_eq_of_le (Nat.le_of_lt_succ below)
    · have other : power 7 29 i ≠ power 7 29 j := fun same =>
        Nat.ne_of_gt earlier (fullPeriod.power_injective inside (earlier.trans inside) same)
      rw [getD_set_other other]
      exact filled.indexOf j earlier
    · exact getD_set_self (filled.indices ▸ power_byte j)

theorem highPowers_filled (left i : Nat) (t : GfTables) (start : 9 ≤ i) (bound : i + left ≤ 255)
    (filled : t.Filled i) : (highPowers 128 left i t).Filled (i + left) := by
  induction left generalizing i t with
  | zero => exact filled
  | succ left ih =>
      have eighth : t.alphaTo.getD 8 0 = 29 := filled.alphaTo 8 start
      have last := filled.alphaTo (i - 1) (Nat.sub_lt (Nat.zero_lt_of_lt start) Nat.one_pos)
      have place : i - 1 + 1 = i := Nat.sub_add_cancel (Nat.le_trans (by decide) start)
      have step : power 7 29 i = shiftUpBy 7 29 (power 7 29 (i - 1)) := by
        rw [← power_succ, place]
      have next := filled.next (Nat.lt_of_lt_of_le (Nat.lt_add_of_pos_right (Nat.succ_pos left)) bound)
      rw [highPowers, eighth, last]
      rw [step, shiftUpBy] at next
      have grown := ih (i + 1) _ (Nat.le_succ_of_le start) (by omega) next
      rwa [Nat.add_right_comm i 1 left] at grown

private theorem lowPowers_filled :
    let (t, mask) :=
      lowPowers 8 0 1 { alphaTo := List.replicate 256 0, indexOf := List.replicate 256 0 }
    GfTables.Filled { t with indexOf := t.indexOf.set (t.alphaTo.getD 8 0) 8 } 9 ∧ mask = 256 := by
  refine ⟨⟨?_, ?_, ?_, ?_⟩, ?_⟩ <;> decide +kernel

theorem generateGf_filled :
    ∃ t, GfTables.Filled t 255 ∧ generateGf = { t with indexOf := t.indexOf.set 0 255 } := by
  have low := lowPowers_filled
  rw [generateGf]
  generalize lowPowers 8 0 1 { alphaTo := List.replicate 256 0, indexOf := List.replicate 256 0 } =
    result at low
  obtain ⟨t, mask⟩ := result
  obtain ⟨filled, rfl⟩ := low
  exact ⟨_, highPowers_filled 246 9 _ (Nat.le_refl 9) (by decide) filled, rfl⟩

theorem alphaTo_eq {k : Nat} (inside : k < 255) : alphaTo k = power 7 29 k := by
  obtain ⟨t, filled, tables⟩ := generateGf_filled
  rw [alphaTo, tables]
  exact filled.alphaTo k inside

theorem indexOf_power {k : Nat} (inside : k < 255) : indexOf (power 7 29 k) = k := by
  obtain ⟨t, filled, tables⟩ := generateGf_filled
  have other : 0 ≠ power 7 29 k := (fullPeriod.power_ne_zero gfAlpha_root k).symm
  rw [indexOf, tables]
  exact (getD_set_other other).trans (filled.indexOf k inside)

theorem indexOf_zero : indexOf 0 = 255 := by
  obtain ⟨t, filled, tables⟩ := generateGf_filled
  rw [indexOf, tables]
  exact getD_set_self (filled.indices ▸ by decide)

theorem gfValue_alphaTo {k : Nat} (inside : k < 255) : gfValue (alphaTo k) = gfAlpha ^ k := by
  rw [alphaTo_eq inside]
  exact bitSum_power fullPeriod.feeds gfAlpha_root k

theorem alphaTo_lt {k : Nat} (inside : k < 255) : alphaTo k < 256 := by
  rw [alphaTo_eq inside]
  exact power_byte k

/-- `k` is the index form of `c`; 255 stands for zero. -/
def IsIndex (k : Nat) (c : GfField) : Prop := (k = 255 ∧ c = 0) ∨ (k < 255 ∧ c = gfAlpha ^ k)

theorem isIndex_indexOf {a : Nat} (inside : a < 256) : IsIndex (indexOf a) (gfValue a) := by
  obtain rfl | positive := Nat.eq_zero_or_pos a
  · exact .inl ⟨indexOf_zero, gfValue_zero⟩
  · obtain ⟨k, below, rfl⟩ := fullPeriod.exists_power gfAlpha_root positive inside
    rw [indexOf_power below]
    exact .inr ⟨below, bitSum_power fullPeriod.feeds gfAlpha_root k⟩

namespace IsIndex

variable {k k' : Nat} {c c' : GfField}

theorem zero_iff (index : IsIndex k c) : k = 255 ↔ c = 0 := by
  obtain ⟨rfl, rfl⟩ | ⟨below, rfl⟩ := index
  · exact iff_of_true rfl rfl
  · exact iff_of_false (Nat.ne_of_lt below) (pow_ne_zero k gfAlpha_ne_zero)

theorem pow (index : IsIndex k c) (nonzero : k ≠ 255) : k < 255 ∧ c = gfAlpha ^ k :=
  index.resolve_left fun zero => nonzero zero.1

theorem le (index : IsIndex k c) : k ≤ 255 := by
  obtain ⟨rfl, -⟩ | ⟨below, -⟩ := index
  · exact Nat.le_refl 255
  · exact Nat.le_of_lt below

theorem unique (index : IsIndex k c) (index' : IsIndex k' c) : k = k' := by
  by_cases zero : c = 0
  · rw [index.zero_iff.mpr zero, index'.zero_iff.mpr zero]
  · obtain ⟨below, value⟩ := index.pow (fun top => zero (index.zero_iff.mp top))
    obtain ⟨below', value'⟩ := index'.pow (fun top => zero (index'.zero_iff.mp top))
    exact gfAlpha_injective below below' (value.symm.trans value')

end IsIndex

/-! ## Reduction of exponents -/

theorem modnn_eq (x : Nat) :
    modnn x = if x < 255 then x else if (x - 255) % 256 = 255 then 0 else (x - 255) % 256 := by
  have masked : ∀ y : Nat, y &&& 0xff = y % 256 := fun y => Nat.and_two_pow_sub_one_eq_mod y 8
  have small : ∀ rounds y, y < 255 → modnnLoop rounds y = y := by
    intro rounds y below
    cases rounds with
    | zero => rfl
    | succ rounds => rw [modnnLoop, if_neg (Nat.not_le.mpr below)]
  rw [modnn]
  split
  · rename_i below
    exact small x x below
  · rename_i large
    obtain ⟨rounds, rfl⟩ : ∃ rounds, x = rounds + 2 := ⟨x - 2, by omega⟩
    rw [modnnLoop, if_pos (Nat.not_lt.mp large), masked]
    have byte := Nat.mod_lt (rounds + 2 - 255) (by decide : 0 < 256)
    split
    · rename_i top
      rw [top, modnnLoop, if_pos (Nat.le_refl 255), masked]
      exact small rounds 0 (by decide)
    · exact small _ _ (by omega)

theorem modnn_lt (x : Nat) : modnn x < 255 := by
  rw [modnn_eq]
  split
  · assumption
  · have byte := Nat.mod_lt (x - 255) (by decide : 0 < 256)
    split <;> omega

theorem modnnLoop_eq_modnn {rounds x : Nat} (enough : x ≤ rounds) : modnnLoop rounds x = modnn x := by
  rw [modnn]
  induction x using Nat.strong_induction_on generalizing rounds with
  | _ x ih =>
      cases rounds with
      | zero => rw [Nat.le_zero.mp enough]
      | succ rounds =>
          cases x with
          | zero => simp [modnnLoop]
          | succ x =>
              rw [modnnLoop, modnnLoop]
              split
              · rename_i large
                have less : (x + 1 - 255) &&& 0xff ≤ x := Nat.le_trans Nat.and_le_left (by omega)
                have first := ih _ (Nat.lt_succ_of_le less)
                  (Nat.le_trans less (Nat.le_of_succ_le_succ enough))
                have second := ih _ (Nat.lt_succ_of_le less) less
                exact first.trans second.symm
              · rfl

theorem modnn_eq_mod_iff (x : Nat) : modnn x = x % 255 ↔ (x - 255) / 256 % 255 = 0 := by
  rw [modnn_eq]
  split
  · omega
  · split <;> omega

theorem modnn_sum {x : Nat} (small : x ≤ 510) : modnn x = x % 255 :=
  (modnn_eq_mod_iff x).mpr (by omega)

/-- The loop ends, and with the residue of `x`. -/
def ReducesExactly (x : Nat) : Prop := ∀ rounds, x ≤ rounds → modnnLoop rounds x = x % 255

/-- The second fold keeps the low byte and drops what is above it. So the residue is kept
exactly where a multiple of 255 is dropped. -/
theorem reducesExactly_iff (x : Nat) : ReducesExactly x ↔ (x - 255) / 256 % 255 = 0 := by
  rw [← modnn_eq_mod_iff]
  constructor
  · intro reduces
    exact reduces x (Nat.le_refl x)
  · intro same rounds enough
    rw [modnnLoop_eq_modnn enough, same]

/-- The sum of three exponents in an error value can be 511. -/
theorem reducesExactly_fails_511 :
    indexOf (alphaTo 254) + indexOf (alphaTo 2) + 255 - indexOf 1 = 511 ∧
      modnn 511 = 0 ∧ 511 % 255 = 1 ∧ ¬ ∀ x, ReducesExactly x := by
  refine ⟨by decide +kernel, by decide, by decide, fun every => ?_⟩
  exact absurd (every 511 511 (Nat.le_refl 511)) (by decide)

theorem gfValue_alphaTo_modnn {x : Nat} (small : x ≤ 510) :
    gfValue (alphaTo (modnn x)) = gfAlpha ^ x := by
  rw [gfValue_alphaTo (modnn_lt x), modnn_sum small, gfAlpha_pow_mod]

theorem gfValue_product {k k' : Nat} {c c' : GfField} (index : IsIndex k c) (index' : IsIndex k' c')
    (acc : Nat) :
    gfValue (if k ≠ 255 ∧ k' ≠ 255 then acc ^^^ alphaTo (modnn (k + k')) else acc) =
      gfValue acc + c * c' := by
  split
  · rename_i nonzero
    obtain ⟨below, rfl⟩ := index.pow nonzero.1
    obtain ⟨below', rfl⟩ := index'.pow nonzero.2
    rw [gfValue_xor, gfValue_alphaTo_modnn (by omega), pow_add]
  · rename_i zero
    have product : c * c' = 0 := by
      obtain top | top := not_and_or.mp zero
      · exact mul_eq_zero_of_left (index.zero_iff.mp (not_not.mp top)) _
      · exact mul_eq_zero_of_right _ (index'.zero_iff.mp (not_not.mp top))
    rw [product, add_zero]

theorem byte_xor {a b : Nat} (first : a < 256) (second : b < 256) : a ^^^ b < 256 :=
  @Nat.xor_lt_two_pow a b 8 first second

theorem product_lt {condition : Prop} [Decidable condition] {acc x : Nat} (byte : acc < 256) :
    (if condition then acc ^^^ alphaTo (modnn x) else acc) < 256 := by
  split
  · exact byte_xor byte (alphaTo_lt (modnn_lt x))
  · exact byte

end Friidump
