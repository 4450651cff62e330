import Friidump.GaloisTables
import Friidump.Theory.ErrorLocator
import Mathlib.Data.Fintype.BigOperators

/-!
# Codewords

The syndromes of a word are power sums over its bytes. They vanish exactly when
the last ten bytes are the parity that the encoder computes for the others.
-/

set_option autoImplicit false

namespace Friidump

open Theory

/-! ## Syndromes as power sums -/

noncomputable def location (m : Nat) : GfField := gfAlpha ^ (181 - m)

noncomputable def byteValue (w : Buffer) (m : Nat) : GfField := gfValue (w m).toNat

theorem location_ne_zero (m : Nat) : location m ≠ 0 := pow_ne_zero _ gfAlpha_ne_zero

theorem location_injOn : Set.InjOn location (Finset.range 182) := by
  intro m inside m' inside' same
  have below := Finset.mem_range.mp inside
  have below' := Finset.mem_range.mp inside'
  have exponents := gfAlpha_injective (by omega) (by omega) same
  omega

theorem byte_lt (byte : UInt8) : byte.toNat < 256 := byte.toNat_lt

theorem syndromeStep_value {i s : Nat} (row : i ≤ 255) (inside : s < 256) (byte : UInt8) :
    gfValue (syndromeStep i s byte) = gfAlpha ^ i * gfValue s + gfValue byte.toNat := by
  rw [syndromeStep]
  split
  · rename_i zero
    rw [zero, gfValue_zero, mul_zero, zero_add]
  · rename_i nonzero
    have index := isIndex_indexOf inside
    obtain ⟨below, value⟩ := index.pow fun top =>
      nonzero ((gfValue_eq_zero inside).mp (index.zero_iff.mp top))
    rw [gfValue_xor, gfValue_alphaTo_modnn (by omega), value, pow_add, add_comm,
      mul_comm (gfAlpha ^ indexOf s)]

theorem syndromeStep_lt (i s : Nat) (byte : UInt8) : syndromeStep i s byte < 256 := by
  rw [syndromeStep]
  split
  · exact byte_lt byte
  · exact byte_xor (byte_lt byte) (alphaTo_lt (modnn_lt _))

private theorem horner {i : Nat} (row : i ≤ 255) (w : Buffer) (n : Nat) :
    (List.range n).foldl (fun s j => syndromeStep i s (w (j + 1))) (w 0).toNat < 256 ∧
      gfValue ((List.range n).foldl (fun s j => syndromeStep i s (w (j + 1))) (w 0).toNat) =
        ∑ m ∈ Finset.range (n + 1), byteValue w m * (gfAlpha ^ i) ^ (n - m) := by
  induction n with
  | zero =>
      refine ⟨byte_lt (w 0), ?_⟩
      rw [Finset.sum_range_one, Nat.sub_self, pow_zero, mul_one]
      rfl
  | succ n ih =>
      obtain ⟨inside, value⟩ := ih
      rw [List.range_succ, List.foldl_append, List.foldl_cons, List.foldl_nil]
      refine ⟨syndromeStep_lt _ _ _, ?_⟩
      rw [syndromeStep_value row inside, value, Finset.sum_range_succ _ (n + 1), Nat.sub_self,
        pow_zero, mul_one, Finset.mul_sum, byteValue]
      congr 1
      refine Finset.sum_congr rfl fun m inside => ?_
      have before : m ≤ n := Nat.le_of_lt_succ (Finset.mem_range.mp inside)
      rw [Nat.succ_sub before, pow_succ]
      ring

theorem syndrome_lt {i : Nat} (row : i ≤ 255) (w : Buffer) : syndrome w i < 256 :=
  (horner row w 181).1

theorem syndrome_value {i : Nat} (row : i ≤ 255) (w : Buffer) :
    gfValue (syndrome w i) = powerSum (Finset.range 182) location (byteValue w) i := by
  rw [syndrome, (horner row w 181).2, powerSum]
  refine Finset.sum_congr rfl fun m _ => ?_
  rw [location, ← pow_mul, ← pow_mul, Nat.mul_comm]

private theorem shifts_byte {s : Nat} (inside : s < 256) (i : Nat) :
    (shiftUpBy 7 29)^[i] s < 256 ∧ gfValue ((shiftUpBy 7 29)^[i] s) = gfAlpha ^ i * gfValue s := by
  induction i with
  | zero => exact ⟨inside, by rw [Function.iterate_zero_apply, pow_zero, one_mul]⟩
  | succ i ih =>
      obtain ⟨byte, value⟩ := ih
      rw [Function.iterate_succ_apply']
      refine ⟨shiftUpBy_lt fullPeriod.feeds byte, ?_⟩
      have shifted := bitSum_shiftUpBy gfAlpha_root byte
      rw [gfValue] at value ⊢
      rw [shifted, value, pow_succ', mul_assoc]

/-- The step multiplies by shifting. -/
theorem syndromeStep_eq_shift {i s : Nat} (row : i ≤ 255) (inside : s < 256) (byte : UInt8) :
    syndromeStep i s byte = (shiftUpBy 7 29)^[i] s ^^^ byte.toNat := by
  obtain ⟨shifted, value⟩ := shifts_byte inside i
  refine gfValue_injective (syndromeStep_lt _ _ _) (byte_xor shifted (byte_lt byte)) ?_
  rw [syndromeStep_value row inside, gfValue_xor, value]

/-- Behind zeros only the parity counts. -/
theorem syndrome_of_parity {i : Nat} (row : i ≤ 255) {w : Buffer} (zeros : ∀ m < 172, w m = 0) :
    syndrome w i =
      (List.range 10).foldl (fun s j => (shiftUpBy 7 29)^[i] s ^^^ (w (172 + j)).toNat) 0 := by
  have front : ∀ n ≤ 171,
      (List.range n).foldl (fun s j => syndromeStep i s (w (j + 1))) (w 0).toNat = 0 := by
    intro n early
    induction n with
    | zero => exact congrArg UInt8.toNat (zeros 0 (by decide))
    | succ n ih =>
        rw [List.range_succ, List.foldl_append, List.foldl_cons, List.foldl_nil,
          ih (Nat.le_of_succ_le early), syndromeStep, if_pos rfl, zeros (n + 1) (by omega)]
        rfl
  have back : ∀ (positions : List Nat) (s : Nat), s < 256 →
      positions.foldl (fun s j => syndromeStep i s (w (171 + j + 1))) s =
        positions.foldl (fun s j => (shiftUpBy 7 29)^[i] s ^^^ (w (172 + j)).toNat) s := by
    intro positions
    induction positions with
    | nil => exact fun _ _ => rfl
    | cons j rest ih =>
        intro s inside
        have step := syndromeStep_eq_shift row inside (w (171 + j + 1))
        rw [List.foldl_cons, List.foldl_cons, ih _ (syndromeStep_lt _ _ _), step,
          Nat.add_right_comm 171 j 1]
  have split : List.range 181 = List.range 171 ++ (List.range 10).map (171 + ·) :=
    @List.range_add 171 10
  rw [syndrome, split, List.foldl_append, front 171 (Nat.le_refl _), List.foldl_map]
  exact back _ 0 (by decide)

def Codeword (w : Buffer) : Prop := ∀ i < 10, syndrome w i = 0

theorem codeword_iff (w : Buffer) :
    Codeword w ↔ ∀ i < 10, powerSum (Finset.range 182) location (byteValue w) i = 0 := by
  refine forall₂_congr fun i row => ?_
  have small : i ≤ 255 := Nat.le_trans (Nat.le_of_lt row) (by decide)
  rw [← syndrome_value small, gfValue_eq_zero (syndrome_lt small w)]

/-! ## The encoder -/

theorem genPoly_eq : genPoly = [45, 32, 94, 64, 70, 118, 61, 46, 67, 251, 0] := by decide +kernel

theorem gfValue_foldr_guarded (p : Nat → Prop) [DecidablePred p] (f : Nat → Nat) (n acc : Nat) :
    gfValue ((List.range n).foldr (fun k acc => if p k then acc ^^^ f k else acc) acc) =
      gfValue acc + ∑ k ∈ Finset.range n, if p k then gfValue (f k) else 0 := by
  induction n generalizing acc with
  | zero => rw [Finset.sum_range_zero, add_zero]; rfl
  | succ n ih =>
      rw [List.range_succ, List.foldr_append, List.foldr_cons, List.foldr_nil, ih,
        Finset.sum_range_succ, add_comm (∑ k ∈ Finset.range n, _), ← add_assoc]
      congr 1
      split
      · exact gfValue_xor _ _
      · exact (add_zero _).symm

theorem gfValue_foldr (f : Nat → Nat) (n acc : Nat) :
    gfValue ((List.range n).foldr (fun k acc => acc ^^^ f k) acc) =
      gfValue acc + ∑ k ∈ Finset.range n, gfValue (f k) := by
  simpa only [if_true] using gfValue_foldr_guarded (fun _ => True) f n acc

noncomputable def generator (k : Nat) : GfField := gfAlpha ^ genPoly.getD k 0

theorem generator_root {i : Nat} (row : i < 10) :
    ∑ k ∈ Finset.range 10, generator k * (gfAlpha ^ i) ^ k = (gfAlpha ^ i) ^ 10 := by
  have table : ∀ i < 10, (List.range 11).foldr (fun k acc => acc ^^^ power 7 29
      (([45, 32, 94, 64, 70, 118, 61, 46, 67, 251, 0].getD k 0 + i * k) % 255)) 0 = 0 := by
    decide +kernel
  have values := congrArg gfValue (table i row)
  rw [gfValue_foldr, gfValue_zero, zero_add, ← genPoly_eq] at values
  have entry : ∀ k, gfValue (power 7 29 ((genPoly.getD k 0 + i * k) % 255)) =
      generator k * (gfAlpha ^ i) ^ k := fun k => by
    rw [← alphaTo_eq (Nat.mod_lt _ (by decide)), gfValue_alphaTo (Nat.mod_lt _ (by decide)),
      gfAlpha_pow_mod, pow_add, pow_mul, generator]
  rw [Finset.sum_congr rfl fun k _ => entry k, Finset.sum_range_succ] at values
  have top : generator 10 = 1 := by
    rw [generator, genPoly_eq]
    exact pow_zero gfAlpha
  rw [top, one_mul] at values
  exact CharTwo.add_eq_zero.mp values

theorem genPoly_lt (k : Nat) : genPoly.getD k 0 < 255 := by
  rw [genPoly_eq]
  rcases Nat.lt_or_ge k 11 with inside | outside
  · interval_cases k <;> decide
  · rw [List.getD_eq_default _ _ outside]
    decide

noncomputable def parityValue (bb : List UInt8) (j : Nat) : GfField := gfValue (bb.getD j 0).toNat

theorem length_encodeByte {bb : List UInt8} (ten : bb.length = 10) (byte : UInt8) :
    (encodeByte bb byte).length = 10 := by
  rw [encodeByte]
  split <;> simp [ten]

theorem gfValue_alphaTo_char {x : Nat} (small : x ≤ 510) :
    gfValue (alphaTo (modnn x)).toUInt8.toNat = gfAlpha ^ x := by
  have byte : (alphaTo (modnn x)).toUInt8.toNat = alphaTo (modnn x) :=
    Nat.mod_eq_of_lt (alphaTo_lt (modnn_lt x))
  rw [byte, gfValue_alphaTo_modnn small]

/-- The register moves on, and the feedback adds a multiple of the generator. -/
theorem encodeByte_value {bb : List UInt8} (ten : bb.length = 10) (byte : UInt8) {j : Nat}
    (inside : j < 10) :
    parityValue (encodeByte bb byte) j = (if j < 9 then parityValue bb (j + 1) else 0) +
      (gfValue byte.toNat + parityValue bb 0) * generator (9 - j) := by
  have fed : gfValue (byte ^^^ bb.getD 0 0).toNat = gfValue byte.toNat + parityValue bb 0 := by
    rw [UInt8.toNat_xor, gfValue_xor, parityValue]
  have index := isIndex_indexOf (byte_lt (byte ^^^ bb.getD 0 0))
  rw [fed] at index
  rw [parityValue, encodeByte]
  split
  · rename_i nonzero
    obtain ⟨below, value⟩ := index.pow nonzero
    have reach := genPoly_lt (9 - j)
    rw [value, generator, ← pow_add]
    rcases Nat.lt_or_ge j 9 with early | last
    · rw [if_pos early, List.getD_append _ _ _ _ (by simpa using early),
        List.getD_eq_getElem _ _ (by simpa using early), List.getElem_map, List.getElem_range,
        UInt8.toNat_xor, gfValue_xor, gfValue_alphaTo_char (by omega)]
      rfl
    · obtain rfl : j = 9 := by omega
      rw [if_neg (Nat.lt_irrefl 9), zero_add, List.getD_append_right _ _ _ _ (by simp)]
      simp only [List.length_map, List.length_range, Nat.sub_self, List.getD_cons_zero] at reach ⊢
      exact gfValue_alphaTo_char (by omega)
  · rename_i top
    have zero := index.zero_iff.mp (not_not.mp top)
    rw [zero, zero_mul, add_zero]
    rcases Nat.lt_or_ge j 9 with early | last
    · rw [if_pos early, List.getD_append _ _ _ _ (by simpa [ten] using early), parityValue,
        List.getD_eq_getElem?_getD, List.getElem?_drop, Nat.add_comm 1 j, List.getD_eq_getElem?_getD]
    · obtain rfl : j = 9 := by omega
      rw [if_neg (Nat.lt_irrefl 9), List.getD_append_right _ _ _ _ (by simp [ten])]
      simp [ten]

/-- The register as a polynomial at `γ`, highest coefficient first. -/
noncomputable def registerAt (γ : GfField) (bb : List UInt8) : GfField :=
  ∑ j ∈ Finset.range 10, parityValue bb j * γ ^ (9 - j)

theorem encodeByte_register {i : Nat} (row : i < 10) {bb : List UInt8} (ten : bb.length = 10)
    (byte : UInt8) :
    registerAt (gfAlpha ^ i) (encodeByte bb byte) =
      gfAlpha ^ i * registerAt (gfAlpha ^ i) bb + (gfAlpha ^ i) ^ 10 * gfValue byte.toNat := by
  have root := generator_root row
  generalize gfAlpha ^ i = γ at root ⊢
  have reversed : ∑ j ∈ Finset.range 10, generator (9 - j) * γ ^ (9 - j) = γ ^ 10 :=
    (Finset.sum_range_reflect (fun k => generator k * γ ^ k) 10).trans root
  have moved : ∑ j ∈ Finset.range 10, (if j < 9 then parityValue bb (j + 1) else 0) * γ ^ (9 - j) =
      γ * registerAt γ bb + γ ^ 10 * parityValue bb 0 := by
    have expanded : registerAt γ bb = ∑ j ∈ Finset.range 9, parityValue bb (j + 1) * γ ^ (9 - (j + 1)) +
        parityValue bb 0 * γ ^ (9 - 0) := Finset.sum_range_succ' _ 9
    rw [Finset.sum_range_succ, if_neg (Nat.lt_irrefl 9), zero_mul, add_zero, expanded, mul_add,
      Finset.mul_sum, add_assoc]
    have cancelled : γ * (parityValue bb 0 * γ ^ (9 - 0)) + γ ^ 10 * parityValue bb 0 = 0 := by
      have same : γ * (parityValue bb 0 * γ ^ (9 - 0)) = γ ^ 10 * parityValue bb 0 := by ring
      rw [same, CharTwo.add_self_eq_zero]
    rw [cancelled, add_zero]
    refine Finset.sum_congr rfl fun j inside => ?_
    have early := Finset.mem_range.mp inside
    have exponent : 9 - j = 9 - (j + 1) + 1 := by omega
    rw [if_pos early, exponent, pow_succ]
    ring
  calc registerAt γ (encodeByte bb byte)
      = ∑ j ∈ Finset.range 10, ((if j < 9 then parityValue bb (j + 1) else 0) +
          (gfValue byte.toNat + parityValue bb 0) * generator (9 - j)) * γ ^ (9 - j) :=
        Finset.sum_congr rfl fun j inside => by
          rw [encodeByte_value ten byte (Finset.mem_range.mp inside)]
    _ = (γ * registerAt γ bb + γ ^ 10 * parityValue bb 0) +
          (gfValue byte.toNat + parityValue bb 0) * γ ^ 10 := by
        simp only [add_mul, Finset.sum_add_distrib, moved]
        simp only [mul_assoc, ← Finset.mul_sum, reversed]
    _ = γ * registerAt γ bb + γ ^ 10 * gfValue byte.toNat +
          (γ ^ 10 * parityValue bb 0 + γ ^ 10 * parityValue bb 0) := by ring
    _ = _ := by rw [CharTwo.add_self_eq_zero, add_zero]

private theorem encoded_register {i : Nat} (row : i < 10) (data : Buffer) (n : Nat) :
    ((List.range n).foldl (fun bb m => encodeByte bb (data m)) (List.replicate 10 0)).length = 10 ∧
      registerAt (gfAlpha ^ i)
          ((List.range n).foldl (fun bb m => encodeByte bb (data m)) (List.replicate 10 0)) =
        ∑ m ∈ Finset.range n, byteValue data m * (gfAlpha ^ i) ^ (9 + (n - m)) := by
  induction n with
  | zero =>
      refine ⟨rfl, ?_⟩
      rw [Finset.sum_range_zero, registerAt]
      refine Finset.sum_eq_zero fun j inside => ?_
      have entry : (List.replicate 10 (0 : UInt8)).getD j 0 = 0 := by
        rw [List.getD_eq_getElem?_getD, List.getElem?_replicate]
        split <;> rfl
      have zero : parityValue (List.replicate 10 0) j = 0 := by
        rw [parityValue, entry]
        exact gfValue_zero
      exact mul_eq_zero_of_left zero _
  | succ n ih =>
      obtain ⟨ten, value⟩ := ih
      rw [List.range_succ, List.foldl_append, List.foldl_cons, List.foldl_nil]
      refine ⟨length_encodeByte ten _, ?_⟩
      rw [encodeByte_register row ten, value, Finset.sum_range_succ, Nat.add_sub_cancel_left,
        Finset.mul_sum]
      congr 1
      · refine Finset.sum_congr rfl fun m inside => ?_
        have before : m ≤ n := Nat.le_of_lt (Finset.mem_range.mp inside)
        have exponent : 9 + (n + 1 - m) = 9 + (n - m) + 1 := by omega
        rw [exponent, pow_succ]
        ring
      · rw [byteValue, mul_comm]

theorem length_rsEncode (data : Buffer) : (rsEncode data).length = 10 :=
  (encoded_register (by decide : 0 < 10) data 172).1

/-- 172 bytes of data with their parity behind them. -/
def encodedWord (data : Buffer) : Buffer := fun m =>
  if m < 172 then data m else (rsEncode data).getD (m - 172) 0

theorem encodedWord_codeword (data : Buffer) : Codeword (encodedWord data) := by
  refine (codeword_iff _).mpr fun i row => ?_
  have parity := (encoded_register row data 172).2
  have location_pow : ∀ m, location m ^ i = (gfAlpha ^ i) ^ (181 - m) := fun m => by
    rw [location, ← pow_mul, ← pow_mul, Nat.mul_comm]
  have front : ∑ m ∈ Finset.range 172, byteValue (encodedWord data) m * location m ^ i =
      registerAt (gfAlpha ^ i) (rsEncode data) := by
    refine Eq.trans (Finset.sum_congr rfl fun m inside => ?_) parity.symm
    have below := Finset.mem_range.mp inside
    have exponent : 181 - m = 9 + (172 - m) := by omega
    rw [location_pow, exponent, byteValue, byteValue, encodedWord, if_pos below]
  have back : ∑ j ∈ Finset.range 10, byteValue (encodedWord data) (172 + j) * location (172 + j) ^ i =
      registerAt (gfAlpha ^ i) (rsEncode data) := by
    refine Finset.sum_congr rfl fun j _ => ?_
    have exponent : 181 - (172 + j) = 9 - j := by omega
    have beyond : ¬ 172 + j < 172 := Nat.not_lt.mpr (Nat.le_add_right 172 j)
    rw [location_pow, exponent, byteValue, encodedWord, if_neg beyond, Nat.add_sub_cancel_left]
    rfl
  have split := Finset.sum_range_add (fun m => byteValue (encodedWord data) m * location m ^ i) 172 10
  rw [powerSum, split, front, back, CharTwo.add_self_eq_zero]

/-- Words that agree on the 182 bytes have the same syndromes. -/
theorem Codeword.congr {w w' : Buffer} (same : ∀ m < 182, w m = w' m) (codeword : Codeword w) :
    Codeword w' := by
  refine (codeword_iff w').mpr fun i row => ?_
  rw [← (codeword_iff w).mp codeword i row]
  refine Finset.sum_congr rfl fun m inside => ?_
  rw [byteValue, byteValue, same m (Finset.mem_range.mp inside)]

/-- A codeword is its data with their parity. -/
theorem codeword_iff_parity (w : Buffer) :
    Codeword w ↔ ∀ j < 10, w (172 + j) = (rsEncode w).getD j 0 := by
  constructor
  · intro codeword j inside
    have zero : ∀ i < 10, powerSum (Finset.Ico 172 182) location
        (fun m => byteValue w m - byteValue (encodedWord w) m) i = 0 := by
      intro i row
      have first := (codeword_iff w).mp codeword i row
      have second := (codeword_iff _).mp (encodedWord_codeword w) i row
      have difference : powerSum (Finset.range 182) location
          (fun m => byteValue w m - byteValue (encodedWord w) m) i = 0 := by
        rw [powerSum, Finset.sum_congr rfl fun m _ => sub_mul _ _ _, Finset.sum_sub_distrib]
        exact (congrArg₂ (· - ·) first second).trans (sub_self 0)
      rw [← difference]
      refine Finset.sum_subset (fun m inside => ?_) fun m inside outside => ?_
      · exact Finset.mem_range.mpr (Finset.mem_Ico.mp inside).2
      · have early : m < 172 := by
          by_contra late
          exact outside (Finset.mem_Ico.mpr ⟨Nat.not_lt.mp late, Finset.mem_range.mp inside⟩)
        have same : byteValue (encodedWord w) m = byteValue w m := by
          rw [byteValue, byteValue, encodedWord, if_pos early]
        exact mul_eq_zero_of_left (sub_eq_zero.mpr same.symm) _
    have distinct : Set.InjOn location (Finset.Ico 172 182) := location_injOn.mono fun m inside =>
      Finset.mem_coe.mpr (Finset.mem_range.mpr (Finset.mem_Ico.mp (Finset.mem_coe.mp inside)).2)
    have place : 172 + j ∈ Finset.Ico 172 182 :=
      Finset.mem_Ico.mpr ⟨Nat.le_add_right 172 j, Nat.add_lt_add_left inside 172⟩
    have equal := weights_zero_of_powerSum distinct (by simp) zero (172 + j) place
    have bytes : (w (172 + j)).toNat = (encodedWord w (172 + j)).toNat :=
      gfValue_injective (byte_lt _) (byte_lt _) (sub_eq_zero.mp equal)
    have beyond : ¬ 172 + j < 172 := Nat.not_lt.mpr (Nat.le_add_right 172 j)
    rw [UInt8.toNat_inj.mp bytes, encodedWord, if_neg beyond, Nat.add_sub_cancel_left]
  · intro parity
    refine (encodedWord_codeword w).congr fun m inside => ?_
    rw [encodedWord]
    split
    · rfl
    · rename_i late
      have place : 172 + (m - 172) = m := Nat.add_sub_cancel' (Nat.not_lt.mp late)
      have entry := parity (m - 172) (by omega)
      rw [place] at entry
      exact entry.symm

/-! ## The distance of the code -/

/-- Code words that are not the same differ in more than ten bytes. -/
theorem Codeword.distance {w w' : Buffer} (codeword : Codeword w) (codeword' : Codeword w') {m : Nat}
    (inside : m < 182) (differ : w m ≠ w' m) :
    11 ≤ ((List.range 182).filter fun m => w m ≠ w' m).length := by
  classical
  by_contra few
  have apart : ∀ m, byteValue w m - byteValue w' m ≠ 0 ↔ w m ≠ w' m := by
    intro m
    refine not_congr (sub_eq_zero.trans ⟨fun same => ?_, fun same => by rw [byteValue, byteValue, same]⟩)
    exact UInt8.toNat_inj.mp (gfValue_injective (byte_lt _) (byte_lt _) same)
  let positions := (Finset.range 182).filter fun m => byteValue w m - byteValue w' m ≠ 0
  have enough : positions.card ≤ 10 := by
    have same : positions = ((List.range 182).filter fun m => w m ≠ w' m).toFinset := by
      ext m
      simp [positions, apart]
    rw [same]
    exact (List.toFinset_card_le _).trans (Nat.le_of_lt_succ (Nat.not_le.mp few))
  have zero : ∀ k < 10, powerSum positions location (fun m => byteValue w m - byteValue w' m) k = 0 := by
    intro k row
    rw [powerSum_filter, powerSum, Finset.sum_congr rfl fun m _ => sub_mul _ _ _, Finset.sum_sub_distrib]
    have first := (codeword_iff w).mp codeword k row
    have second := (codeword_iff w').mp codeword' k row
    exact (congrArg₂ (· - ·) first second).trans (sub_self 0)
  have distinct : Set.InjOn location positions := location_injOn.mono (Finset.coe_subset.mpr (Finset.filter_subset _ _))
  have member : m ∈ positions := Finset.mem_filter.mpr ⟨Finset.mem_range.mpr inside, (apart m).mpr differ⟩
  exact (apart m).mpr differ (weights_zero_of_powerSum distinct enough zero m member)

/-- A code word can be given in all but ten bytes. -/
theorem exists_codeword (bytes : Buffer) {free : Finset Nat} (inside : free ⊆ Finset.range 182)
    (ten : free.card = 10) : ∃ w, Codeword w ∧ ∀ m < 182, m ∉ free → w m = bytes m := by
  classical
  let given : Finset Nat := Finset.range 182 \ free
  let dataOf : (Fin 172 → Fin 256) → Buffer := fun data m =>
    if below : m < 172 then (data ⟨m, below⟩).val.toUInt8 else 0
  let shown : (Fin 172 → Fin 256) → given → Fin 256 := fun data m =>
    ⟨(encodedWord (dataOf data) m).toNat, UInt8.toNat_lt _⟩
  have injective : Function.Injective shown := by
    intro data data' same
    by_contra differ
    obtain ⟨m, apart⟩ := Function.ne_iff.mp differ
    have bytesApart : dataOf data m ≠ dataOf data' m := by
      intro alike
      simp only [dataOf, m.isLt, dif_pos, Fin.eta] at alike
      have values := congrArg UInt8.toNat alike
      simp only [Nat.toUInt8, UInt8.toNat_ofNat', Nat.mod_eq_of_lt (Fin.isLt _)] at values
      exact apart (Fin.ext values)
    have wordsApart : encodedWord (dataOf data) m ≠ encodedWord (dataOf data') m := by
      rw [encodedWord, encodedWord, if_pos m.isLt, if_pos m.isLt]
      exact bytesApart
    have many := (encodedWord_codeword (dataOf data)).distance (encodedWord_codeword (dataOf data'))
      (Nat.lt_trans m.isLt (by decide)) wordsApart
    have few : ((List.range 182).filter fun m =>
        encodedWord (dataOf data) m ≠ encodedWord (dataOf data') m).toFinset ⊆ free := by
      intro k member
      obtain ⟨below, unlike⟩ := by simpa using member
      by_contra fixed
      have equal := congrFun same ⟨k, Finset.mem_sdiff.mpr ⟨Finset.mem_range.mpr below, fixed⟩⟩
      exact unlike (UInt8.toNat_inj.mp (congrArg Fin.val equal))
    have count := Finset.card_le_card few
    rw [List.toFinset_card_of_nodup (List.nodup_range.filter _), ten] at count
    omega
  have sizes : Fintype.card (Fin 172 → Fin 256) = Fintype.card (given → Fin 256) := by
    have members : given.card = 172 := by
      rw [Finset.card_sdiff_of_subset inside, ten, Finset.card_range]
    rw [Fintype.card_fun, Fintype.card_fun, Fintype.card_coe, members, Fintype.card_fin, Fintype.card_fin]
  have onto := ((Fintype.bijective_iff_injective_and_card shown).mpr ⟨injective, sizes⟩).2
  obtain ⟨data, found⟩ := onto fun m => ⟨(bytes m).toNat, UInt8.toNat_lt _⟩
  refine ⟨encodedWord (dataOf data), encodedWord_codeword _, fun m below fixed => ?_⟩
  have byte := congrFun found ⟨m, Finset.mem_sdiff.mpr ⟨Finset.mem_range.mpr below, fixed⟩⟩
  exact UInt8.toNat_inj.mp (congrArg Fin.val byte)

/-- Data that are not the same differ in more than ten bytes when they are encoded. -/
theorem rsEncode_distance {data data' : Buffer} {m : Nat} (inside : m < 172) (differ : data m ≠ data' m) :
    11 ≤ ((List.range 182).filter fun m => encodedWord data m ≠ encodedWord data' m).length := by
  refine (encodedWord_codeword data).distance (encodedWord_codeword data') (m := m)
    (Nat.lt_trans inside (by decide)) ?_
  rw [encodedWord, encodedWord, if_pos inside, if_pos inside]
  exact differ

/-- Zeroes and a single one. -/
theorem rsEncode_distance_one : 11 ≤ ((List.range 182).filter fun m =>
    encodedWord (fun _ => 0) m ≠ encodedWord (fun m => if m = 7 then 1 else 0) m).length :=
  @rsEncode_distance (fun _ => 0) (fun m => if m = 7 then 1 else 0) 7 (by decide) (by decide)

end Friidump
