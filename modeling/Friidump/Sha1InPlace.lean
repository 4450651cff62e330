import Friidump.BlockCache
import Friidump.Sha1
import Friidump.Theory.FixedVector
import Mathlib.Algebra.Group.MinimalAxioms
import Mathlib.Algebra.Group.Pi.Basic
import Mathlib.Tactic.Abel

/-!
# What SHA-1 leaves in place of its data

The transform expands its block in place, so that the block ends as the last
sixteen words of the schedule. These are the words it began with only if all of
them are zero.
-/

set_option autoImplicit false

namespace Friidump

open Theory (exists_fixed_of_iterate)

/-! ## Rotations -/

theorem word_ext {first second : UInt32}
    (same : ∀ i < 32, first.toBitVec.getLsbD i = second.toBitVec.getLsbD i) : first = second :=
  UInt32.toBitVec_inj.mp (BitVec.eq_of_getLsbD_eq same)

theorem rotLeft_bit (value : UInt32) {bits i : Nat} (bound : bits ≤ 32) (inside : i < 32) :
    (rotLeft value bits).toBitVec.getLsbD i =
      if i < bits then value.toBitVec.getLsbD (i + (32 - bits))
      else value.toBitVec.getLsbD (i - bits) := by
  have spread : (rotLeft value bits).toBitVec =
      (value.toBitVec <<< bits) ||| (value.toBitVec >>> (32 - bits)) := rfl
  rw [spread, BitVec.getLsbD_or, BitVec.getLsbD_shiftLeft, BitVec.getLsbD_ushiftRight,
    Nat.add_comm (32 - bits)]
  split
  · rename_i wrapped
    simp [wrapped]
  · rename_i straight
    have beyond : value.toBitVec.getLsbD (i + (32 - bits)) = false :=
      BitVec.getLsbD_of_ge _ _ (by omega)
    simp [straight, inside, beyond]

theorem rotLeft_xor (first second : UInt32) {bits : Nat} (bound : bits ≤ 32) :
    rotLeft (first ^^^ second) bits = rotLeft first bits ^^^ rotLeft second bits := by
  refine word_ext fun i inside => ?_
  rw [UInt32.toBitVec_xor, BitVec.getLsbD_xor, rotLeft_bit _ bound inside, rotLeft_bit _ bound inside,
    rotLeft_bit _ bound inside, UInt32.toBitVec_xor, BitVec.getLsbD_xor, BitVec.getLsbD_xor]
  split <;> rfl

theorem rotLeft_rotLeft (value : UInt32) {first second : Nat} (bound : first + second ≤ 32) :
    rotLeft (rotLeft value first) second = rotLeft value (first + second) := by
  refine word_ext fun i inside => ?_
  rw [rotLeft_bit _ (by omega) inside, rotLeft_bit _ bound inside]
  by_cases wrapped : i < second
  · rw [if_pos wrapped, if_pos (by omega), rotLeft_bit _ (by omega) (by omega), if_neg (by omega)]
    congr 1
    omega
  · rw [if_neg wrapped, rotLeft_bit _ (by omega) (by omega)]
    by_cases carried : i - second < first
    · rw [if_pos carried, if_pos (by omega)]
      congr 1
      omega
    · rw [if_neg carried, if_neg (by omega), Nat.sub_sub, Nat.add_comm second]

theorem rotLeft_zero (value : UInt32) : rotLeft value 0 = value := by
  refine word_ext fun i inside => ?_
  rw [rotLeft_bit value (Nat.zero_le 32) inside, if_neg (Nat.not_lt_zero i), Nat.sub_zero]

theorem rotLeft_full (value : UInt32) : rotLeft value 32 = value := by
  refine word_ext fun i inside => ?_
  rw [rotLeft_bit value (Nat.le_refl 32) inside, if_pos inside, Nat.sub_self, Nat.add_zero]

theorem rotLeft_iterate (value : UInt32) (bits n : Nat) (bound : bits * n ≤ 32) :
    (rotLeft · bits)^[n] value = rotLeft value (bits * n) := by
  induction n with
  | zero => exact (rotLeft_zero value).symm
  | succ n ih =>
      rw [Nat.mul_succ] at bound
      rw [Function.iterate_succ_apply', ih (by omega), rotLeft_rotLeft value bound, Nat.mul_succ]

/-! ## Reversed words -/

private theorem evenBytes_bit : ∀ i < 32,
    (0x00ff00ff : UInt32).toBitVec.getLsbD i = decide (i / 8 % 2 = 0) := by
  decide

private theorem oddBytes_bit : ∀ i < 32,
    (0xff00ff00 : UInt32).toBitVec.getLsbD i = !decide (i / 8 % 2 = 0) := by
  decide

theorem reverseWord_bit (word : UInt32) {i : Nat} (inside : i < 32) :
    (reverseWord word).toBitVec.getLsbD i = word.toBitVec.getLsbD (8 * (3 - i / 8) + i % 8) := by
  rw [reverseWord, UInt32.toBitVec_or, UInt32.toBitVec_and, UInt32.toBitVec_and, BitVec.getLsbD_or,
    BitVec.getLsbD_and, BitVec.getLsbD_and, evenBytes_bit i inside, oddBytes_bit i inside,
    rotLeft_bit word (by omega) inside, rotLeft_bit word (by omega) inside]
  by_cases even : i / 8 % 2 = 0
  · rw [decide_eq_true even, Bool.not_true, Bool.and_false, Bool.false_or, Bool.and_true]
    split <;> congr 1 <;> omega
  · rw [decide_eq_false even, Bool.not_false, Bool.and_false, Bool.or_false, Bool.and_true]
    split <;> congr 1 <;> omega

theorem reverseWord_xor (first second : UInt32) :
    reverseWord (first ^^^ second) = reverseWord first ^^^ reverseWord second := by
  refine word_ext fun i inside => ?_
  rw [UInt32.toBitVec_xor, BitVec.getLsbD_xor, reverseWord_bit _ inside, reverseWord_bit _ inside,
    reverseWord_bit _ inside, UInt32.toBitVec_xor, BitVec.getLsbD_xor]

theorem reverseWord_reverseWord (word : UInt32) : reverseWord (reverseWord word) = word := by
  refine word_ext fun i inside => ?_
  rw [reverseWord_bit _ inside, reverseWord_bit _ (by omega)]
  congr 1
  omega

/-- Seen from the other end, bytes turn the other way. -/
theorem rotLeft_reverseWord (word : UInt32) :
    rotLeft (reverseWord word) 8 = reverseWord (rotLeft word 24) := by
  refine word_ext fun i inside => ?_
  rw [rotLeft_bit _ (by omega) inside, reverseWord_bit _ inside, rotLeft_bit _ (by omega) (by omega)]
  by_cases wrapped : i < 8
  · rw [if_pos wrapped, if_neg (by omega), reverseWord_bit _ (by omega)]
    congr 1
    omega
  · rw [if_neg wrapped, if_pos (by omega), reverseWord_bit _ (by omega)]
    congr 1
    omega

theorem reverseWord_of_fixed {word : UInt32} (fixed : rotLeft word 8 = word) :
    reverseWord word = word := by
  have thrice : rotLeft word 24 = word :=
    (rotLeft_iterate word 8 3 (by decide)).symm.trans (Function.iterate_fixed fixed 3)
  refine word_ext fun i inside => ?_
  rw [reverseWord, thrice, fixed, UInt32.toBitVec_or, UInt32.toBitVec_and, UInt32.toBitVec_and,
    BitVec.getLsbD_or, BitVec.getLsbD_and, BitVec.getLsbD_and, evenBytes_bit i inside,
    oddBytes_bit i inside, ← Bool.and_or_distrib_left, Bool.not_or_self, Bool.and_true]

/-! ## Words in memory -/

theorem loadWord_eq {pointer : Buffer} {word : UInt32}
    (bytes : ∀ k < 4, (pointer k).toBitVec = (word.toBitVec >>> (8 * k)).setWidth 8) :
    pointer.loadWord = word := by
  refine word_ext fun i inside => ?_
  have byte : i / 8 < 4 := by omega
  have place : 8 * (i / 8) + i % 8 = i := Nat.div_add_mod i 8
  have same := congrArg (BitVec.getLsbD · (i % 8))
    ((Buffer.loadWord_byte pointer byte).trans (bytes _ byte))
  have low : i % 8 < 8 := Nat.mod_lt i (by decide)
  simpa only [BitVec.getLsbD_setWidth, BitVec.getLsbD_ushiftRight, low, decide_true, Bool.true_and,
    place] using same

theorem word_setWord_self (block : Buffer) (i : Nat) (word : UInt32) :
    (block.setWord i word).word i = word := by
  refine loadWord_eq fun k inside => ?_
  have place : 4 * i ≤ 4 * i + k ∧ 4 * i + k < 4 * i + 4 := by omega
  rw [Buffer.advance_apply, Buffer.setWord, Buffer.storeWord, if_pos place, Nat.add_sub_cancel_left]

theorem word_congr {block block' : Buffer} {i : Nat}
    (same : ∀ k < 4, block' (4 * i + k) = block (4 * i + k)) : block'.word i = block.word i := by
  refine loadWord_eq fun k inside => ?_
  rw [Buffer.advance_apply, same k inside]
  exact (Buffer.loadWord_byte (block.advance (4 * i)) inside).symm

theorem word_setWord_other (block : Buffer) {i j : Nat} (other : j ≠ i) (word : UInt32) :
    (block.setWord i word).word j = block.word j := by
  refine word_congr fun k inside => ?_
  rw [Buffer.setWord, Buffer.storeWord, if_neg (by omega)]

theorem words_eq_iff (block block' : Buffer) :
    (∀ j < 16, block'.word j = block.word j) ↔ ∀ i < 64, block' i = block i := by
  constructor
  · intro same i inside
    have byte : i % 4 < 4 := Nat.mod_lt i (by decide)
    have place : 4 * (i / 4) + i % 4 = i := Nat.div_add_mod i 4
    have first := Buffer.loadWord_byte (block'.advance (4 * (i / 4))) byte
    have second := Buffer.loadWord_byte (block.advance (4 * (i / 4))) byte
    have word : (block'.advance (4 * (i / 4))).loadWord = (block.advance (4 * (i / 4))).loadWord :=
      same (i / 4) (by omega)
    rw [Buffer.advance_apply, place] at first second
    rw [word] at first
    exact UInt8.toBitVec_inj.mp (first.symm.trans second)
  · exact fun same j inside => word_congr fun k below => same _ (by omega)

/-! ## The schedule -/

def sha1BlockAt (block : Buffer) (n : Nat) : Buffer := (List.range n).foldl sha1Store block

def sha1Schedule (block : Buffer) (n : Nat) : UInt32 := sha1Word (sha1BlockAt block n) n

theorem sha1BlockAt_succ (block : Buffer) (n : Nat) :
    sha1BlockAt block (n + 1) = (sha1BlockAt block n).setWord (n % 16) (sha1Schedule block n) := by
  rw [sha1BlockAt, List.range_succ, List.foldl_append]
  rfl

theorem sha1Transform_block (state : Sha1State) (block : Buffer) :
    (sha1Transform state block).2 = sha1BlockAt block 80 := by
  have rounds : ∀ n, ((List.range n).foldl sha1Round (state, block)).2 = sha1BlockAt block n := by
    intro n
    induction n with
    | zero => rfl
    | succ n ih =>
        rw [List.range_succ, List.foldl_append, List.foldl_cons, List.foldl_nil, sha1Round, ih,
          sha1BlockAt_succ]
        rfl
  exact rounds 80

theorem sha1BlockAt_recent (block : Buffer) {t n : Nat} (earlier : t < n) (recent : n ≤ t + 16) :
    (sha1BlockAt block n).word (t % 16) = sha1Schedule block t := by
  induction n with
  | zero => exact absurd earlier (Nat.not_lt_zero t)
  | succ n ih =>
      rw [sha1BlockAt_succ]
      by_cases here : t = n
      · rw [here, word_setWord_self]
      · have before : t < n := by omega
        rw [word_setWord_other _ (by omega), ih before (by omega)]

theorem sha1BlockAt_early (block : Buffer) {j n : Nat} (slot : j < 16) (early : n ≤ j) :
    (sha1BlockAt block n).word j = block.word j := by
  induction n with
  | zero => rfl
  | succ n ih =>
      have other : j ≠ n % 16 := by omega
      rw [sha1BlockAt_succ, word_setWord_other _ other, ih (Nat.le_of_succ_le early)]

theorem sha1Schedule_first (block : Buffer) {j : Nat} (slot : j < 16) :
    sha1Schedule block j = reverseWord (block.word j) := by
  rw [sha1Schedule, sha1Word, if_pos slot, sha1BlockAt_early block slot (Nat.le_refl j)]

theorem sha1Schedule_next (block : Buffer) (t : Nat) :
    sha1Schedule block (t + 16) =
      rotLeft (sha1Schedule block (t + 13) ^^^ sha1Schedule block (t + 8) ^^^
        sha1Schedule block (t + 2) ^^^ sha1Schedule block t) 1 := by
  have late : ¬ t + 16 < 16 := Nat.not_lt.mpr (Nat.le_add_left 16 t)
  have third := @sha1BlockAt_recent block (t + 13) (t + 16) (by omega) (by omega)
  have eighth := @sha1BlockAt_recent block (t + 8) (t + 16) (by omega) (by omega)
  have fourteenth := @sha1BlockAt_recent block (t + 2) (t + 16) (by omega) (by omega)
  have sixteenth := @sha1BlockAt_recent block t (t + 16) (by omega) (Nat.le_refl _)
  rw [sha1Schedule, sha1Word, if_neg late]
  exact congrArg (rotLeft · 1)
    (congrArg₂ (· ^^^ ·) (congrArg₂ (· ^^^ ·) (congrArg₂ (· ^^^ ·) third eighth) fourteenth) sixteenth)

theorem sha1Transform_word (state : Sha1State) (block : Buffer) {j : Nat} (slot : j < 16) :
    (sha1Transform state block).2.word j = sha1Schedule block (64 + j) := by
  have place : (64 + j) % 16 = j := by omega
  have recent := @sha1BlockAt_recent block (64 + j) 80 (by omega) (by omega)
  rwa [place, ← sha1Transform_block state] at recent

theorem sha1Transform_beyond (state : Sha1State) (block : Buffer) {i : Nat} (beyond : 64 ≤ i) :
    (sha1Transform state block).2 i = block i := by
  have rounds : ∀ n, sha1BlockAt block n i = block i := by
    intro n
    induction n with
    | zero => rfl
    | succ n ih =>
        rw [sha1BlockAt_succ, Buffer.setWord, Buffer.storeWord, if_neg (by omega), ih]
  rw [sha1Transform_block, rounds]

/-! ## Sequences of words -/

/-- Words with exclusive or for their addition. -/
def XorWord := UInt32

instance : Zero XorWord := ⟨(0 : UInt32)⟩

instance : Add XorWord := ⟨UInt32.xor⟩

instance : Neg XorWord := ⟨id⟩

instance : AddCommGroup XorWord where
  __ := AddGroup.ofLeftAxioms UInt32.xor_assoc (fun _ => UInt32.zero_xor) fun _ => UInt32.xor_self
  add_comm := UInt32.xor_comm

theorem XorWord.add_self (word : XorWord) : word + word = 0 := UInt32.xor_self

theorem words_add_self (w : ℕ → XorWord) : w + w = 0 := funext fun t => (w t).add_self

def rotWord (bits : Nat) (word : XorWord) : XorWord := rotLeft word bits

theorem rotWord_add (first second : XorWord) {bits : Nat} (bound : bits ≤ 32) :
    rotWord bits (first + second) = rotWord bits first + rotWord bits second :=
  rotLeft_xor first second bound

theorem rotWord_comm (word : XorWord) {first second : Nat} (bound : first + second ≤ 32) :
    rotWord second (rotWord first word) = rotWord first (rotWord second word) := by
  have other : second + first ≤ 32 := Nat.add_comm first second ▸ bound
  exact (rotLeft_rotLeft word bound).trans
    (Nat.add_comm first second ▸ (rotLeft_rotLeft word other).symm)

theorem rotWord_zero : rotWord 1 0 = 0 := by
  have zero : rotLeft 0 1 = 0 := by decide
  exact zero

def rotWords (bits : Nat) (bound : bits ≤ 32) : (ℕ → XorWord) →+ (ℕ → XorWord) :=
  AddMonoidHom.mk' (fun w t => rotWord bits (w t)) fun _ _ => funext fun _ => rotWord_add _ _ bound

def shiftWords : (ℕ → XorWord) →+ (ℕ → XorWord) :=
  AddMonoidHom.mk' (fun w t => w (t + 1)) fun _ _ => rfl

@[simp] theorem rotWords_apply {bits : Nat} (bound : bits ≤ 32) (w : ℕ → XorWord) (t : Nat) :
    rotWords bits bound w t = rotWord bits (w t) := rfl

@[simp] theorem shiftWords_apply (w : ℕ → XorWord) (t : Nat) : shiftWords w t = w (t + 1) := rfl

theorem rotWords_iterate {bits : Nat} (bound : bits ≤ 32) (w : ℕ → XorWord) (n t : Nat) :
    (rotWords bits bound)^[n] w t = (rotWord bits)^[n] (w t) := by
  induction n generalizing w with
  | zero => rfl
  | succ n ih => rw [Function.iterate_succ_apply, ih, Function.iterate_succ_apply, rotWords_apply]

theorem shiftWords_iterate (w : ℕ → XorWord) (n t : Nat) : shiftWords^[n] w t = w (t + n) := by
  induction n generalizing w with
  | zero => rfl
  | succ n ih =>
      rw [Function.iterate_succ_apply, ih, shiftWords_apply, Nat.add_assoc]

/-! ## The recurrence of the schedule -/

/-- The words continue as the schedule does. -/
def Recurrent (w : ℕ → XorWord) : Prop :=
  ∀ t, w (t + 16) = rotWord 1 (w (t + 13) + w (t + 8) + w (t + 2) + w t)

variable {w v : ℕ → XorWord}

theorem Recurrent.add (first : Recurrent w) (second : Recurrent v) : Recurrent (w + v) := by
  intro t
  have regrouped : (w + v) (t + 13) + (w + v) (t + 8) + (w + v) (t + 2) + (w + v) t =
      (w (t + 13) + w (t + 8) + w (t + 2) + w t) + (v (t + 13) + v (t + 8) + v (t + 2) + v t) := by
    simp only [Pi.add_apply]
    abel
  rw [regrouped, rotWord_add _ _ (by decide), ← first t, ← second t, Pi.add_apply]

theorem Recurrent.shift (recurrent : Recurrent w) : Recurrent (shiftWords w) := by
  intro t
  have next := recurrent (t + 1)
  simp only [shiftWords_apply]
  rwa [Nat.add_right_comm t 1 16, Nat.add_right_comm t 1 13, Nat.add_right_comm t 1 8,
    Nat.add_right_comm t 1 2] at next

theorem Recurrent.rot (recurrent : Recurrent w) {bits : Nat} (bound : bits ≤ 31) :
    Recurrent (rotWords bits (Nat.le_succ_of_le bound) w) := by
  intro t
  have wide : bits ≤ 32 := Nat.le_succ_of_le bound
  simp only [rotWords_apply]
  rw [recurrent t, rotWord_comm _ (by omega), rotWord_add _ _ wide, rotWord_add _ _ wide,
    rotWord_add _ _ wide]

theorem Recurrent.ext (first : Recurrent w) (second : Recurrent v) (same : ∀ j < 16, w j = v j) :
    w = v := by
  funext t
  induction t using Nat.strong_induction_on with
  | h t ih =>
      by_cases early : t < 16
      · exact same t early
      · obtain ⟨k, rfl⟩ := Nat.exists_eq_add_of_le' (Nat.not_lt.mp early)
        rw [first k, second k, ih (k + 13) (by omega), ih (k + 8) (by omega), ih (k + 2) (by omega),
          ih k (by omega)]

/-! ## Blocks that end as they began -/

def reverseXorWord (word : XorWord) : XorWord := reverseWord word

theorem rotWord_iterate_add (first second : XorWord) {bits : Nat} (bound : bits ≤ 32) (n : Nat) :
    (rotWord bits)^[n] (first + second) = (rotWord bits)^[n] first + (rotWord bits)^[n] second := by
  induction n generalizing first second with
  | zero => rfl
  | succ n ih =>
      simp only [Function.iterate_succ_apply]
      rw [rotWord_add _ _ bound, ih]

theorem rotWord_iterate_full (word : XorWord) : (rotWord 8)^[4] word = word :=
  (rotLeft_iterate word 8 4 (by decide)).trans (rotLeft_full word)

/-- The words come back after 64 rounds in reverse byte order, and turned by some bytes. -/
def Reversing (w : ℕ → XorWord) : Prop :=
  ∃ c, ∀ j < 16, w (64 + j) = reverseXorWord ((rotWord 8)^[c] (w j))

theorem Reversing.turn (reversing : Reversing w) :
    Reversing (rotWords 8 (by decide) w + w) := by
  obtain ⟨c, last⟩ := reversing
  refine ⟨c + 3, fun j slot => ?_⟩
  have turned : rotWord 8 (reverseXorWord ((rotWord 8)^[c] (w j))) =
      reverseXorWord ((rotWord 8)^[c + 3] (w j)) := by
    have thrice := rotLeft_iterate ((rotWord 8)^[c] (w j)) 8 3 (by decide)
    rw [Nat.add_comm, Function.iterate_add_apply]
    exact (rotLeft_reverseWord _).trans (congrArg reverseXorWord thrice.symm)
  have around : (rotWord 8)^[c + 3] (rotWord 8 (w j)) = (rotWord 8)^[c] (w j) := by
    have once : (rotWord 8)^[c + 3] (rotWord 8 (w j)) = (rotWord 8)^[c + 4] (w j) := rfl
    rw [once, Function.iterate_add_apply, rotWord_iterate_full]
  have sum : reverseXorWord ((rotWord 8)^[c] (w j) + (rotWord 8)^[c + 3] (w j)) =
      reverseXorWord ((rotWord 8)^[c] (w j)) + reverseXorWord ((rotWord 8)^[c + 3] (w j)) :=
    reverseWord_xor _ _
  rw [Pi.add_apply, Pi.add_apply, rotWords_apply, rotWords_apply, last j slot, turned,
    rotWord_iterate_add _ _ (by decide), around, sum, add_comm]

/-- Words of four equal bytes come back unturned. -/
theorem Recurrent.period (recurrent : Recurrent w) (reversing : Reversing w)
    (fixed : rotWords 8 (by decide) w = w) : shiftWords^[64] w = w := by
  have bytes : ∀ t, rotWord 8 (w t) = w t := fun t => congrFun fixed t
  have shifted : ∀ n, Recurrent (shiftWords^[n] w) := fun n => by
    induction n with
    | zero => exact recurrent
    | succ n ih =>
        rw [Function.iterate_succ_apply']
        exact ih.shift
  obtain ⟨c, last⟩ := reversing
  refine (shifted 64).ext recurrent fun j slot => ?_
  rw [shiftWords_iterate, Nat.add_comm, last j slot, Function.iterate_fixed (bytes j)]
  exact reverseWord_of_fixed (bytes j)

/-- A constant sequence does not continue as the schedule does. -/
theorem Recurrent.eq_zero_of_constant (recurrent : Recurrent w) (constant : shiftWords w = w) :
    w = 0 := by
  have same : ∀ n t, w (t + n) = w t := fun n t => by
    rw [← shiftWords_iterate w n t, Function.iterate_fixed constant]
  funext t
  have next := recurrent t
  rw [same 16, same 13, same 8, same 2, XorWord.add_self, zero_add, XorWord.add_self,
    rotWord_zero] at next
  exact next

/-- No other words than zeros end as they began: a nonzero sequence leads to one of words with
four equal bytes, and that one to a constant one. -/
theorem Recurrent.eq_zero (recurrent : Recurrent w) (reversing : Reversing w) : w = 0 := by
  by_contra nonzero
  obtain ⟨bytes, ⟨recurrent, reversing⟩, nonzero, fixed⟩ :=
    @exists_fixed_of_iterate _ _ words_add_self (rotWords 8 (by decide))
      (fun w => Recurrent w ∧ Reversing w)
      (fun _ kept => ⟨(kept.1.rot (by decide)).add kept.1, kept.2.turn⟩) 2 w
      (funext fun t => (rotWords_iterate _ w 4 t).trans (rotWord_iterate_full _))
      ⟨recurrent, reversing⟩ nonzero
  obtain ⟨last, recurrent, nonzero, constant⟩ :=
    @exists_fixed_of_iterate _ _ words_add_self shiftWords Recurrent
      (fun _ recurrent => recurrent.shift.add recurrent) 6 bytes (recurrent.period reversing fixed)
      recurrent nonzero
  exact nonzero (recurrent.eq_zero_of_constant constant)

theorem sha1Schedule_recurrent (block : Buffer) : Recurrent (sha1Schedule block) :=
  sha1Schedule_next block

/-- The transform leaves its block as it was only if it is all zero. -/
theorem sha1Transform_block_iff (state : Sha1State) (block : Buffer) :
    (∀ i < 64, (sha1Transform state block).2 i = block i) ↔ ∀ i < 64, block i = 0 := by
  have zeroBytes : ∀ k < 4, (0 : UInt8).toBitVec = ((0 : UInt32).toBitVec >>> (8 * k)).setWidth 8 := by
    decide
  have zeroWords : ∀ j, Buffer.word (fun _ => 0) j = 0 := fun j => loadWord_eq zeroBytes
  have zeroReversed : reverseWord 0 = 0 := by decide
  rw [← words_eq_iff, ← @words_eq_iff (fun _ => 0) block]
  constructor
  · intro unchanged
    have reversing : Reversing (sha1Schedule block) := ⟨0, fun j slot => by
      have last := (sha1Transform_word state block slot).symm.trans (unchanged j slot)
      have first := congrArg reverseWord (sha1Schedule_first block slot)
      exact last.trans (first.trans (reverseWord_reverseWord _)).symm⟩
    have zero := (sha1Schedule_recurrent block).eq_zero reversing
    intro j slot
    have word := reverseWord_reverseWord (block.word j)
    rw [← sha1Schedule_first block slot, zero] at word
    exact (word.symm.trans zeroReversed).trans (zeroWords j).symm
  · intro zero j slot
    have recurrent : Recurrent (0 : ℕ → XorWord) := fun _ => by
      simp only [Pi.zero_apply, add_zero, rotWord_zero]
    have schedule : sha1Schedule block = (0 : ℕ → XorWord) :=
      (sha1Schedule_recurrent block).ext recurrent fun j slot => by
        rw [sha1Schedule_first block slot, zero j slot, zeroWords]
        rfl
    rw [sha1Transform_word state block slot, schedule, zero j slot, zeroWords]
    rfl

/-! ## Updates -/

theorem Sha1Ctx.fill_lt (context : Sha1Ctx) : context.fill < 64 := by
  rw [Sha1Ctx.fill, UInt32.toNat_mod]
  exact Nat.mod_lt _ (by decide)

/-- The pieces of the data that are transformed in place are all zero. -/
def Sha1Ctx.ZeroInPlace (context : Sha1Ctx) (data : Buffer) (dataLen : Nat) : Prop :=
  ∀ n, 64 - context.fill + 64 * n + 63 < dataLen →
    ∀ k < 64, data (64 - context.fill + 64 * n + k) = 0

theorem sha1Blocks_before (left : Nat) {processed : Nat} (state : Sha1State) (data : Buffer) {a : Nat}
    (before : a < processed) : (sha1Blocks left processed state data).2 a = data a := by
  induction left generalizing processed state data with
  | zero => rfl
  | succ left ih =>
      exact (ih _ _ (Nat.lt_add_right 64 before)).trans (Buffer.splice_below _ _ before)

theorem sha1Blocks_beyond (left processed : Nat) (state : Sha1State) (data : Buffer) {a : Nat}
    (beyond : processed + 64 * left ≤ a) : (sha1Blocks left processed state data).2 a = data a := by
  induction left generalizing processed state data with
  | zero => rfl
  | succ left ih =>
      have above : processed ≤ a := by omega
      have behind : 64 ≤ a - processed := by omega
      have position : processed + (a - processed) = a := Nat.add_sub_cancel' above
      have kept : data.splice processed (sha1Transform state (data.advance processed)).2 a = data a := by
        rw [Buffer.splice_above _ _ above, sha1Transform_beyond _ _ behind, Buffer.advance_apply,
          position]
      exact (ih _ _ _ (by omega)).trans kept

private theorem splice_transform {data : Buffer} {processed : Nat} {state : Sha1State}
    (zero : ∀ k < 64, data (processed + k) = 0) :
    data.splice processed (sha1Transform state (data.advance processed)).2 = data := by
  have unchanged := (sha1Transform_block_iff state (data.advance processed)).mpr zero
  have whole : (sha1Transform state (data.advance processed)).2 = data.advance processed := by
    funext i
    by_cases inside : i < 64
    · exact unchanged i inside
    · exact sha1Transform_beyond state _ (Nat.not_lt.mp inside)
  rw [whole, Buffer.splice_self]

theorem sha1Blocks_data_iff (left processed : Nat) (state : Sha1State) (data : Buffer) :
    (sha1Blocks left processed state data).2 = data ↔
      ∀ n < left, ∀ k < 64, data (processed + 64 * n + k) = 0 := by
  induction left generalizing processed state with
  | zero => exact iff_of_true rfl nofun
  | succ left ih =>
      have first : (sha1Blocks (left + 1) processed state data).2 = data →
          ∀ k < 64, data (processed + k) = 0 := by
        intro same
        refine (sha1Transform_block_iff state (data.advance processed)).mp fun k inside => ?_
        have kept := sha1Blocks_before left (sha1Transform state (data.advance processed)).1
          (data.splice processed (sha1Transform state (data.advance processed)).2)
          (Nat.add_lt_add_left inside processed)
        rw [Buffer.splice_above _ _ (Nat.le_add_right processed k), Nat.add_sub_cancel_left] at kept
        exact kept.symm.trans (congrFun same (processed + k))
      have rest : (∀ k < 64, data (processed + k) = 0) →
          ((sha1Blocks (left + 1) processed state data).2 = data ↔
            ∀ n < left, ∀ k < 64, data (processed + 64 + 64 * n + k) = 0) := by
        intro zero
        rw [sha1Blocks]
        dsimp only
        rw [splice_transform zero]
        exact ih _ _
      constructor
      · intro same n below k inside
        cases n with
        | zero => exact first same k inside
        | succ n =>
            have later := (rest (first same)).mp same n (Nat.lt_of_succ_lt_succ below) k inside
            rwa [Nat.mul_succ, Nat.add_comm (64 * n), ← Nat.add_assoc processed]
      · intro zero
        refine (rest fun k inside => zero 0 (Nat.succ_pos left) k inside).mpr fun n below k inside => ?_
        have later := zero (n + 1) (Nat.succ_lt_succ below) k inside
        rwa [Nat.mul_succ, Nat.add_comm (64 * n), ← Nat.add_assoc processed] at later

/-- An update leaves its data as they were only if what it transforms in place is all zero. -/
theorem sha1Update_data_iff (context : Sha1Ctx) (data : Buffer) (dataLen : Nat) :
    (sha1Update context data dataLen).2 = data ↔ context.ZeroInPlace data dataLen := by
  have below := context.fill_lt
  rw [sha1Update]
  dsimp only
  split
  · refine (sha1Blocks_data_iff _ _ _ data).trans (forall_congr' fun n => ?_)
    have place : n < (dataLen - (64 - context.fill)) / 64 ↔
        64 - context.fill + 64 * n + 63 < dataLen := by omega
    rw [place]
  · refine iff_of_true rfl fun n inside => ?_
    omega

/-- An update leaves alone what lies behind its data. -/
theorem sha1Update_beyond (context : Sha1Ctx) (data : Buffer) {dataLen a : Nat} (beyond : dataLen ≤ a) :
    (sha1Update context data dataLen).2 a = data a := by
  have below := context.fill_lt
  rw [sha1Update]
  dsimp only
  split
  · exact sha1Blocks_beyond _ _ _ data (by omega)
  · rfl

end Friidump
