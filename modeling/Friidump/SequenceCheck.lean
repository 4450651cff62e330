import Friidump.StreamingPass

/-!
# The sequence check of the dump functions

It looks at the number in the header of each dumped sector. Where the numbers follow each other
from that of the first sector on, it changes nothing.
-/

set_option autoImplicit false

namespace Friidump

theorem sectorNumber_congr {bytes bytes' : Buffer} (same : ∀ i < 4, bytes' i = bytes i) :
    sectorNumber bytes' = sectorNumber bytes := by
  rw [sectorNumber, sectorNumber, same 1 (by decide), same 2 (by decide), same 3 (by decide)]

theorem Handed.sectorNumber {disctype : UInt8} {inbuf raw data : Buffer} {j k offset : Nat}
    (handed : Handed disctype inbuf raw data j) (inside : k < 16) (early : 6 ≤ offset)
    (small : offset ≤ 16) :
    Friidump.sectorNumber ((copyUserData raw data offset).advance (2064 * k)) =
      Friidump.sectorNumber (inbuf.advance (2064 * k)) := by
  refine sectorNumber_congr fun i below => ?_
  have header : ¬ (offset ≤ i ∧ i < offset + 2048) := by omega
  have insideSector : i < 2064 := Nat.lt_trans below (by decide)
  rw [Buffer.advance_apply, Buffer.advance_apply,
    copyUserData_apply raw data small inside insideSector, if_neg header]
  exact handed.header inside (Nat.lt_trans below (by decide))

theorem sectorNumber_lt (buf : Buffer) : (sectorNumber buf).toNat < 2 ^ 24 := by
  have below1 := (buf 1).toNat_lt
  have below2 := (buf 2).toNat_lt
  have below3 := (buf 3).toNat_lt
  simp only [sectorNumber, UInt32.toNat_add, UInt32.toNat_shiftLeft, UInt8.toNat_toUInt32,
    UInt32.reduceToNat, Nat.shiftLeft_eq, Nat.reduceMod, Nat.reducePow]
  omega

/-- A sector number has 24 bits, so that it is never the mark of the first round. -/
theorem sectorNumber_ne_mark (buf : Buffer) : sectorNumber buf ≠ 0x55555555 := by
  intro same
  have below := sectorNumber_lt buf
  rw [same] at below
  exact absurd below (by decide)

private theorem checkSequence_later {rounds offset : Nat} {first cnt : UInt32} {buf buf' : Buffer}
    (known : first ≠ 0x55555555) (passed : checkSequence rounds offset first cnt buf = (true, buf')) :
    buf' = buf ∧ ∀ i < rounds,
      sectorNumber (buf.advance (offset + 2064 * i)) = first + (cnt + i.toUInt32) := by
  induction rounds generalizing offset cnt with
  | zero =>
      cases passed
      exact ⟨rfl, nofun⟩
  | succ rounds ih =>
      rw [checkSequence] at passed
      rw [if_neg known] at passed
      split at passed
      · cases passed
      · rename_i next
        obtain ⟨same, later⟩ := ih passed
        refine ⟨same, fun i inside => ?_⟩
        cases i with
        | zero =>
            rw [Nat.mul_zero, Nat.add_zero, Decidable.not_not.mp next]
            grind
        | succ i =>
            have following := later i (Nat.lt_of_succ_lt_succ inside)
            rw [Nat.mul_succ, Nat.add_comm (2064 * i), ← Nat.add_assoc, following]
            rw [toUInt32_succ]
            grind

/-- The check goes through exactly when the sectors of the dump follow each other. -/
theorem checkSequence_passed {rounds : Nat} {buf buf' : Buffer}
    (passed : checkSequence rounds 0 0x55555555 0 buf = (true, buf')) :
    buf' = buf ∧ ∀ i < rounds,
      sectorNumber (buf.advance (2064 * i)) = sectorNumber buf + i.toUInt32 := by
  cases rounds with
  | zero =>
      cases passed
      exact ⟨rfl, nofun⟩
  | succ rounds =>
      rw [checkSequence] at passed
      rw [if_pos rfl, Buffer.advance_zero] at passed
      obtain ⟨same, later⟩ := checkSequence_later (sectorNumber_ne_mark buf) passed
      refine ⟨same, fun i inside => ?_⟩
      cases i with
      | zero =>
          rw [Nat.mul_zero, Buffer.advance_zero]
          grind
      | succ i =>
          have following := later i (Nat.lt_of_succ_lt_succ inside)
          rw [Nat.mul_succ, Nat.add_comm (2064 * i)]
          rw [Nat.zero_add] at following
          rw [following]
          rw [toUInt32_succ]
          grind

theorem checkSequence_passes {rounds : Nat} {buf : Buffer}
    (following : ∀ i < rounds,
      sectorNumber (buf.advance (2064 * i)) = sectorNumber buf + i.toUInt32) :
    checkSequence rounds 0 0x55555555 0 buf = (true, buf) := by
  have later : ∀ left i, i + 1 + left = rounds →
      checkSequence left (2064 * (i + 1)) (sectorNumber buf) (i + 1).toUInt32 buf = (true, buf) := by
    intro left
    induction left with
    | zero => exact fun _ _ => rfl
    | succ left ih =>
        intro i count
        have inSequence := not_not.mpr (following (i + 1) (by omega))
        rw [checkSequence]
        rw [if_neg (sectorNumber_ne_mark buf), if_neg inSequence, ← toUInt32_succ]
        exact ih (i + 1) (by omega)
  cases rounds with
  | zero => rfl
  | succ rounds =>
      rw [checkSequence, if_pos rfl, Buffer.advance_zero]
      exact later rounds 0 (by omega)

/-- A dump that succeeds hands over what the drive sent, and that is in sequence. -/
theorem sequencedDump_succeeded {σ : Type} {env : Env σ} {drive : σ} {cmd : List UInt8}
    {size : UInt32} {buf : Buffer}
    (succeeded : 0 ≤ (sequencedDumpMemblock env drive cmd size buf).out) :
    (sequencedDumpMemblock env drive cmd size buf).drive =
        (dvdExecuteCmd env drive (dvdInitCommand cmd buf size.toNat) false).drive ∧
      (sequencedDumpMemblock env drive cmd size buf).buf =
        (dvdExecuteCmd env drive (dvdInitCommand cmd buf size.toNat) false).buffer ∧
      ∀ i, 2064 * i + 2064 ≤ size.toNat →
        sectorNumber ((sequencedDumpMemblock env drive cmd size buf).buf.advance (2064 * i)) =
          sectorNumber (sequencedDumpMemblock env drive cmd size buf).buf + i.toUInt32 := by
  unfold sequencedDumpMemblock at succeeded ⊢
  split at succeeded
  · have refused : ¬ (0 : Int) ≤ -2 := by decide
    exact absurd succeeded refused
  · rename_i accepted
    rw [if_neg accepted]
    dsimp only at succeeded ⊢
    rcases check : checkSequence ((size.toNat + 2063) / 2064) 0 0x55555555 0
      (dvdExecuteCmd env drive (dvdInitCommand cmd buf size.toNat) false).buffer with ⟨passed, buf'⟩
    rw [check] at succeeded
    cases passed with
    | false =>
        have failed : ¬ (0 : Int) ≤ -3 := by decide
        exact absurd succeeded failed
    | true =>
        obtain ⟨same, following⟩ := checkSequence_passed check
        dsimp only
        rw [same]
        exact ⟨rfl, rfl, fun i inside => following i (by omega)⟩

end Friidump
