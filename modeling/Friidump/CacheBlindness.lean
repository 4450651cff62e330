import Friidump.DiscProperties

/-!
# Reads do not look at cached bytes

What a read does before it caches its blocks is the same whatever bytes the blocks
in the cache have. Two states that differ in such bytes alone stay in step.
-/

set_option autoImplicit false

namespace Friidump

section Reading

variable {σ : Type} (env : Env σ) (w : World σ) (cache rawCache : Nat → Buffer)

/-- The same state with other bytes in its cached blocks. -/
def World.recached (w : World σ) (cache rawCache : Nat → Buffer) : World σ :=
  w.withDisc { w.disc with cache := cache, rawCache := rawCache }

@[simp] theorem World.recached_drive : (w.recached cache rawCache).drive = w.drive := rfl

@[simp] theorem World.recached_buf : (w.recached cache rawCache).buf = w.buf := rfl

@[simp] theorem World.recached_bufUnscrambled :
    (w.recached cache rawCache).bufUnscrambled = w.bufUnscrambled := rfl

@[simp] theorem World.recached_dvd : (w.recached cache rawCache).disc.dvd = w.disc.dvd := rfl

@[simp] theorem World.recached_sectorsNo :
    (w.recached cache rawCache).disc.sectorsNo = w.disc.sectorsNo := rfl

@[simp] theorem World.recached_secDisc :
    (w.recached cache rawCache).disc.secDisc = w.disc.secDisc := rfl

@[simp] theorem World.recached_secMem :
    (w.recached cache rawCache).disc.secMem = w.disc.secMem := rfl

@[simp] theorem World.recached_withDrive (drive : σ) :
    (w.recached cache rawCache).withDrive drive = (w.withDrive drive).recached cache rawCache := rfl

@[simp] theorem World.recached_withBuf (buf : Buffer) :
    (w.recached cache rawCache).withBuf buf = (w.withBuf buf).recached cache rawCache := rfl

@[simp] theorem World.recached_withBufUnscrambled (buf : Buffer) :
    (w.recached cache rawCache).withBufUnscrambled buf =
      (w.withBufUnscrambled buf).recached cache rawCache := rfl

/-! ## Methods 0 to 6 -/

theorem readDistant_recached (sectorNo : UInt32) :
    readDistant env (w.recached cache rawCache) sectorNo =
      (readDistant env w sectorNo).recached cache rawCache := by
  unfold readDistant
  dsimp +instances only [World.recached_drive, World.recached_sectorsNo, World.recached_withDrive]
  split
  · rfl
  · split <;> rfl

theorem flushCache_recached (sectorNo : UInt32) :
    flushCache env (w.recached cache rawCache) sectorNo =
      (flushCache env w sectorNo).recached cache rawCache := rfl

theorem readStep_recached (method : Nat) (sectorNo : UInt32) :
    readStep env method (w.recached cache rawCache) sectorNo =
      ((readStep env method w sectorNo).1.recached cache rawCache,
        (readStep env method w sectorNo).2) := by
  unfold readStep
  simp only [readDistant_recached, flushCache_recached, ← apply_ite (World.recached · cache rawCache)]
  rfl

theorem dumpChunks_recached (chunks : Chunks) (position : UInt32) (left : Nat)
    (blockCnt size : UInt32) :
    dumpChunks env chunks position left blockCnt size (w.recached cache rawCache) =
      ((dumpChunks env chunks position left blockCnt size w).1.recached cache rawCache,
        (dumpChunks env chunks position left blockCnt size w).2) := by
  induction left generalizing blockCnt size w with
  | zero => rfl
  | succ left ih =>
      rw [dumpChunks, dumpChunks]
      dsimp +instances only [World.recached_drive, World.recached_dvd, World.recached_buf,
        World.recached_withDrive, World.recached_withBuf]
      split
      · rfl
      · exact ih _ _ _

theorem streamStep_recached (method : Nat) (sectorNo cnt : UInt32) :
    streamStep env method sectorNo cnt (w.recached cache rawCache) =
      ((streamStep env method sectorNo cnt w).1.recached cache rawCache,
        (streamStep env method sectorNo cnt w).2) := by
  unfold streamStep
  dsimp +instances only [World.recached_secMem]
  rw [readStep_recached]
  rcases readStep env method w (sectorNo + cnt * w.disc.secMem) with ⟨w₁, ret⟩
  dsimp +instances only
  rw [dumpChunks_recached]
  generalize dumpChunks env _ _ _ _ _ w₁ = dumped
  rcases dumped with ⟨w₂, _ | _⟩
  · split <;> rfl
  · dsimp +instances only [World.recached_buf]
    split
    · simp only [Bool.not_true, Bool.false_eq_true, if_false]
      split <;> rfl
    · rfl

theorem streamLoop_recached (method : Nat) (sectorNo : UInt32) (left : Nat) (cnt : UInt32) :
    streamLoop env method sectorNo left cnt (w.recached cache rawCache) =
      ((streamLoop env method sectorNo left cnt w).1.recached cache rawCache,
        (streamLoop env method sectorNo left cnt w).2) := by
  induction left generalizing cnt w with
  | zero => rfl
  | succ left ih =>
      rw [streamLoop, streamLoop, streamStep_recached]
      rcases streamStep env method sectorNo cnt w with ⟨w₁, _ | _⟩
      · rfl
      · exact ih _ _

theorem unscrambleBlocks_recached (sectorNo : UInt32) (n : Nat) (out : Bool) :
    unscrambleBlocks sectorNo n (w.recached cache rawCache) out =
      ((unscrambleBlocks sectorNo n w out).1.recached cache rawCache,
        (unscrambleBlocks sectorNo n w out).2) := by
  induction n generalizing w out with
  | zero => rfl
  | succ n ih =>
      rw [unscrambleBlocks_succ, unscrambleBlocks_succ]
      exact ih (w.unscrambleBuf (sectorNo + n.toUInt32 * 16) n).1 _

theorem simpleDump_recached (sectorNo : UInt32) :
    simpleDump env sectorNo (w.recached cache rawCache) =
      ((simpleDump env sectorNo w).1.recached cache rawCache, (simpleDump env sectorNo w).2) := by
  unfold simpleDump
  rw [readDistant_recached]
  dsimp +instances only [flushCache_recached, World.recached_drive, World.recached_dvd,
    World.recached_buf, World.recached_withDrive, World.recached_withBuf]
  split
  · split
    · rfl
    · split <;> rfl
  · rfl

/-! ## Methods 7 to 9 -/

theorem beforeEnd_recached (sectorNo : UInt32) (j : Nat) :
    beforeEnd (w.recached cache rawCache) sectorNo j = beforeEnd w sectorNo j := rfl

theorem unscrambleLocal_recached (sectorNo : UInt32) (j : Nat) (arrays : Locals) :
    unscrambleLocal sectorNo j (w.recached cache rawCache) arrays =
      ((unscrambleLocal sectorNo j w arrays).1.recached cache rawCache,
        (unscrambleLocal sectorNo j w arrays).2) := rfl

/-- What a loop over blocks gives, with other bytes in the cache. -/
def recachedLoop {α : Type} (cache rawCache : Nat → Buffer) (result : (World σ × Locals) × α) :
    (World σ × Locals) × α :=
  ((result.1.1.recached cache rawCache, result.1.2), result.2)

theorem dumpBlocks_recached (sectorNo : UInt32) (left j : Nat) (arrays : Locals) :
    dumpBlocks env sectorNo left j (w.recached cache rawCache) arrays =
      recachedLoop cache rawCache (dumpBlocks env sectorNo left j w arrays) := by
  induction left generalizing j w arrays with
  | zero => rfl
  | succ left ih =>
      rw [dumpBlocks, dumpBlocks]
      dsimp +instances only [beforeEnd_recached, World.recached_drive, World.recached_dvd,
        World.recached_withDrive, unscrambleLocal_recached]
      split
      · split
        · rfl
        · generalize unscrambleLocal sectorNo j _ _ = result
          rcases result with ⟨w₁, arrays₁, _ | _⟩
          · rfl
          · exact ih _ _ _
      · rfl

theorem dumpHeaders8_recached (j left k : Nat) (arrays : Locals) (out stop : Bool) :
    dumpHeaders8 env j left k (w.recached cache rawCache) arrays out stop =
      recachedLoop cache rawCache (dumpHeaders8 env j left k w arrays out stop) := by
  induction left generalizing k w arrays out stop with
  | zero => rfl
  | succ left ih =>
      rw [dumpHeaders8, dumpHeaders8]
      dsimp +instances only [World.recached_drive, World.recached_dvd, World.recached_withDrive]
      split
      · exact ih _ _ _ _ _
      · exact ih _ _ _ _ _

theorem dumpHeader9_recached (j k : Nat) (arrays : Locals) (out stop : Bool) :
    dumpHeader9 env j k (w.recached cache rawCache) arrays out stop =
      ((dumpHeader9 env j k w arrays out stop).1.recached cache rawCache,
        (dumpHeader9 env j k w arrays out stop).2) := by
  unfold dumpHeader9
  dsimp +instances only [World.recached_drive, World.recached_dvd, World.recached_withDrive]
  split
  · split <;> rfl
  · rfl

theorem dumpHeaders9_recached (j left k : Nat) (arrays : Locals) (out stop : Bool) :
    dumpHeaders9 env j left k (w.recached cache rawCache) arrays out stop =
      recachedLoop cache rawCache (dumpHeaders9 env j left k w arrays out stop) := by
  induction left generalizing k w arrays out stop with
  | zero => rfl
  | succ left ih =>
      rw [dumpHeaders9, dumpHeaders9, dumpHeader9_recached]
      rcases dumpHeader9 env j k w arrays out stop with ⟨w₁, arrays₁, out₁, stop₁⟩
      dsimp +instances only [World.recached_drive, World.recached_dvd, World.recached_withDrive]
      split
      · split
        · exact ih _ _ _ _ _
        · exact ih _ _ _ _ _
      · exact ih _ _ _ _ _

theorem reconstructBlocks_recached
    {headers : Nat → World σ → Locals → (World σ × Locals) × Bool × Bool}
    (same : ∀ j w arrays, headers j (w.recached cache rawCache) arrays =
      recachedLoop cache rawCache (headers j w arrays))
    (sectorNo : UInt32) (left j : Nat) (arrays : Locals) :
    reconstructBlocks headers sectorNo left j (w.recached cache rawCache) arrays =
      recachedLoop cache rawCache (reconstructBlocks headers sectorNo left j w arrays) := by
  induction left generalizing j w arrays with
  | zero => rfl
  | succ left ih =>
      rw [reconstructBlocks, reconstructBlocks, same, beforeEnd_recached]
      split
      · rcases headers j w arrays with ⟨⟨w₁, arrays₁⟩, _ | _, stop⟩
        · rfl
        · exact ih _ _ _
      · rfl

theorem readBlock_recached (sectorNo : UInt32) (j : Nat) (arrays : Locals) :
    readBlock env sectorNo j (w.recached cache rawCache) arrays =
      ((readBlock env sectorNo j w arrays).1.recached cache rawCache,
        (readBlock env sectorNo j w arrays).2) := by
  unfold readBlock
  split <;> rfl

theorem fillBlocks_recached (sectorNo : UInt32) (left j : Nat) (arrays : Locals) :
    fillBlocks env sectorNo left j (w.recached cache rawCache) arrays =
      recachedLoop cache rawCache (fillBlocks env sectorNo left j w arrays) := by
  induction left generalizing j w arrays with
  | zero => rfl
  | succ left ih =>
      rw [fillBlocks, fillBlocks, readBlock_recached, beforeEnd_recached]
      split
      · rcases readBlock env sectorNo j w arrays with ⟨w₁, arrays₁, ret⟩
        simp only [unscrambleLocal_recached]
        split
        · generalize unscrambleLocal sectorNo j _ _ = result
          rcases result with ⟨w₂, arrays₂, _ | _⟩
          · rfl
          · exact ih _ _ _
        · rfl
      · rfl

/-! ## Tries in step -/

/-- Two runs of the retry loop whose tries stay in step end alike. -/
theorem retryLoop_related {α β : Type} (R : α → β → Prop)
    {attempt : Nat → α → α × Bool × Bool} {attempt' : Nat → β → β × Bool × Bool}
    (step : ∀ retry state state', R state state' →
      R (attempt retry state).1 (attempt' retry state').1 ∧
        (attempt retry state).2 = (attempt' retry state').2)
    (left retry : Nat) {state : α} {state' : β} (start : R state state') :
    R (retryLoop attempt left retry state).1 (retryLoop attempt' left retry state').1 ∧
      (retryLoop attempt left retry state).2 = (retryLoop attempt' left retry state').2 := by
  induction left generalizing retry state state' with
  | zero => exact ⟨start, rfl⟩
  | succ left ih =>
      obtain ⟨related, same⟩ := step retry state state' start
      rw [retryLoop, retryLoop]
      rcases tried : attempt retry state with ⟨next, out, stop⟩
      rcases tried' : attempt' retry state' with ⟨next', out', stop'⟩
      rw [tried, tried'] at related same
      obtain ⟨rfl, rfl⟩ := Prod.mk.inj same
      cases out with
      | true => exact ⟨related, rfl⟩
      | false =>
          cases stop with
          | true => exact ⟨related, rfl⟩
          | false => exact ih (retry + 1) related

end Reading

end Friidump
