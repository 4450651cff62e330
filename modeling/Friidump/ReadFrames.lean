import Friidump.DiscReadMethods

/-!
# Frames of a read

A relation between states that every command, dump and change of a buffer satisfies
holds over all that a read does before it caches the blocks. Where only dumps and changes of
buffers satisfy it, it holds over the parts of a read that send no other command.
-/

set_option autoImplicit false

namespace Friidump

/-- The states before and after a dump or a change of a global buffer are related. -/
structure DumpFrame {σ : Type} (env : Env σ) (R : World σ → World σ → Prop) : Prop where
  refl (w : World σ) : R w w
  trans {w w' w'' : World σ} (first : R w w') (second : R w' w'') : R w w''
  memdump (w : World σ) (offset size : UInt32) (buf : Buffer) :
    R w (w.withDrive (dvdMemdump env w.disc.dvd.memdump w.drive offset 1 size buf).drive)
  withBuf (w : World σ) (buf : Buffer) : R w (w.withBuf buf)
  withBufUnscrambled (w : World σ) (buf : Buffer) : R w (w.withBufUnscrambled buf)

/-- So are those before and after any other command. -/
structure ReadFrame {σ : Type} (env : Env σ) (R : World σ → World σ → Prop) : Prop
    extends DumpFrame env R where
  command (w : World σ) (mmc : MmcCommand) :
    R w (w.withDrive (dvdExecuteCmd env w.drive mmc true).drive)

/-- And those before and after a call of the unscrambler. -/
structure UnscrambleFrame {σ : Type} (env : Env σ) (R : World σ → World σ → Prop) : Prop
    extends ReadFrame env R where
  unscrambleAt (w : World σ) (sectorNo : UInt32) (cnt : Nat) (buf bufUnscrambled : Buffer) :
    R w (w.unscrambleAt sectorNo cnt buf bufUnscrambled).world

/-! ## Dumps -/

namespace DumpFrame

variable {σ : Type} {env : Env σ} {R : World σ → World σ → Prop}

theorem memdump_withBuf (frame : DumpFrame env R) (w : World σ) (offset size : UInt32)
    (buf buf' : Buffer) :
    R w ((w.withDrive
      (dvdMemdump env w.disc.dvd.memdump w.drive offset 1 size buf).drive).withBuf buf') :=
  frame.trans (frame.memdump w offset size buf) (frame.withBuf _ buf')

theorem dumpChunks (frame : DumpFrame env R) (chunks : Chunks) (position : UInt32) (left : Nat)
    (blockCnt size : UInt32) (w : World σ) :
    R w (dumpChunks env chunks position left blockCnt size w).1 := by
  induction left generalizing blockCnt size w with
  | zero => exact frame.refl w
  | succ left ih =>
      have dumped := frame.memdump_withBuf w (blockCnt * 27 * 2064) size
        (w.buf.advance (position + blockCnt * 27 * 2064).toNat)
      rw [Friidump.dumpChunks]
      split
      · exact dumped _
      · exact frame.trans (dumped _) (ih _ _ _)

theorem streamStep_after (frame : DumpFrame env R) {method : Nat} {sectorNo cnt : UInt32}
    {w : World σ} :
    R (Friidump.readStep env method w (sectorNo + cnt * w.disc.secMem)).1
      (streamStep env method sectorNo cnt w).1 := by
  unfold streamStep
  dsimp only
  split
  · split
    · exact frame.dumpChunks ..
    · split <;> exact frame.dumpChunks ..
  · exact frame.refl _

theorem dumpHeaders8 (frame : DumpFrame env R) (j left k : Nat) (w : World σ) (arrays : Locals)
    (out stop : Bool) : R w (dumpHeaders8 env j left k w arrays out stop).1.1 := by
  induction left generalizing k w arrays out stop with
  | zero => exact frame.refl w
  | succ left ih =>
      have header := frame.memdump w (j * 33024 + k * 2064).toUInt32 12
        (arrays.buf.advance (j * 33024 + k * 2064))
      rw [Friidump.dumpHeaders8]
      dsimp only
      split
      · exact frame.trans header (ih _ _ _ _ _)
      · exact frame.trans (frame.trans header (frame.memdump _ _ _ _)) (ih _ _ _ _ _)

theorem dumpHeader9 (frame : DumpFrame env R) (j k : Nat) (w : World σ) (arrays : Locals)
    (out stop : Bool) : R w (dumpHeader9 env j k w arrays out stop).1 := by
  unfold Friidump.dumpHeader9
  dsimp only
  split
  · split <;> exact frame.memdump w _ _ _
  · exact frame.refl w

theorem dumpHeaders9 (frame : DumpFrame env R) (j left k : Nat) (w : World σ) (arrays : Locals)
    (out stop : Bool) : R w (dumpHeaders9 env j left k w arrays out stop).1.1 := by
  induction left generalizing k w arrays out stop with
  | zero => exact frame.refl w
  | succ left ih =>
      have header := frame.dumpHeader9 j k w arrays out stop
      rw [Friidump.dumpHeaders9]
      rcases read : Friidump.dumpHeader9 env j k w arrays out stop with ⟨w₁, arrays₁, out₁, stop₁⟩
      rw [read] at header
      dsimp only
      split
      · have dumped := frame.trans header (frame.memdump w₁
          ((j * 33024 + k * 2064).toUInt32 + 2060) 16 arrays₁.tmp)
        split
        · exact frame.trans dumped (ih _ _ _ _ _)
        · exact frame.trans dumped (ih _ _ _ _ _)
      · exact frame.trans header (ih _ _ _ _ _)

theorem reconstructBlocks (frame : DumpFrame env R)
    {headers : Nat → World σ → Locals → (World σ × Locals) × Bool × Bool}
    (header : ∀ j w arrays, R w (headers j w arrays).1.1) (sectorNo : UInt32) (left j : Nat)
    (w : World σ) (arrays : Locals) :
    R w (reconstructBlocks headers sectorNo left j w arrays).1.1 := by
  induction left generalizing j w arrays with
  | zero => exact frame.refl w
  | succ left ih =>
      rw [Friidump.reconstructBlocks]
      split
      · have read := header j w arrays
        rcases result : headers j w arrays with ⟨⟨w₁, arrays₁⟩, success, stop⟩
        rw [result] at read
        cases success with
        | true => exact frame.trans read (ih _ _ _)
        | false => exact read
      · exact frame.refl w

theorem dumpBlocks (frame : DumpFrame env R)
    (unscrambled : ∀ w sectorNo j arrays, R w (unscrambleLocal sectorNo j w arrays).1)
    (sectorNo : UInt32) (left j : Nat) (w : World σ) (arrays : Locals) :
    R w (dumpBlocks env sectorNo left j w arrays).1.1 := by
  induction left generalizing j w arrays with
  | zero => exact frame.refl w
  | succ left ih =>
      rw [Friidump.dumpBlocks]
      split
      · extract_lets dumped driven spliced
        have command : R w driven := frame.memdump w _ _ _
        split
        · exact command
        · have block := unscrambled driven sectorNo j spliced
          rcases result : Friidump.unscrambleLocal sectorNo j driven spliced with
            ⟨w₁, arrays₁, success⟩
          rw [result] at block
          have before := frame.trans command block
          cases success with
          | true => exact frame.trans before (ih _ _ _)
          | false => exact before
      · exact frame.refl w

end DumpFrame

namespace ReadFrame

variable {σ : Type} {env : Env σ} {R : World σ → World σ → Prop}

/-! ## Methods 0 to 6 -/

theorem readDistant (frame : ReadFrame env R) (w : World σ) (sectorNo : UInt32) :
    R w (readDistant env w sectorNo) := by
  unfold Friidump.readDistant
  split
  · exact frame.command w _
  · split <;> exact frame.command w _

theorem flushCache (frame : ReadFrame env R) (w : World σ) (sectorNo : UInt32) :
    R w (flushCache env w sectorNo) :=
  frame.command w _

/-- The READ of a step after the commands that go before it. -/
theorem readStep_after (frame : ReadFrame env R) {method : Nat} {w : World σ} {sectorNo : UInt32}
    {w₁ : World σ} (displaced : w₁ = if method = 0 ∨ method = 1 ∨ method = 4 then
      Friidump.readDistant env w sectorNo else w) :
    R w₁ (readStep env method w sectorNo).1 := by
  have flushed : R w₁ (if method = 0 ∨ method = 2 ∨ method = 5 then
      Friidump.flushCache env w₁ sectorNo else w₁) := by
    split
    · exact frame.flushCache w₁ sectorNo
    · exact frame.refl w₁
  have read : ∀ (w : World σ) (sectors : UInt32) (extbuf : Option (Buffer × Nat)),
      R w (w.withDrive (if method = 4 ∨ method = 5 ∨ method = 6 then
        dvdReadStreaming env w.drive sectorNo sectors extbuf
      else dvdReadSectorDummy env w.drive sectorNo sectors extbuf).drive) := by
    intro w sectors extbuf
    split
    · exact frame.command w _
    · exact frame.command w _
  unfold readStep
  rw [← displaced]
  exact frame.trans (frame.trans flushed (read _ _ _)) (frame.withBufUnscrambled _ _)

theorem readStep (frame : ReadFrame env R) (method : Nat) (w : World σ) (sectorNo : UInt32) :
    R w (readStep env method w sectorNo).1 := by
  refine frame.trans ?_ (frame.readStep_after rfl)
  split
  · exact frame.readDistant w sectorNo
  · exact frame.refl w

theorem streamStep (frame : ReadFrame env R) (method : Nat) (sectorNo cnt : UInt32) (w : World σ) :
    R w (streamStep env method sectorNo cnt w).1 :=
  frame.trans (frame.readStep method w _) frame.streamStep_after

theorem streamLoop (frame : ReadFrame env R) (method : Nat) (sectorNo : UInt32) (left : Nat)
    (cnt : UInt32) (w : World σ) : R w (streamLoop env method sectorNo left cnt w).1 := by
  induction left generalizing cnt w with
  | zero => exact frame.refl w
  | succ left ih =>
      have step := frame.streamStep method sectorNo cnt w
      rw [Friidump.streamLoop]
      rcases stepped : Friidump.streamStep env method sectorNo cnt w with ⟨w', out⟩
      rw [stepped] at step
      cases out with
      | true => exact frame.trans step (ih _ w')
      | false => exact step

theorem simpleDump_after (frame : ReadFrame env R) (w : World σ) (sectorNo : UInt32) :
    R (Friidump.readDistant env w sectorNo) (simpleDump env sectorNo w).1 := by
  have flushed := frame.flushCache (Friidump.readDistant env w sectorNo) sectorNo
  unfold simpleDump
  extract_lets distant flushedWorld executed readWorld dump dumpWorld
  have read : R distant readWorld := frame.trans flushed (frame.command _ _)
  have dumped : R distant dumpWorld :=
    frame.trans read (frame.memdump_withBuf readWorld 0 33024 _ _)
  split
  · split
    · exact dumped
    · split <;> exact dumped
  · exact read

theorem simpleDump (frame : ReadFrame env R) (sectorNo : UInt32) (w : World σ) :
    R w (simpleDump env sectorNo w).1 :=
  frame.trans (frame.readDistant w sectorNo) (frame.simpleDump_after w sectorNo)

/-! ## Methods 7 to 9 -/

theorem retried (frame : ReadFrame env R) (w : World σ) (sectorNo : UInt32) (retry : Nat) :
    R w (if 0 < retry then Friidump.readDistant env w sectorNo else w) := by
  split
  · exact frame.readDistant w sectorNo
  · exact frame.refl w

theorem readBlock (frame : ReadFrame env R) (sectorNo : UInt32) (j : Nat) (w : World σ)
    (arrays : Locals) : R w (readBlock env sectorNo j w arrays).1 := by
  unfold Friidump.readBlock
  split
  · exact frame.refl w
  · exact frame.command w _

end ReadFrame

namespace UnscrambleFrame

variable {σ : Type} {env : Env σ} {R : World σ → World σ → Prop}

theorem unscrambleLocal (frame : UnscrambleFrame env R) (sectorNo : UInt32) (j : Nat) (w : World σ)
    (arrays : Locals) : R w (unscrambleLocal sectorNo j w arrays).1 :=
  frame.unscrambleAt w _ _ _ _

theorem dumpBlocks (frame : UnscrambleFrame env R) (sectorNo : UInt32) (left j : Nat) (w : World σ)
    (arrays : Locals) : R w (dumpBlocks env sectorNo left j w arrays).1.1 :=
  frame.toDumpFrame.dumpBlocks (fun w sectorNo j arrays => frame.unscrambleLocal sectorNo j w arrays)
    sectorNo left j w arrays

theorem fillBlocks (frame : UnscrambleFrame env R) (sectorNo : UInt32) (left j : Nat) (w : World σ)
    (arrays : Locals) : R w (fillBlocks env sectorNo left j w arrays).1.1 := by
  induction left generalizing j w arrays with
  | zero => exact frame.refl w
  | succ left ih =>
      rw [Friidump.fillBlocks]
      split
      · have read := frame.readBlock sectorNo j w arrays
        rcases executed : Friidump.readBlock env sectorNo j w arrays with ⟨w₀, arrays₀, ret⟩
        rw [executed] at read
        have unscrambled := frame.unscrambleLocal sectorNo j w₀ (arrays₀.fill j)
        dsimp only
        split
        · rcases result : Friidump.unscrambleLocal sectorNo j w₀ (arrays₀.fill j) with
            ⟨w₁, arrays₁, success⟩
          rw [result] at unscrambled
          have before := frame.trans read unscrambled
          cases success with
          | true => exact frame.trans before (ih _ _ _)
          | false => exact before
        · exact read
      · exact frame.refl w

end UnscrambleFrame

end Friidump
