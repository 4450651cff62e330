import Friidump.MethodAgreement

/-!
# The record of the READ commands

Whatever a function does, it puts its commands before those recorded already.
-/

set_option autoImplicit false

namespace Friidump

/-- The drive comes with the READ commands it was sent, the last one first. -/
abbrev Recording (σ : Type) := World (σ × List (List UInt8))

section Drives

variable {σ : Type} (env : Env σ) (drive : σ × List (List UInt8))

theorem dvdExecuteCmd_suffix (mmc : MmcCommand) (ignoreErrors : Bool) :
    drive.2 <:+ (dvdExecuteCmd env.recording drive mmc ignoreErrors).drive.2 := by
  unfold dvdExecuteCmd Env.recording
  dsimp only
  split
  · exact List.suffix_cons mmc.cmd drive.2
  · exact List.suffix_refl drive.2

/-- A READ is recorded. -/
theorem dvdExecuteCmd_recorded {mmc : MmcCommand} (read : mmc.cmd.head? = some 0xA8)
    (ignoreErrors : Bool) :
    (dvdExecuteCmd env.recording drive mmc ignoreErrors).drive.2 = mmc.cmd :: drive.2 :=
  if_pos read

/-! No dump is a READ. -/

theorem dvdExecuteCmd_silent {mmc : MmcCommand} (other : mmc.cmd.head? ≠ some 0xA8)
    (ignoreErrors : Bool) :
    (dvdExecuteCmd env.recording drive mmc ignoreErrors).drive.2 = drive.2 :=
  if_neg other

theorem sequencedDumpMemblock_silent {cmd : List UInt8} (other : cmd.head? ≠ some 0xA8)
    (blockSize : UInt32) (buf : Buffer) :
    (sequencedDumpMemblock env.recording drive cmd blockSize buf).drive.2 = drive.2 := by
  unfold sequencedDumpMemblock
  split
  · rfl
  · exact dvdExecuteCmd_silent env drive other false

theorem rawDumpMemblock_silent (decode : Buffer → Buffer) (sub1 sub2 : UInt8)
    (limit offset blockSize : UInt32) (buf : Buffer) :
    (rawDumpMemblock env.recording drive decode sub1 sub2 limit offset blockSize buf).drive.2 =
      drive.2 := by
  unfold rawDumpMemblock
  dsimp only
  split
  · rfl
  · refine dvdExecuteCmd_silent env drive ?_ false
    exact fun same => absurd (Option.some.inj same) (by decide)

theorem hitachiDvdDumpMemblock_silent (offset blockSize : UInt32) (buf : Buffer) :
    (hitachiDvdDumpMemblock env.recording drive offset blockSize buf).drive.2 = drive.2 := by
  unfold hitachiDvdDumpMemblock
  split
  · rfl
  · refine dvdExecuteCmd_silent env drive ?_ false
    exact fun same => absurd (Option.some.inj same) (by decide)

theorem memblock_silent (f : MemdumpFunc) (offset blockSize : UInt32) (buf : Buffer) :
    (f.memblock env.recording drive offset blockSize buf).drive.2 = drive.2 := by
  cases f with
  | vanilla2064 =>
      exact sequencedDumpMemblock_silent env drive (MemdumpFunc.vanilla2064.command_head offset blockSize) _ _
  | vanilla2384 => exact rawDumpMemblock_silent env drive _ _ _ _ _ _ _
  | hitachi => exact hitachiDvdDumpMemblock_silent env drive _ _ _
  | liteon => exact rawDumpMemblock_silent env drive _ _ _ _ _ _ _
  | renesas =>
      exact sequencedDumpMemblock_silent env drive (MemdumpFunc.renesas.command_head offset blockSize) _ _

theorem dumpMemLoop_silent (f : MemdumpFunc) (offset blockSize : UInt32) (left : Nat) (i : UInt32)
    (r : Int) (buf : Buffer) :
    (dumpMemLoop (f.memblock env.recording) offset blockSize left i r drive buf).drive.2 = drive.2 := by
  induction left generalizing i r drive buf with
  | zero => rfl
  | succ left ih =>
      have first := memblock_silent env drive f (offset + i * blockSize) blockSize
        (buf.advance (i * blockSize).toNat)
      rw [dumpMemLoop]
      split
      · exact first
      · exact (ih _ _ _ _).trans first

theorem dvdMemdump_silent (f : MemdumpFunc) (blockOff blockLen blockSize : UInt32) (buf : Buffer) :
    (dvdMemdump env.recording f drive blockOff blockLen blockSize buf).drive.2 = drive.2 :=
  dumpMemLoop_silent env drive f _ _ _ _ _ _

end Drives

/-! ## The functions of the disc -/

section Reading

variable {σ : Type}

/-- The commands between two states come before those recorded at the first one. -/
def Grows (w w' : Recording σ) : Prop := w.drive.2 <:+ w'.drive.2

theorem Grows.of_drive {w w' : Recording σ} (same : w'.drive = w.drive) : Grows w w' :=
  ⟨[], congrArg Prod.snd same.symm⟩

theorem Grows.frame (env : Env σ) : UnscrambleFrame env.recording Grows where
  refl _ := List.suffix_refl _
  trans := List.IsSuffix.trans
  command w mmc := dvdExecuteCmd_suffix env w.drive mmc true
  memdump w _ _ _ := ⟨[], (dvdMemdump_silent env w.drive _ _ _ _ _).symm⟩
  withBuf _ _ := .of_drive rfl
  withBufUnscrambled _ _ := .of_drive rfl
  unscrambleAt _ _ _ _ _ := .of_drive rfl

theorem cacheLocals_drive (sectorNo : UInt32) (left j : Nat) (w : Recording σ) (arrays : Locals) :
    (cacheLocals sectorNo left j w arrays).1.drive = w.drive := by
  induction left generalizing j w arrays with
  | zero => rfl
  | succ left ih =>
      rw [cacheLocals]
      split
      · exact ih _ _ _
      · rfl

end Reading

end Friidump
