import Friidump.CommandRecord
import Friidump.CountingDrive

/-!
# The reads that displace the drive's cache

Which sector they address, and for which discs and sectors it is one of the disc.
-/

set_option autoImplicit false

namespace Friidump

/-! ## Commands -/

/-- The command of `dvd_read_sector_dummy` for 16 sectors. -/
def dummyRead (lba : UInt32) : List UInt8 := [0xA8, 0x08] ++ msbToLsb lba ++ msbToLsb 16 ++ [0, 0]

/-- The command of `dvd_read_sector_streaming`. -/
def blockRead (lba : UInt32) : List UInt8 := [0xA8, 0] ++ msbToLsb lba ++ [0, 0, 0, 0x10, 0x80, 0]

/-- The command of `dvd_flush_cache_READ12`. -/
def flushRead (lba : UInt32) : List UInt8 := [0xA8, 0x08] ++ msbToLsb lba ++ [0, 0, 0, 0, 0, 0]

theorem msbToLsb_injective {lba lba' : UInt32} (same : msbToLsb lba = msbToLsb lba') : lba = lba' := by
  rw [← wordOf_msbToLsb lba, same, wordOf_msbToLsb]

theorem dummyRead_injective {lba lba' : UInt32} (same : dummyRead lba = dummyRead lba') : lba = lba' :=
  msbToLsb_injective (congrArg (fun cmd => (cmd.drop 2).take 4) same)

theorem blockRead_injective {lba lba' : UInt32} (same : blockRead lba = blockRead lba') : lba = lba' :=
  msbToLsb_injective (congrArg (fun cmd => (cmd.drop 2).take 4) same)

theorem dummyRead_ne_flushRead (lba lba' : UInt32) : dummyRead lba ≠ flushRead lba' := by
  intro same
  have length : some (16 : UInt8) = some 0 := congrArg (fun cmd => cmd[9]?) same
  cases length

theorem blockRead_ne_flushRead (lba lba' : UInt32) : blockRead lba ≠ flushRead lba' := by
  intro same
  have length : some (0x10 : UInt8) = some 0 := congrArg (fun cmd => cmd[9]?) same
  cases length

/-! ## Displacements -/

/-- A READ of a sector `up` ahead or `down` behind. The one ahead has to be `margin` sectors
before the end of the disc. -/
structure Displacement where
  read : UInt32 → List UInt8
  up : Nat
  margin : Nat
  down : Nat
  injective : ∀ {lba lba'}, read lba = read lba' → lba = lba'
  apart : ∀ lba lba', read lba ≠ flushRead lba'

/-- The read before a step of the streaming pass, a simple read or a further try. -/
def Displacement.distant : Displacement where
  read := dummyRead
  up := 992
  margin := 16
  down := 992
  injective := dummyRead_injective
  apart := dummyRead_ne_flushRead

/-- The read of methods 8 and 9. -/
def Displacement.ahead : Displacement where
  read := blockRead
  up := 80
  margin := 1
  down := 160
  injective := blockRead_injective
  apart := blockRead_ne_flushRead

namespace Displacement

/-- One of the neighbours of sector `s` is on a disc with so many sectors. -/
def Fits (d : Displacement) (sectorsNo : UInt32) (s : Nat) : Prop :=
  s + d.up + d.margin ≤ sectorsNo.toNat ∨ d.down ≤ s

/-- The command addresses a neighbour on the disc, or is the fallback where none fits. -/
inductive OnDisc (d : Displacement) (sectorsNo : UInt32) (s : Nat) : List UInt8 → Prop
  | ahead {lba : UInt32} (fits : d.Fits sectorsNo s) (place : lba.toNat = s + d.up)
      (inside : lba < sectorsNo) : OnDisc d sectorsNo s (d.read lba)
  | behind {lba : UInt32} (fits : d.Fits sectorsNo s) (place : lba.toNat + d.down = s)
      (inside : lba < sectorsNo) : OnDisc d sectorsNo s (d.read lba)
  | fallback {lba : UInt32} (none : ¬ d.Fits sectorsNo s) (place : lba.toNat = s) :
      OnDisc d sectorsNo s (flushRead lba)

theorem onDisc_read_iff (d : Displacement) (sectorsNo : UInt32) (s : Nat) (lba : UInt32) :
    d.OnDisc sectorsNo s (d.read lba) ↔
      d.Fits sectorsNo s ∧ lba < sectorsNo ∧ (lba.toNat = s + d.up ∨ lba.toNat + d.down = s) := by
  constructor
  · intro onDisc
    generalize same : d.read lba = cmd at onDisc
    cases onDisc with
    | ahead fits place inside =>
        cases d.injective same
        exact ⟨fits, inside, .inl place⟩
    | behind fits place inside =>
        cases d.injective same
        exact ⟨fits, inside, .inr place⟩
    | fallback => exact absurd same (d.apart _ _)
  · rintro ⟨fits, inside, place | place⟩
    · exact .ahead fits place inside
    · exact .behind fits place inside

end Displacement

/-! ## The guards -/

/-- The sector that the two guards of the distant read pick. The second one always holds. -/
def distantSector (sectorsNo s : UInt32) : UInt32 :=
  if s + 992 + 16 ≤ sectorsNo then s + 992 else s - 992

/-- The sector that the guard of methods 8 and 9 picks. -/
def aheadSector (sectorsNo s : UInt32) : UInt32 :=
  if sectorsNo - 1000 < s then s - 16 * 5 * 2 else s + 16 * 5

/-- A neighbour fits and the sums of the guard do not wrap, or the one ahead is on the disc all the same. -/
def DistantFits (sectorsNo : UInt32) (s : Nat) : Prop :=
  if s + 1008 < 2 ^ 32 then s + 1008 ≤ sectorsNo.toNat ∨ 992 ≤ s else s + 992 < sectorsNo.toNat

/-- The sector ahead is on a disc of less than 1000 sectors, where the guard wraps; on any other the
guard leaves room ahead or there is room behind. -/
def AheadFits (sectorsNo : UInt32) (s : Nat) : Prop :=
  if sectorsNo.toNat < 1000 then s + 80 < sectorsNo.toNat else s + 1000 ≤ sectorsNo.toNat ∨ 160 ≤ s

section Guards

open Displacement

variable {sectorsNo s : UInt32}

theorem distantSector_onDisc_iff (before : s < sectorsNo) :
    distant.OnDisc sectorsNo s.toNat (dummyRead (distantSector sectorsNo s)) ↔
      DistantFits sectorsNo s.toNat := by
  have inside : s.toNat < sectorsNo.toNat := UInt32.lt_iff_toNat_lt.mp before
  have bound := sectorsNo.toNat_lt
  have up : (s + 992).toNat = (s.toNat + 992) % 2 ^ 32 := UInt32.toNat_add s 992
  have reach : (s + 992 + 16).toNat = ((s.toNat + 992) % 2 ^ 32 + 16) % 2 ^ 32 := by
    rw [UInt32.toNat_add, up]
    rfl
  have down : (s - 992).toNat = (2 ^ 32 - 992 + s.toNat) % 2 ^ 32 := UInt32.toNat_sub s 992
  refine (distant.onDisc_read_iff sectorsNo s.toNat _).trans ?_
  simp only [distant, Fits, DistantFits, distantSector]
  by_cases fits : s + 992 + 16 ≤ sectorsNo
  · have within := UInt32.le_iff_toNat_le.mp fits
    rw [if_pos fits, UInt32.lt_iff_toNat_lt, up]
    split <;> omega
  · have beyond := mt UInt32.le_iff_toNat_le.mpr fits
    rw [if_neg fits, UInt32.lt_iff_toNat_lt, down]
    split <;> omega

theorem aheadSector_onDisc_iff (before : s < sectorsNo) :
    ahead.OnDisc sectorsNo s.toNat (blockRead (aheadSector sectorsNo s)) ↔
      AheadFits sectorsNo s.toNat := by
  have inside : s.toNat < sectorsNo.toNat := UInt32.lt_iff_toNat_lt.mp before
  have bound := sectorsNo.toNat_lt
  have up : (s + 16 * 5).toNat = (s.toNat + 80) % 2 ^ 32 := UInt32.toNat_add s 80
  have down : (s - 16 * 5 * 2).toNat = (2 ^ 32 - 160 + s.toNat) % 2 ^ 32 := UInt32.toNat_sub s 160
  have limit : (sectorsNo - 1000).toNat = (2 ^ 32 - 1000 + sectorsNo.toNat) % 2 ^ 32 :=
    UInt32.toNat_sub sectorsNo 1000
  refine (ahead.onDisc_read_iff sectorsNo s.toNat _).trans ?_
  simp only [ahead, Fits, AheadFits, aheadSector]
  by_cases late : sectorsNo - 1000 < s
  · have after := UInt32.lt_iff_toNat_lt.mp late
    rw [if_pos late, UInt32.lt_iff_toNat_lt, down]
    split <;> omega
  · have notAfter := mt UInt32.lt_iff_toNat_lt.mpr late
    rw [if_neg late, UInt32.lt_iff_toNat_lt, up]
    split <;> omega

end Guards

/-! ## What the routines send -/

section Routines

variable {σ : Type}

/-- The first READ commands from `w` on, the last one first. -/
def Sends (cmds : List (List UInt8)) (w w' : Recording σ) : Prop :=
  cmds ++ w.drive.2 <:+ w'.drive.2

theorem Sends.of_recorded {cmds : List (List UInt8)} {w w' : Recording σ}
    (recorded : w'.drive.2 = cmds ++ w.drive.2) : Sends cmds w w' :=
  ⟨[], recorded.symm⟩

theorem Sends.grow {cmds : List (List UInt8)} {w w' w'' : Recording σ}
    (sent : Sends cmds w w') (later : Grows w' w'') : Sends cmds w w'' :=
  List.IsSuffix.trans sent later

theorem Sends.unique {cmds cmds' : List (List UInt8)} {w w' : Recording σ}
    (sent : Sends cmds w w') (sent' : Sends cmds' w w') (same : cmds.length = cmds'.length) :
    cmds = cmds' := by
  have total : (cmds ++ w.drive.2).length = (cmds' ++ w.drive.2).length := by simp [same]
  have suffix := List.suffix_of_suffix_length_le sent sent' (Nat.le_of_eq total)
  exact List.append_cancel_right (suffix.eq_of_length total)

/-- From `w` on, the first READ commands are displacing ones for sector `s` that stay on the disc. -/
def Displaces (displacements : List Displacement) (s : Nat) (w w' : Recording σ) : Prop :=
  ∃ cmds, Sends cmds w w' ∧
    List.Forall₂ (fun d cmd => d.OnDisc w.disc.sectorsNo s cmd) displacements cmds

theorem Sends.displaces_iff {displacements : List Displacement} {cmds : List (List UInt8)} {s : Nat}
    {w w' : Recording σ} (sent : Sends cmds w w') (same : cmds.length = displacements.length) :
    Displaces displacements s w w' ↔
      List.Forall₂ (fun d cmd => d.OnDisc w.disc.sectorsNo s cmd) displacements cmds := by
  constructor
  · rintro ⟨cmds', sent', stay⟩
    cases sent.unique sent' (same.trans stay.length_eq)
    exact stay
  · intro stay
    exact ⟨cmds, sent, stay⟩

open Displacement

theorem Sends.distant_iff {s : UInt32} {w w' : Recording σ}
    (sent : Sends [dummyRead (distantSector w.disc.sectorsNo s)] w w')
    (before : s < w.disc.sectorsNo) :
    Displaces [distant] s.toNat w w' ↔ DistantFits w.disc.sectorsNo s.toNat := by
  rw [sent.displaces_iff rfl]
  simp [distantSector_onDisc_iff before]

variable (env : Env σ) (sectorNo : UInt32)

theorem readDistant_recorded (w : Recording σ) :
    (readDistant env.recording w sectorNo).drive.2 =
      dummyRead (distantSector w.disc.sectorsNo sectorNo) :: w.drive.2 := by
  have lowest : 0 ≤ sectorNo - 992 := UInt32.le_iff_toNat_le.mpr (Nat.zero_le _)
  unfold readDistant distantSector
  rw [if_pos lowest]
  split
  · exact dvdExecuteCmd_recorded env w.drive rfl true
  · exact dvdExecuteCmd_recorded env w.drive rfl true

theorem readDistant_disc (w : Recording σ) :
    (readDistant env.recording w sectorNo).disc = w.disc := by
  unfold readDistant
  split
  · rfl
  · split <;> rfl

theorem readDistant_sends (w : Recording σ) :
    Sends [dummyRead (distantSector w.disc.sectorsNo sectorNo)] w
      (readDistant env.recording w sectorNo) :=
  .of_recorded (readDistant_recorded env sectorNo w)

theorem streamStep_sends {method : Nat} (displacing : method = 0 ∨ method = 1 ∨ method = 4)
    (cnt : UInt32) (w : Recording σ) :
    Sends [dummyRead (distantSector w.disc.sectorsNo (sectorNo + cnt * w.disc.secMem))] w
      (streamStep env.recording method sectorNo cnt w).1 := by
  have displaced := readDistant_sends env (sectorNo + cnt * w.disc.secMem) w
  have read := displaced.grow ((Grows.frame env).readStep_after (if_pos displacing).symm)
  exact read.grow (Grows.frame env).streamStep_after

theorem simpleRead_sends (w : Recording σ) :
    Sends [dummyRead (distantSector w.disc.sectorsNo sectorNo)] w
      (simpleRead env.recording sectorNo w).1 := by
  have dumped := (readDistant_sends env sectorNo w).grow ((Grows.frame env).simpleDump_after w sectorNo)
  unfold simpleRead
  rcases result : simpleDump env.recording sectorNo w with ⟨w₁, out⟩
  rw [result] at dumped
  dsimp only
  split
  · split <;> exact dumped.grow (.of_drive rfl)
  · exact dumped

theorem attempt7_sends {retry : Nat} (again : 0 < retry) (w : Recording σ) (arrays : Locals) :
    Sends [dummyRead (distantSector w.disc.sectorsNo sectorNo)] w
      (attempt7 env.recording sectorNo retry (w, arrays)).1.1 := by
  have displaced := readDistant_sends env sectorNo w
  unfold attempt7
  rw [if_pos again]
  extract_lets distant executed driven
  have read : Sends [_] w driven := displaced.grow ((Grows.frame env).command distant _)
  split
  · have dumped := read.grow ((Grows.frame env).dumpBlocks sectorNo 5 0 driven arrays)
    rcases result : dumpBlocks env.recording sectorNo 5 0 driven arrays with
      ⟨⟨w₁, arrays₁⟩, success, stop⟩
    rw [result] at dumped
    cases success with
    | true => exact dumped.grow (.of_drive (cacheLocals_drive sectorNo 5 0 w₁ arrays₁))
    | false => exact dumped
  · exact read

/-- The displacing commands of a try of method 8 or 9, the last one first. -/
def displacing89 (sectorsNo s : UInt32) (retry : Nat) : List (List UInt8) :=
  if 0 < retry then [blockRead (aheadSector sectorsNo s), dummyRead (distantSector sectorsNo s)]
  else [blockRead (aheadSector sectorsNo s)]

/-- What they should be. -/
def displacements89 (retry : Nat) : List Displacement :=
  if 0 < retry then [ahead, distant] else [ahead]

theorem Sends.displacing89_iff {s : UInt32} {retry : Nat} {w w' : Recording σ}
    (sent : Sends (displacing89 w.disc.sectorsNo s retry) w w') (before : s < w.disc.sectorsNo) :
    Displaces (displacements89 retry) s.toNat w w' ↔
      AheadFits w.disc.sectorsNo s.toNat ∧ (0 < retry → DistantFits w.disc.sectorsNo s.toNat) := by
  have aheadStays := aheadSector_onDisc_iff before
  have distantStays := distantSector_onDisc_iff before
  unfold displacing89 at sent
  unfold displacements89
  by_cases again : 0 < retry
  · rw [if_pos again] at sent
    rw [if_pos again, sent.displaces_iff rfl]
    simp [aheadStays, distantStays, again]
  · rw [if_neg again] at sent
    rw [if_neg again, sent.displaces_iff rfl]
    simp [aheadStays, again]

theorem readSectorStreaming_recorded (w : Recording σ) (sector : UInt32)
    (extbuf : Option (Buffer × Nat)) :
    (dvdReadSectorStreaming env.recording w.drive sector extbuf).drive.2 =
      blockRead sector :: w.drive.2 :=
  dvdExecuteCmd_recorded env w.drive rfl true

theorem displaced89_sends (retry : Nat) (w w₀ : Recording σ)
    (start : w₀ = if 0 < retry then readDistant env.recording w sectorNo else w) :
    Sends (displacing89 w.disc.sectorsNo sectorNo retry) w
      (w₀.withDrive (dvdReadSectorStreaming env.recording w₀.drive
        (aheadSector w₀.disc.sectorsNo sectorNo) none).drive) := by
  have recorded := readSectorStreaming_recorded env w₀ (aheadSector w₀.disc.sectorsNo sectorNo) none
  refine .of_recorded (recorded.trans ?_)
  unfold displacing89
  by_cases again : 0 < retry
  · rw [if_pos again] at start
    simp [again, start, readDistant_recorded, readDistant_disc]
  · rw [if_neg again] at start
    simp [again, start]

theorem attempt89_sends
    {headers : Nat → Recording σ → Locals → (Recording σ × Locals) × Bool × Bool}
    (grows : ∀ j w arrays, Grows w (headers j w arrays).1.1) (retry : Nat)
    (w : Recording σ) (arrays : Locals) :
    Sends (displacing89 w.disc.sectorsNo sectorNo retry) w
      (attempt89 env.recording headers sectorNo retry (w, arrays)).1.1 := by
  unfold attempt89
  extract_lets distant ahead driven executed driven₁ source arrays₁
  have displaced : Sends _ w driven := displaced89_sends env sectorNo retry w distant rfl
  have read : Sends _ w driven₁ := displaced.grow ((Grows.frame env).command driven _)
  split
  · have rebuilt := read.grow ((Grows.frame env).reconstructBlocks grows sectorNo 5 0 driven₁ arrays₁)
    rcases result : reconstructBlocks headers sectorNo 5 0 driven₁ arrays₁ with
      ⟨⟨w₂, arrays₂⟩, success, stop⟩
    rw [result] at rebuilt
    cases success with
    | true =>
        have filled := rebuilt.grow ((Grows.frame env).fillBlocks sectorNo 5 0 w₂ arrays₂)
        dsimp only
        rcases result : fillBlocks env.recording sectorNo 5 0 w₂ arrays₂ with
          ⟨⟨w₃, arrays₃⟩, success⟩
        rw [result] at filled
        cases success with
        | true => exact filled.grow (.of_drive (cacheLocals_drive sectorNo 5 0 w₃ arrays₃))
        | false => exact filled
    | false => exact rebuilt
  · exact read

/-! ## Exactly when they stay on the disc -/

theorem streamStep_displaces_iff {method : Nat}
    (displacing : method = 0 ∨ method = 1 ∨ method = 4) (cnt : UInt32) (w : Recording σ)
    (before : sectorNo.toNat + cnt.toNat * w.disc.secMem.toNat < w.disc.sectorsNo.toNat) :
    Displaces [distant] (sectorNo.toNat + cnt.toNat * w.disc.secMem.toNat) w
        (streamStep env.recording method sectorNo cnt w).1 ↔
      DistantFits w.disc.sectorsNo (sectorNo.toNat + cnt.toNat * w.disc.secMem.toNat) := by
  have place : (sectorNo + cnt * w.disc.secMem).toNat =
      sectorNo.toNat + cnt.toNat * w.disc.secMem.toNat := by
    have bound := w.disc.sectorsNo.toNat_lt
    rw [UInt32.toNat_add, UInt32.toNat_mul, Nat.add_mod_mod]
    exact Nat.mod_eq_of_lt (Nat.lt_trans before bound)
  rw [← place] at before ⊢
  exact (streamStep_sends env sectorNo displacing cnt w).distant_iff (UInt32.lt_iff_toNat_lt.mpr before)

variable {sectorNo}

/-- The displacing reads stay on the disc exactly where the sectors that the guards pick do. -/
theorem displaces_onDisc_iff (w : Recording σ) (before : sectorNo < w.disc.sectorsNo) (retry : Nat)
    (arrays : Locals) :
    (∀ method cnt, method = 0 ∨ method = 1 ∨ method = 4 →
      sectorNo.toNat + cnt.toNat * w.disc.secMem.toNat < w.disc.sectorsNo.toNat →
      (Displaces [distant] (sectorNo.toNat + cnt.toNat * w.disc.secMem.toNat) w
          (streamStep env.recording method sectorNo cnt w).1 ↔
        DistantFits w.disc.sectorsNo (sectorNo.toNat + cnt.toNat * w.disc.secMem.toNat))) ∧
    (Displaces [distant] sectorNo.toNat w (simpleRead env.recording sectorNo w).1 ↔
      DistantFits w.disc.sectorsNo sectorNo.toNat) ∧
    (0 < retry →
      (Displaces [distant] sectorNo.toNat w (attempt7 env.recording sectorNo retry (w, arrays)).1.1 ↔
        DistantFits w.disc.sectorsNo sectorNo.toNat)) ∧
    (Displaces (displacements89 retry) sectorNo.toNat w
        (attempt89 env.recording (fun j w arrays => dumpHeaders8 env.recording j 16 0 w arrays true false)
          sectorNo retry (w, arrays)).1.1 ↔
      AheadFits w.disc.sectorsNo sectorNo.toNat ∧
        (0 < retry → DistantFits w.disc.sectorsNo sectorNo.toNat)) ∧
    (Displaces (displacements89 retry) sectorNo.toNat w
        (attempt89 env.recording (fun j w arrays => dumpHeaders9 env.recording j 16 0 w arrays true false)
          sectorNo retry (w, arrays)).1.1 ↔
      AheadFits w.disc.sectorsNo sectorNo.toNat ∧
        (0 < retry → DistantFits w.disc.sectorsNo sectorNo.toNat)) := by
  refine ⟨?_, ?_, ?_, ?_, ?_⟩
  · intro method cnt displacing within
    exact streamStep_displaces_iff env sectorNo displacing cnt w within
  · exact (simpleRead_sends env sectorNo w).distant_iff before
  · intro again
    exact (attempt7_sends env sectorNo again w arrays).distant_iff before
  · have grows := fun j w arrays => (Grows.frame env).dumpHeaders8 j 16 0 w arrays true false
    exact (attempt89_sends env sectorNo grows retry w arrays).displacing89_iff before
  · have grows := fun j w arrays => (Grows.frame env).dumpHeaders9 j 16 0 w arrays true false
    exact (attempt89_sends env sectorNo grows retry w arrays).displacing89_iff before

end Routines

/-! ## Two sizes of a disc -/

open Displacement

def zeroEnv : Env Unit where
  ioctl drive mmc :=
    (drive, { failed := false, transferred := mmc.buflen, data := fun _ => 0, sense := ⟨0, 0, 0⟩ })
  stack _ _ := fun _ => 0
  rsDecode := id

/-- A disc forced to this size, before its first read. -/
def forcedDisc (d : Disc) (sectorsNo : UInt32) : Recording Unit :=
  discDetectType zeroEnv.recording 0 sectorsNo (World.created ((), []) d 0)

theorem forcedDisc_sectorsNo (d : Disc) {sectorsNo : UInt32} (given : sectorsNo ≠ notGiven) :
    (forcedDisc d sectorsNo).disc.sectorsNo = sectorsNo := by
  simp [forcedDisc, discDetectType, given, World.withDisc]

theorem displaces_onDisc_iff_gamecube :
    ∃ d w, discNew ⟨.hitachi, 2, 9, true⟩ (fun _ _ => 0) (fun _ _ => 0)
        ⟨fun _ => ⟨0, fun _ => 0⟩, false⟩ = some d ∧ w = forcedDisc d 0x0AE0B0 ∧
      Displaces [distant] 0 w (simpleRead zeroEnv.recording 0 w).1 ∧
      ∀ arrays, Displaces [distant] 0 w (attempt7 zeroEnv.recording 0 1 (w, arrays)).1.1 ∧
        Displaces [ahead, distant] 0 w
          (attempt89 zeroEnv.recording
            (fun j w arrays => dumpHeaders8 zeroEnv.recording j 16 0 w arrays true false)
            0 1 (w, arrays)).1.1 := by
  refine ⟨_, _, rfl, rfl, ?_⟩
  generalize start : forcedDisc _ 0x0AE0B0 = w
  have size : w.disc.sectorsNo = 0x0AE0B0 := by
    rw [← start]
    exact forcedDisc_sectorsNo _ (by decide)
  have fits : DistantFits w.disc.sectorsNo 0 := by
    rw [size]
    simp [DistantFits]
  have fitsAhead : AheadFits w.disc.sectorsNo 0 := by
    rw [size]
    simp [AheadFits]
  have before : 0 < w.disc.sectorsNo := by
    rw [size]
    decide
  have stays := fun arrays => displaces_onDisc_iff zeroEnv w before 1 arrays
  refine ⟨(stays (.ofStack zeroEnv.recording w.drive)).2.1.mpr fits, fun arrays => ?_⟩
  obtain ⟨_, _, again, headers, _⟩ := stays arrays
  exact ⟨(again Nat.one_pos).mpr fits, headers.mpr ⟨fitsAhead, fun _ => fits⟩⟩

/-- On a disc of 50 sectors nothing is 992 sectors before the first one, nor 80 after it. -/
theorem displaces_fails_small :
    ∃ d w, discNew ⟨.hitachi, 2, 9, true⟩ (fun _ _ => 0) (fun _ _ => 0)
        ⟨fun _ => ⟨0, fun _ => 0⟩, false⟩ = some d ∧ w = forcedDisc d 50 ∧ w.disc.sectorsNo = 50 ∧
      Sends [dummyRead 4294966304] w (streamStep zeroEnv.recording 0 0 0 w).1 ∧
      ¬ Displaces [distant] 0 w (streamStep zeroEnv.recording 0 0 0 w).1 ∧
      ¬ Displaces [distant] 0 w (simpleRead zeroEnv.recording 0 w).1 ∧
      ∀ arrays, ¬ Displaces [distant] 0 w (attempt7 zeroEnv.recording 0 1 (w, arrays)).1.1 ∧
        ∀ headers, (∀ j w arrays, Grows w (headers j w arrays).1.1) →
          Sends [blockRead 80] w (attempt89 zeroEnv.recording headers 0 0 (w, arrays)).1.1 ∧
          ¬ Displaces [ahead] 0 w (attempt89 zeroEnv.recording headers 0 0 (w, arrays)).1.1 := by
  refine ⟨_, _, rfl, rfl, ?_⟩
  generalize start : forcedDisc _ 50 = w
  have size : w.disc.sectorsNo = 50 := by
    rw [← start]
    exact forcedDisc_sectorsNo _ (by decide)
  have before : 0 < w.disc.sectorsNo := by
    rw [size]
    decide
  have noDistant : ¬ DistantFits w.disc.sectorsNo 0 := by
    rw [size]
    simp [DistantFits]
  have noAhead : ¬ AheadFits w.disc.sectorsNo 0 := by
    rw [size]
    simp [AheadFits]
  have wrapped : distantSector w.disc.sectorsNo 0 = 4294966304 := by
    rw [size]
    decide
  have beyond : aheadSector w.disc.sectorsNo 0 = 80 := by
    rw [size]
    decide
  have streamed := streamStep_sends zeroEnv 0 (.inl rfl) 0 w
  rw [UInt32.zero_mul, UInt32.zero_add] at streamed
  refine ⟨size, wrapped ▸ streamed, mt (streamed.distant_iff before).mp noDistant,
    mt ((simpleRead_sends zeroEnv 0 w).distant_iff before).mp noDistant, fun arrays => ?_⟩
  refine ⟨mt ((attempt7_sends zeroEnv 0 Nat.one_pos w arrays).distant_iff before).mp noDistant, ?_⟩
  intro headers grows
  have sent := attempt89_sends zeroEnv 0 grows 0 w arrays
  exact ⟨beyond ▸ sent, fun stays => noAhead ((sent.displacing89_iff before).mp stays).1⟩

end Friidump
