import Friidump.ProgramSteps

/-!
# What the passes write

All passes use one disc, so that a pass finds the blocks in the cache that those before it
have read. They are checked blocks, as long as no dump disturbs them.
-/

set_option autoImplicit false

namespace Friidump

open Relation (ReflTransGen)

section Idle

variable {σ : Type} {env : Env σ} {w w' : World σ} {disctype : UInt32}

/-- The disc between two passes. The type it has been given need not fit the mode. -/
structure Idle (disctype : UInt32) (w : World σ) : Prop where
  formed : SeedsWellFormed w.disc.u
  mode : w.disctype = 3 ↔ disctype = 3
  positive : 0 < w.disc.cacheSize
  backed : Backed w
  valid : ∀ entry ∈ w.added, BlockValid (dataOffset w.disctype) entry.data entry.rawdata

theorem CacheSound.idle (sound : CacheSound w) (mode : w.disctype = 3 ↔ disctype = 3) :
    Idle disctype w :=
  ⟨sound.formed, mode, sound.positive, sound.backed, sound.valid⟩

/-- The detection of the type makes it fit. -/
theorem Detected.sound (detected : Detected disctype w w') (idle : Idle disctype w) :
    CacheSound w' ∧ w'.disctype = w.disctype := by
  obtain ⟨⟨drive, type, sectorsNo, layerbreak, rfl⟩, dvd⟩ := detected
  exact ⟨⟨idle.formed, idle.mode.trans dvd.symm, idle.positive, idle.backed, idle.valid⟩, rfl⟩

/-- Where user data begin in the sectors of a disc of a forced type. -/
def forcedOffset (disctype : UInt32) : Nat := if disctype = 3 then 12 else 6

theorem discNew_idle {dvd : DvdDrive} {memory rawMemory : Nat → Buffer} {unscramblerMemory : Unscrambler}
    {d : Disc} (created : discNew dvd memory rawMemory unscramblerMemory = some d) (drive : σ)
    (known : disctype ≤ 3 ∨ disctype = notGiven) :
    Idle disctype (World.created drive d (forcedDisctype disctype)) := by
  have empty : EmptyCache (World.created drive d 0) := discNew_emptyCache created drive (by decide)
  have start := empty.sound
  have mode : forcedDisctype disctype = 3 ↔ disctype = 3 := by
    cases known with
    | inl small =>
        have below : disctype.toNat ≤ 3 := UInt32.le_iff_toNat_le.mp small
        have given : disctype ≠ notGiven := by
          rintro rfl
          exact absurd below (by decide)
        rw [forcedDisctype, if_neg given, ← UInt8.toNat_inj, ← UInt32.toNat_inj, UInt32.toNat_toUInt8]
        simp only [UInt8.reduceToNat, UInt32.reduceToNat]
        omega
    | inr missing =>
        subst missing
        decide
  refine ⟨start.formed, mode, start.positive, start.backed, fun entry member => ?_⟩
  cases member

/-! ## The settings of a pass -/

variable (env) (options : ProgramOptions)

theorem discSetSpeed_drive (w : World σ) (speed : UInt32) :
    ∃ drive, discSetSpeed env w speed = w.withDrive drive := by
  unfold discSetSpeed
  split
  · exact ⟨_, rfl⟩
  · exact ⟨w.drive, rfl⟩

theorem discSetStreamingSpeed_drive (w : World σ) (speed : UInt32) :
    ∃ drive, discSetStreamingSpeed env w speed = w.withDrive drive := by
  unfold discSetStreamingSpeed
  split
  · exact ⟨_, rfl⟩
  · exact ⟨w.drive, rfl⟩

theorem beforeInit_outcome (w : World σ) :
    ∃ drive, beforeInit env options w = (w.withDrive drive).withDisc
      (discSetReadMethod (initRange w.disc options.secDisc options.secMem) options.dumpMethod) := by
  unfold beforeInit
  dsimp only
  split
  · obtain ⟨drive₁, fast⟩ := discSetSpeed_drive env
      (((discStopUnit env w true).1.withDisc (initRange w.disc options.secDisc options.secMem)).withDisc
        (discSetReadMethod (initRange w.disc options.secDisc options.secMem) options.dumpMethod))
      (options.speed * 177)
    obtain ⟨drive₂, streaming⟩ := discSetStreamingSpeed_drive env
      ((((discStopUnit env w true).1.withDisc (initRange w.disc options.secDisc options.secMem)).withDisc
        (discSetReadMethod (initRange w.disc options.secDisc options.secMem)
          options.dumpMethod)).withDrive drive₁) (options.speed * 177)
    rw [← fast] at streaming
    exact ⟨drive₂, streaming.trans (by rw [fast]; rfl)⟩
  · exact ⟨_, rfl⟩

/-- Where `afterInit` leaves the disc, but for the drive. -/
def World.moded (w : World σ) (unscramble : Bool) : World σ :=
  unscramblerSetDisctype (w.withDisc (discSetUnscrambling w.disc unscramble)) w.disc.type.value

theorem afterInit_outcome (w : World σ) :
    ∃ drive, afterInit env options w = (w.moded (!options.noUnscrambling)).withDrive drive := by
  unfold afterInit
  dsimp only
  split
  · obtain ⟨drive₁, streaming⟩ := discSetStreamingSpeed_drive env
      (w.moded (!options.noUnscrambling)) (options.speed * 177)
    obtain ⟨drive₂, fast⟩ := discSetSpeed_drive env
      ((w.moded (!options.noUnscrambling)).withDrive drive₁) (options.speed * 177)
    rw [← streaming] at fast
    exact ⟨drive₂, fast.trans (by rw [streaming]; rfl)⟩
  · exact ⟨w.drive, rfl⟩

variable {env options}

theorem Idle.beforeInit (idle : Idle disctype w) : Idle disctype (beforeInit env options w) := by
  obtain ⟨drive, outcome⟩ := beforeInit_outcome env options w
  rw [outcome]
  exact ⟨idle.formed, idle.mode, idle.positive, idle.backed, idle.valid⟩

theorem DiscType.value_dvd (type : DiscType) : type.value = 3 ↔ type = .dvd := by
  cases type <;> decide

/-- The mode that the type of the disc calls for is the one there is. -/
theorem CacheSound.afterInit (sound : CacheSound w) :
    CacheSound (afterInit env options w) ∧
      (Friidump.dataOffset (Friidump.afterInit env options w).disctype = Friidump.dataOffset w.disctype) ∧
      ((Friidump.afterInit env options w).disctype = 3 ↔ w.disctype = 3) := by
  obtain ⟨drive, outcome⟩ := afterInit_outcome env options w
  have mode : w.disc.type.value = 3 ↔ w.disctype = 3 :=
    (DiscType.value_dvd w.disc.type).trans sound.agree.symm
  have offset : Friidump.dataOffset w.disc.type.value = Friidump.dataOffset w.disctype :=
    if_congr mode rfl rfl
  rw [outcome]
  refine ⟨⟨sound.formed, DiscType.value_dvd _, sound.positive, sound.backed, fun entry member => ?_⟩,
    offset, mode⟩
  have valid := sound.valid entry member
  rw [← offset] at valid
  exact valid

end Idle

/-! ## Passes -/

section Passes

variable {σ : Type} {env : Env σ} {host : Host} {options : ProgramOptions} {files : Files}
  {w w' : World σ} {offset : Nat}

/-- A dump that hashes without a trace in the cache. -/
def undisturbedDump (env : Env σ) : DumpFunc σ := fun host dmp w =>
  let dumped := dumperDump (fun i w => discReadSector env ⟨i, true, true⟩ w) host w.disc.sectorsNo
    dmp.files w 0
  { dmp := { dmp with files := dumped.dmp }, world := dumped.source, out := dumped.out
    currentSector := dumped.currentSector, reads := [], calls := [] }

/-- The streams of the pass have held checked sectors only. -/
structure Pass.Checked (offset : Nat) (pass : Pass σ) : Prop where
  before : pass.before.Checked offset
  dumper : ∀ dmp, pass.dmp = some dmp → dmp.files.Checked offset False

theorem Pass.Checked.undumped (before : files.Checked offset) (w : World σ) (ending : PassEnd) :
    Pass.Checked offset { before := files, dmp := none, world := w, ending := ending } :=
  ⟨before, by rintro dmp ⟨⟩⟩

theorem Pass.Checked.dumped (before : files.Checked offset) {dmp : HashedDumper}
    (checked : dmp.files.Checked offset False) (w : World σ) (ending : PassEnd) :
    Pass.Checked offset { before := files, dmp := some dmp, world := w, ending := ending } :=
  ⟨before, by rintro _ ⟨⟩; exact checked⟩

theorem Pass.Checked.ofDump (before : files.Checked offset) {dumped : HashedEnd σ}
    (checked : dumped.dmp.files.Checked offset False) : (Pass.ofDump env files dumped).Checked offset := by
  unfold Pass.ofDump
  split <;> exact .dumped before checked _ _

theorem dumpOutputs_checked (sound : CacheSound w) (mode : dataOffset w.disctype = offset)
    (keeps : host.KeepsAccepted) (before : files.Checked offset) :
    (dumpOutputs env (undisturbedDump env) host options files w).Checked offset := by
  unfold dumpOutputs
  cases set : dumperSetOutputFiles options.outputs files options.resume with
  | none => exact .undumped before _ _
  | some dmp =>
      have checked := prepareAndDumpDisc_checked env set keeps sound mode before
      unfold prepareAndDumpDisc prepareAndDump at checked
      unfold hashedPrepare
      dsimp only
      rcases prepared : dumperPrepare dmp host with ⟨dmp', abort | _ | _⟩
      all_goals
        rw [prepared] at checked
        dsimp only at checked ⊢
      · exact .dumped before checked _ _
      · exact .dumped before checked _ _
      · exact .ofDump before checked

/-- A dump reads the disc, and does nothing else to it. -/
theorem dumpOutputs_world (env : Env σ) (host : Host) (options : ProgramOptions) (files : Files)
    (w : World σ) :
    ∃ w₁ drive, ReflTransGen (DiscStep env) w w₁ ∧
      (dumpOutputs env (undisturbedDump env) host options files w).world = w₁.withDrive drive := by
  unfold dumpOutputs
  split
  · exact ⟨w, w.drive, .refl, rfl⟩
  · split
    · exact ⟨w, w.drive, .refl, rfl⟩
    · exact ⟨w, w.drive, .refl, rfl⟩
    · rename_i dmp _
      have steps : ReflTransGen (DiscStep env) w (undisturbedDump env host dmp w).world := dumpLoop_steps
      unfold Pass.ofDump
      split <;> exact ⟨_, _, steps, rfl⟩

theorem Idle.afterRun {disctype : UInt32} (sound : CacheSound w)
    (mode : w.disctype = 3 ↔ disctype = 3) (run : ReflTransGen (DiscStep env) w w') :
    Idle disctype w' := by
  have kept := (run_sameMode sound run).disctype
  exact (run_sound sound run).idle (by rw [kept]; exact mode)

theorem Idle.discInit {disctype sectorsNo : UInt32} {out : Bool} (idle : Idle disctype w)
    (initialized : Friidump.discInit env disctype sectorsNo (Friidump.beforeInit env options w) =
      .ok (w', out)) :
    CacheSound w' ∧ (w'.disctype = 3 ↔ disctype = 3) := by
  have start : Idle disctype (Friidump.beforeInit env options w) := idle.beforeInit
  obtain ⟨detected, kept⟩ := (discDetected_outcome env disctype sectorsNo
    (Friidump.beforeInit env options w)).sound start
  have steps := ReflTransGen.mono (fun _ _ => ReadingStep.discStep) _ _ (discInit_steps initialized)
  refine ⟨run_sound detected steps, ?_⟩
  rw [(run_sameMode detected steps).disctype, kept]
  exact start.mode

/-- A pass keeps the disc fit for the next one, and the files clean. -/
theorem dologic_checked (idle : Idle options.disctype w) (keeps : host.KeepsAccepted)
    (before : files.Checked (forcedOffset options.disctype)) :
    (dologic env (undisturbedDump env) host options files w).Checked
        (forcedOffset options.disctype) ∧
      ∀ out, (dologic env (undisturbedDump env) host options files w).ending = .returned out →
        Idle options.disctype (dologic env (undisturbedDump env) host options files w).world := by
  unfold dologic
  split
  · exact ⟨.undumped before _ _, nofun⟩
  · cases initialized : discInit env options.disctype options.sectorsNo (beforeInit env options w) with
    | error abort => exact ⟨.undumped before _ _, nofun⟩
    | ok result =>
        rcases result with ⟨w₁, initOut⟩
        obtain ⟨sound, mode⟩ := idle.discInit initialized
        cases initOut with
        | false => exact ⟨.undumped before _ _, fun _ _ => sound.idle mode⟩
        | true =>
            obtain ⟨ready, -, same⟩ := @CacheSound.afterInit σ env w₁ options sound
            have mode := same.trans mode
            dsimp only
            split
            · obtain ⟨w₂, drive, run, world⟩ :=
                dumpOutputs_world env host options files (afterInit env options w₁)
              have idle := Idle.afterRun ready mode run
              refine ⟨dumpOutputs_checked ready (if_congr mode rfl rfl) keeps before, fun _ _ => ?_⟩
              rw [world]
              exact ⟨idle.formed, idle.mode, idle.positive, idle.backed, idle.valid⟩
            · exact ⟨.undumped before _ _, fun _ _ => ready.idle mode⟩

theorem Output.fileAfter_checked {written : Buffer → List UInt8} {size : Nat} {going : Prop} {o : Output}
    {before : File} (checked : o.Checked written size going)
    (start : CheckedFile written (before.getD [])) :
    CheckedFile written ((o.fileAfter before).getD []) := by
  unfold Output.fileAfter
  cases stream : o.fp with
  | some fp => exact (checked.keeps fp stream).content.shorter _ _ (List.prefix_append _ _)
  | none =>
      dsimp only
      split <;> exact start

theorem Pass.Checked.after {pass : Pass σ} (checked : pass.Checked offset) : pass.after.Checked offset := by
  unfold Pass.after
  cases given : pass.dmp with
  | none => exact checked.before
  | some dmp =>
      have dumper := checked.dumper dmp given
      exact ⟨Output.fileAfter_checked dumper.raw checked.before.raw,
        Output.fileAfter_checked dumper.iso checked.before.iso⟩

theorem passesFrom_checked {surroundings : Nat → Surroundings}
    (keeps : ∀ n, (surroundings n).host.KeepsAccepted) {methods : List Int} {n : Nat}
    (idle : Idle options.disctype w) (before : files.Checked (forcedOffset options.disctype)) :
    ∀ pass ∈ passesFrom env (undisturbedDump env) options surroundings methods n files w,
      pass.Checked (forcedOffset options.disctype) := by
  induction methods generalizing n files w with
  | nil => exact fun _ member => absurd member (List.not_mem_nil)
  | cons method methods ih =>
      have first := @dologic_checked σ env (surroundings n).host { options with dumpMethod := method }
        files w idle (keeps n) before
      intro pass member
      rw [passesFrom] at member
      cases List.mem_cons.mp member with
      | inl here => exact here ▸ first.1
      | inr later =>
          split at later
          · rename_i going
            refine ih ?_ first.1.after pass later
            unfold Pass.out at going
            split at going
            · rename_i out ending
              exact first.2 out ending
            · cases going
          · cases later

end Passes

end Friidump
