import Friidump.ProgramHashing

/-!
# The program on a drive that carries an image

All that a pass reads before it dumps are sectors that start a block. So the cache only
gets blocks of the image, in their places, and the dump is a dump of the image.
-/

set_option autoImplicit false

namespace Friidump

open Relation (ReflTransGen)

section ProgramImage

variable {σ : Type} {env : Env σ} {host : Host} {lba : σ → UInt32} {image : DiscImage} {w w' : World σ}
  {options : ProgramOptions} {files : Files}

/-- What the cache holds is checked, and comes from the image. -/
structure Imaged (env : Env σ) (lba : σ → UInt32) (image : DiscImage) (w : World σ) : Prop where
  addressed : Addressed env lba image w
  sound : CacheSound w

theorem Imaged.withUnscrambling (imaged : Imaged env lba image w) (unscramble : Bool) :
    Imaged env lba image (w.withDisc (discSetUnscrambling w.disc unscramble)) := by
  obtain ⟨⟨⟨formed, agree, ranged, carries, -⟩, known, positive, backed, filed⟩, sound⟩ := imaged
  exact ⟨⟨⟨formed, agree, { ranged with }, carries, rfl⟩, known, positive, backed, filed⟩, { sound with }⟩

theorem Imaged.withBruteforce (imaged : Imaged env lba image w) (b : Bool) :
    Imaged env lba image
      (w.withDisc { w.disc with u := unscramblerSetBruteforce w.disc.u b }) := by
  obtain ⟨⟨⟨formed, agree, ranged, carries, -⟩, known, positive, backed, filed⟩, sound⟩ := imaged
  have formed : SeedsWellFormed (unscramblerSetBruteforce w.disc.u b) := ⟨formed.entry, formed.sentinel⟩
  exact ⟨⟨⟨formed, agree, { ranged with }, carries, rfl⟩, known, positive, backed, filed⟩,
    { sound with formed := formed }⟩

/-- A read that starts a block. -/
theorem Imaged.read (imaged : Imaged env lba image w) {request : Request}
    (aligned : request.sectorNo.toNat % 16 = 0) (inside : request.sectorNo.toNat < 16 * image.blocks)
    {read : SectorRead} (returned : discReadSector env request w = .ok (w', read)) :
    Imaged env lba image w' := by
  have start : request.sectorNo % 16 = 0 := by
    apply UInt32.toNat_inj.mp
    rw [UInt32.toNat_mod]
    exact aligned
  exact ⟨(discReadSector_addressed imaged.addressed inside (.inr (.inl start)) returned).1,
    (discReadSector_sound env imaged.sound returned).1⟩

theorem Imaged.crackSeedsLoop (imaged : Imaged env lba image w) {left : Nat} {i : UInt32}
    (aligned : i.toNat % 16 = 0) (inside : i.toNat + 16 * left ≤ 16 * image.blocks)
    (room : i.toNat + 16 * left < 2 ^ 32) (cracked : crackSeedsLoop env left i w = .ok w') :
    Imaged env lba image w' := by
  induction left generalizing i w with
  | zero =>
      cases cracked
      exact imaged
  | succ left ih =>
      obtain ⟨⟨w₁, read⟩, returned, rest⟩ := Except.bind_ok cracked
      have next : (i + 16).toNat = i.toNat + 16 := by
        rw [UInt32.toNat_add]
        simp only [UInt32.reduceToNat]
        omega
      have inside₁ : i.toNat < 16 * image.blocks := by omega
      have read := @Imaged.read σ env lba image w w₁ imaged ⟨i, false, false⟩ aligned inside₁ _ returned
      exact ih read (by omega) (by omega) (by omega) rest

theorem Imaged.readUnscrambled (imaged : Imaged env lba image w) {sectorNo : UInt32}
    (aligned : sectorNo.toNat % 16 = 0) (inside : sectorNo.toNat < 16 * image.blocks) {read : SectorRead}
    (returned : readUnscrambled env sectorNo w = .ok (w', read)) : Imaged env lba image w' := by
  obtain ⟨⟨w₁, read₁⟩, inner, rest⟩ := Except.bind_ok returned
  cases rest
  have read : Imaged env lba image w₁ := (imaged.withUnscrambling true).read aligned inside inner
  exact read.withUnscrambling _

/-- `disc_init` reads the first block, those with number 1 to 19, and the one with number 10. -/
theorem Imaged.discInit {disctype sectorsNo : UInt32} {out : Bool}
    (imaged : Imaged env lba image (discDetected env disctype sectorsNo w)) (large : 20 ≤ image.blocks)
    (initialized : discInit env disctype sectorsNo w = .ok (w', out)) : Imaged env lba image w' := by
  obtain ⟨w₁, cracked, rest⟩ := Except.bind_ok initialized
  have start := (imaged.crackSeedsLoop rfl (by simpa using by omega) (by decide) cracked).withBruteforce true
  dsimp only at rest
  split at rest
  · cases rest
    exact start
  · obtain ⟨⟨w₂, analyzed⟩, returned, rest⟩ := Except.bind_ok rest
    obtain ⟨⟨w₂', read⟩, inner, ended⟩ := Except.bind_ok returned
    cases ended
    have analyzed := start.readUnscrambled rfl (by simpa using by omega) inner
    split at rest
    · obtain ⟨w₃, checked, rest⟩ := Except.bind_ok rest
      cases rest
      unfold discCheckUpdate at checked
      split at checked
      · obtain ⟨⟨w₃', read'⟩, inner, ended⟩ := Except.bind_ok checked
        cases ended
        exact analyzed.readUnscrambled rfl (by simpa using by omega) inner
      · cases checked
        exact analyzed
    · cases rest
      exact analyzed

theorem Imaged.afterInit (imaged : Imaged env lba image w) :
    Imaged env lba image (afterInit env options w) ∧
      dataOffset (Friidump.afterInit env options w).disctype = dataOffset w.disctype := by
  obtain ⟨ready, offset, -⟩ := @CacheSound.afterInit σ env w options imaged.sound
  obtain ⟨drive, outcome⟩ := afterInit_outcome env options w
  obtain ⟨⟨⟨formed, -, ranged, carries, -⟩, known, positive, backed, filed⟩, -⟩ := imaged
  have agree := ready.agree
  refine ⟨⟨?_, ready⟩, offset⟩
  rw [outcome] at offset agree ⊢
  refine ⟨⟨formed, agree, { ranged with }, carries, rfl⟩, known, positive, backed, fun entry member => ?_⟩
  rw [offset]
  exact filed entry member

/-- The disc of a new program, before the first read. -/
theorem created_imaged {dvd : DvdDrive} {memory rawMemory : Nat → Buffer}
    {unscramblerMemory : Unscrambler} {d : Disc}
    (created : discNew dvd memory rawMemory unscramblerMemory = some d) (drive : σ)
    (forced : options.disctype ≤ 3 ∨ options.disctype = notGiven)
    (method : 0 ≤ (discSetReadMethod d options.dumpMethod).readMethod ∧
      (discSetReadMethod d options.dumpMethod).readMethod ≤ 6)
    (carries : Carries env lba dvd.memdump image) :
    Imaged env lba image (discDetected env options.disctype options.sectorsNo
      (beforeInit env options (World.created drive d (forcedDisctype options.disctype)))) := by
  have idle := @Idle.beforeInit σ env _ options.disctype options (discNew_idle created drive forced)
  obtain ⟨drive₁, before⟩ := beforeInit_outcome env options
    (World.created drive d (forcedDisctype options.disctype))
  rw [before] at idle ⊢
  have detected := discDetected_outcome env options.disctype options.sectorsNo
    (((World.created drive d (forcedDisctype options.disctype)).withDrive drive₁).withDisc
      (discSetReadMethod (initRange d options.secDisc options.secMem) options.dumpMethod))
  obtain ⟨sound, -⟩ := detected.sound idle
  obtain ⟨⟨drive₂, type, sectorsNo, layerbreak, outcome⟩, -⟩ := detected
  have ranged := discSetReadMethod_ranged d options.secDisc options.secMem options.dumpMethod
  have dvd : d.dvd = dvd := by
    cases created
    rfl
  refine ⟨⟨⟨sound.formed, sound.agree, ?_, ?_, rfl⟩, ?_, sound.positive, sound.backed,
    fun entry member => ?_⟩, sound⟩
  · exact outcome ▸ { ranged with }
  · exact outcome ▸ dvd ▸ carries
  · exact outcome ▸ method
  · have none : (World.created drive d (forcedDisctype options.disctype)).added = [] := rfl
    exact absurd (outcome ▸ member) (List.not_mem_nil)

theorem Pass.ofDump_success {dumped : HashedEnd σ}
    (success : (Pass.ofDump env files dumped).ending = .returned (some true)) :
    dumped.out = .ok true ∧ (Pass.ofDump env files dumped).dmp = some dumped.dmp := by
  unfold Pass.ofDump at success ⊢
  split at success
  · cases success
  · rename_i ended
    rw [ended]
    exact ⟨rfl, rfl⟩
  · cases success

/-- A dump does not change the size of the disc. -/
theorem dumpOutputs_sectorsNo (sound : CacheSound w) :
    (dumpOutputs env (hashingDump env) host options files w).world.disc.sectorsNo = w.disc.sectorsNo := by
  unfold dumpOutputs
  split
  · rfl
  · split
    · rfl
    · rfl
    · rename_i dmp _
      obtain ⟨-, m, ahead, -, -⟩ :=
        @hashedDump_same σ 0 w w env host 0 dmp (.refl 0 w) (Nat.zero_le _)
      have steps : ReflTransGen (DiscStep env) w (undisturbedDump env host dmp w).world := dumpLoop_steps
      have size : (hashingDump env host dmp w).world.disc.sectorsNo = w.disc.sectorsNo :=
        ahead.sectorsNo.trans (run_sameMode sound steps).sectorsNo
      unfold Pass.ofDump
      split <;> exact size

theorem dumpOutputs_image (imaged : Imaged env lba image w)
    (whole : w.disc.sectorsNo.toNat ≤ 16 * image.blocks) (keeps : host.KeepsAccepted)
    (rawClose : host.rawClose = .flushed) (isoClose : host.isoClose = .flushed)
    (success : (dumpOutputs env (hashingDump env) host options files w).ending = .returned (some true)) :
    ∃ dmp startSector, (dumpOutputs env (hashingDump env) host options files w).dmp = some dmp ∧
      dmp.HoldsImage image (dataOffset w.disctype) w.disc.sectorsNo.toNat options.outputs files host
        startSector := by
  unfold dumpOutputs at success ⊢
  cases set : dumperSetOutputFiles options.outputs files options.resume with
  | none =>
      rw [set] at success
      cases success
  | some dmp =>
      rw [set] at success
      have outcome := hashedPrepare_cases set host
      dsimp only at success ⊢
      generalize hashedPrepare ⟨dmp, .zero, .zero⟩ host = prepared at outcome success ⊢
      rcases prepared with ⟨dmp', abort | _ | _⟩
      · cases success
      · cases success
      · obtain aborted | ⟨startSector, -, aligned, verdict, ready⟩ := outcome
        · cases aborted
        · have ready := ready (Except.ok.inj verdict).symm
          obtain ⟨out, given⟩ := Pass.ofDump_success success
          exact ⟨_, startSector, given, ready.holdsImage aligned imaged.addressed imaged.sound whole keeps
            rawClose isoClose out⟩

end ProgramImage

/-! ## A pass over the counting drive -/

/-- Twenty blocks with nothing but sector numbers, and seed 0. -/
def countedDisc : DiscImage where
  blocks := 20
  plain i := numberedHeader (0x30000 + i.toUInt32)
  seed _ := 0#15
  searched _ _ := by decide
  layer _ _ := UInt8.zero_and
  number i inside := by
    have value : (0x30000 + i.toUInt32).toNat = 0x30000 + i := by
      have small : i.toUInt32.toNat = i := Nat.mod_eq_of_lt (by omega)
      rw [UInt32.toNat_add, small]
      simp only [UInt32.reduceToNat]
      omega
    rw [sectorNumber_numberedHeader (by omega), value]

theorem countedDisc_scrambled (i : Nat) :
    countedDisc.scrambled i = numberedSector (0x30000 + i.toUInt32) := by
  have seedless : seedOf 0#15 = 0 := rfl
  funext a
  have silent : cipherPad (seedOf (countedDisc.seed (i / 16))) a = 0 := by
    rw [countedDisc, seedless]
    exact cipherPad_zero a
  rw [DiscImage.scrambled, Buffer.xor, silent]
  exact UInt8.xor_zero

theorem countingEnv_carriesDisc : Carries (countingEnv 0) id .vanilla2064 countedDisc where
  seeks := countingEnv_seeks 0
  promises := by
    intro drive offset size buf succeeded
    obtain ⟨kept, counted⟩ := countingEnv_promises 0 drive offset size buf succeeded
    refine ⟨kept, fun a below whole within => ?_⟩
    have few : drive.toNat + (offset.toNat + a) / 2064 < 320 := within
    have fits : offset.toNat < 2 ^ 24 := by omega
    have quotient : (offset.toNat + a) / 2064 = offset.toNat / 2064 + a / 2064 := by omega
    have place : (offset.toNat + a) % 2064 = a % 2064 := by omega
    have unshifted : (if offset.toNat / 2064 = 0 then 0 else 0 : UInt32) = 0 := ite_self _
    have number : countedNumber 0 drive (offset.toNat / 2064) + (a / 2064).toUInt32 =
        0x30000 + (drive.toNat + (offset.toNat + a) / 2064).toUInt32 := by
      have sum : (drive.toNat + (offset.toNat / 2064 + a / 2064)).toUInt32 =
          drive + ((offset.toNat / 2064).toUInt32 + (a / 2064).toUInt32) := by
        rw [Nat.toUInt32_eq, UInt32.ofNat_add, UInt32.ofNat_add, UInt32.ofNat_toNat]
      rw [countedNumber, unshifted, quotient, sum]
      grind
    rw [countedDisc_scrambled, place, id, ← number]
    exact counted a below fits

/-- What every read from the counting drive keeps. -/
structure Counting (w : World UInt32) : Prop where
  vanilla : w.disc.dvd.memdump = .vanilla2064
  ranged : Ranged w.disc
  seedless : Seedless w.disc.u
  known : 0 ≤ w.disc.readMethod ∧ w.disc.readMethod ≤ 6
  gamecube : w.disc.type = .gamecube
  single : w.disc.sectorsNo = 1

theorem Counting.read {w : World UInt32} (counting : Counting w) {request : Request}
    (near : request.sectorNo.toNat ≤ 32768) (enabled : w.disc.unscrambling = true) :
    ∃ w' data rawdata, discReadSector (countingEnv 0) request w =
        .ok (w', sectorOf request data rawdata) ∧
      Counting w' ∧ w'.disc.unscrambling = w.disc.unscrambling := by
  obtain ⟨vanilla, ranged, seedless, known, gamecube, single⟩ := counting
  obtain ⟨w₁, read, kept, -⟩ := @countingEnv_read 0 request.sectorNo w w.disc.readMethod.toNat vanilla
    ranged near (by decide) seedless
  have seedless₁ := @countingEnv_seedless 0 request.sectorNo w w.disc.readMethod.toNat vanilla ranged near
    (by decide) seedless
  rw [read] at seedless₁
  rw [← readSector_generic known] at read
  have ended := discReadSector_returned (countingEnv 0) w request
  generalize discReadSector (countingEnv 0) request w = result at ended
  cases ended with
  | disabled needed =>
      rw [enabled, Bool.not_true, Bool.and_false] at needed
      cases needed
  | cached found => exact ⟨w, _, _, rfl, ⟨vanilla, ranged, seedless, known, gamecube, single⟩, rfl⟩
  | read missing success found =>
      rw [read] at success
      cases success
      have same := kept.disc
      refine ⟨w₁, _, _, rfl, ⟨?_, ?_, seedless₁, ?_, ?_, ?_⟩, ?_⟩ <;> rw [same]
      · exact vanilla
      · exact { ranged with }
      · exact known
      · exact gamecube
      · exact single
  | lost missing success lost =>
      rw [read] at success
      cases success
      have positive : w.disc.maxBlk ≠ 0 := by
        intro zero
        have positive := ranged.positive
        rw [zero] at positive
        cases positive
      rw [readSector_generic known] at read
      have present := discReadSectorGeneric_present (countingEnv 0) (.inl positive)
        (congrArg Prod.snd read)
      rw [read] at present
      exact absurd lost ((present_iff w₁ _).mp present)
  | failed missing failure =>
      rw [read] at failure
      cases failure

theorem Counting.crackSeedsLoop {w : World UInt32} (counting : Counting w)
    (enabled : w.disc.unscrambling = true) {left : Nat} {i : UInt32}
    (near : i.toNat + 16 * left ≤ 32768) :
    ∃ w', crackSeedsLoop (countingEnv 0) left i w = .ok w' ∧ Counting w' ∧
      w'.disc.unscrambling = true := by
  induction left generalizing i w with
  | zero => exact ⟨w, rfl, counting, enabled⟩
  | succ left ih =>
      obtain ⟨w₁, data, rawdata, read, counting₁, enabled₁⟩ :=
        @Counting.read w counting ⟨i, false, false⟩ (by simpa using by omega) enabled
      have next : (i + 16).toNat = i.toNat + 16 := by
        rw [UInt32.toNat_add]
        simp only [UInt32.reduceToNat]
        omega
      obtain ⟨w₂, rest, ended⟩ := ih counting₁ (enabled₁.trans enabled) (i := i + 16) (by omega)
      refine ⟨w₂, ?_, ended⟩
      rw [Friidump.crackSeedsLoop, read]
      exact rest

theorem Counting.discInit {w : World UInt32} {disctype sectorsNo : UInt32}
    (counting : Counting (discDetected (countingEnv 0) disctype sectorsNo w))
    (enabled : (discDetected (countingEnv 0) disctype sectorsNo w).disc.unscrambling = true) :
    ∃ w', discInit (countingEnv 0) disctype sectorsNo w = .ok (w', true) ∧ Counting w' := by
  obtain ⟨w₁, cracked, counting₁, enabled₁⟩ :=
    @Counting.crackSeedsLoop _ counting enabled 20 0 (by decide)
  obtain ⟨vanilla, ranged, seedless, known, gamecube, single⟩ := counting₁
  have seeds : Seedless (unscramblerSetBruteforce w₁.disc.u true) :=
    ⟨⟨seedless.formed.entry, seedless.formed.sentinel⟩, rfl, fun zone inside => { seedless.roomy zone inside with }⟩
  obtain ⟨w₂, data, rawdata, read, counting₂, -⟩ := @Counting.read
    (w₁.withDisc { w₁.disc with u := unscramblerSetBruteforce w₁.disc.u true, unscrambling := true })
    ⟨vanilla, { ranged with }, seeds, known, gamecube, single⟩ ⟨0, true, false⟩ (by decide) rfl
  obtain ⟨vanilla₂, ranged₂, seedless₂, known₂, gamecube₂, single₂⟩ := counting₂
  refine ⟨w₂.withDisc (discSetUnscrambling w₂.disc w₁.disc.unscrambling), ?_,
    vanilla₂, { ranged₂ with }, seedless₂, known₂, gamecube₂, single₂⟩
  have start : discCrackSeeds (countingEnv 0) (discDetectType (countingEnv 0) disctype sectorsNo
      (w.withDisc { w.disc with sectorsNo := 1000 })) = .ok w₁ := cracked
  have analyzed : discAnalyze (countingEnv 0)
      (w₁.withDisc { w₁.disc with u := unscramblerSetBruteforce w₁.disc.u true }) =
        .ok (w₂.withDisc (discSetUnscrambling w₂.disc w₁.disc.unscrambling), true) := by
    unfold discAnalyze readUnscrambled
    dsimp only [discSetUnscrambling, World.withDisc] at read ⊢
    rw [read]
    rfl
  have other : ¬ (w₂.disc.type = .wii ∨ w₂.disc.type = .wiiDl) := by
    rw [gamecube₂]
    decide
  have checked : discCheckUpdate (countingEnv 0)
      (w₂.withDisc (discSetUnscrambling w₂.disc w₁.disc.unscrambling)) =
        .ok (w₂.withDisc (discSetUnscrambling w₂.disc w₁.disc.unscrambling)) := if_neg other
  have console : ¬ w₁.disc.type = .dvd := by
    rw [gamecube]
    decide
  unfold Friidump.discInit
  dsimp only
  rw [start]
  refine (if_neg console).trans ?_
  rw [analyzed]
  exact congrArg (fun result => result >>= fun w => pure (w, true)) checked

/-- One sector of a GameCube disc, in both formats. -/
def onePass : ProgramOptions :=
  { allMethods with dumpMethod := 0, sectorsNo := 1, disctype := 0, resume := false, allmethods := false }

theorem dologic_onePass {d : Disc}
    (created : discNew ⟨.vanilla2064, 2, 0, true⟩ (fun _ _ => 0) (fun _ _ => 0)
      ⟨fun _ => ⟨0, fun _ => 0⟩, false⟩ = some d) {pass : Pass UInt32}
    (made : dologic (countingEnv 0) (hashingDump (countingEnv 0)) (blankHost .flushed) onePass
      ⟨none, none⟩ (World.created 0 d (forcedDisctype onePass.disctype)) = pass) :
    pass.ending = .returned (some true) ∧ pass.world.disc.sectorsNo = 1 := by
  have idle := discNew_idle created (0 : UInt32) (.inl (by decide) : onePass.disctype ≤ 3 ∨ _)
  obtain ⟨drive, before⟩ := beforeInit_outcome (countingEnv 0) onePass
    (World.created 0 d (forcedDisctype onePass.disctype))
  have ranged := discSetReadMethod_ranged d notGiven notGiven 0
  have seedless : Seedless d.u := (counted_setUp created).2.2.1
  have vanilla : d.dvd.memdump = .vanilla2064 := (counted_setUp created).2.1
  have enabled : d.unscrambling = true := (counted_setUp created).2.2.2
  have known : (0 : Int) ≤ 0 ∧ (0 : Int) ≤ 6 := by decide
  have counting : Counting (discDetected (countingEnv 0) onePass.disctype onePass.sectorsNo
      (beforeInit (countingEnv 0) onePass (World.created 0 d (forcedDisctype onePass.disctype)))) := by
    rw [before]
    exact ⟨vanilla, { ranged with }, seedless, known, rfl, rfl⟩
  obtain ⟨w₁, initialized, counting₁⟩ := counting.discInit (by rw [before]; exact enabled)
  obtain ⟨drive₁, after⟩ := afterInit_outcome (countingEnv 0) onePass w₁
  obtain ⟨vanilla₁, ranged₁, seedless₁, known₁, gamecube₁, single₁⟩ := counting₁
  have counting₂ : Counting (afterInit (countingEnv 0) onePass w₁) := by
    rw [after]
    exact ⟨vanilla₁, { ranged₁ with }, seedless₁, known₁, gamecube₁, single₁⟩
  obtain ⟨w₂, data, rawdata, read, -⟩ := @Counting.read _ counting₂ ⟨0, true, true⟩ (by decide)
    (by rw [after]; rfl)
  have sound := (@CacheSound.afterInit _ (countingEnv 0) w₁ onePass (idle.discInit initialized).1).1
  have dumped : dologic (countingEnv 0) (hashingDump (countingEnv 0)) (blankHost .flushed) onePass
      ⟨none, none⟩ (World.created 0 d (forcedDisctype onePass.disctype)) =
        dumpOutputs (countingEnv 0) (hashingDump (countingEnv 0)) (blankHost .flushed) onePass ⟨none, none⟩
          (afterInit (countingEnv 0) onePass w₁) := by
    refine (if_neg (by decide)).trans ?_
    rw [initialized]
    rfl
  subst made
  rw [dumped]
  refine ⟨?_, (dumpOutputs_sectorsNo sound).trans counting₂.single⟩
  have out := counted_dump (hashedPrepare ⟨newDump, .zero, .zero⟩ (blankHost .flushed)).1 rfl
    counting₂.single read
  have ended : dumpOutputs (countingEnv 0) (hashingDump (countingEnv 0)) (blankHost .flushed) onePass
      ⟨none, none⟩ (afterInit (countingEnv 0) onePass w₁) = Pass.ofDump (countingEnv 0) ⟨none, none⟩
        (hashedDump (countingEnv 0) (blankHost .flushed)
          (hashedPrepare ⟨newDump, .zero, .zero⟩ (blankHost .flushed)).1
          (afterInit (countingEnv 0) onePass w₁) 0) := rfl
  rw [ended, Pass.ofDump, out]

end Friidump
