import Friidump.DumpStops
import Friidump.ProgramFiles

/-!
# Passes that hash

A dump that hashes leaves spoiled sectors in the cache, where the next pass finds them. It
has no use for them as long as the dump goes on behind them, which it does if no call on
the files has failed.
-/

set_option autoImplicit false

namespace Friidump

/-! ## Where the next dump begins -/

/-- Nothing goes wrong with the output files. -/
structure Host.Fine (host : Host) : Prop where
  opens : host.Opens
  writes : host.Writes
  rawClose : host.rawClose = .flushed
  isoClose : host.isoClose = .flushed

theorem Host.Fine.keepsAccepted {host : Host} (fine : host.Fine) : host.KeepsAccepted := by
  intro i out
  obtain ⟨-, rawFlush, -, isoFlush⟩ := fine.writes i
  rw [rawFlush, isoFlush]
  exact ⟨reply_flushed out, reply_flushed out⟩

/-- A dump of these files begins with this sector or a later one. -/
def ResumesFrom (options : Options) (resume : Bool) (files : Files) (n : Nat) : Prop :=
  ∀ dmp startSector, dumperSetOutputFiles options files resume = some dmp →
    dmp.chooseStart = some startSector → n ≤ startSector.toNat

section Resume

variable {options : Options} {resume : Bool} {files : Files} {dmp : Dumper} {n : Nat}

theorem dumperSetOutputFiles_outputs (set : dumperSetOutputFiles options files resume = some dmp) :
    dumperNew.raw.setOutputFile 2064 (if options.raw then some files.raw else none) resume =
        (dmp.raw, true) ∧
      dumperNew.iso.setOutputFile 2048 (if options.iso then some files.iso else none) resume =
        (dmp.iso, true) := by
  unfold dumperSetOutputFiles dumperSetRawOutputFile dumperSetIsoOutputFile at set
  dsimp only at set
  split at set
  · cases set
  · rename_i rawSet
    obtain ⟨rfl, rawOut⟩ := Prod.mk.inj rawSet
    split at set
    · cases set
    · rename_i isoSet
      obtain ⟨rfl, isoOut⟩ := Prod.mk.inj isoSet
      cases set
      exact ⟨Prod.ext rfl rawOut, Prod.ext rfl isoOut⟩

theorem Output.setOutputFile_resumes {o o' : Output} {size : Nat} {wanted : Bool} {file : File}
    (set : o.setOutputFile size (if wanted then some file else none) resume = (o', true))
    (fresh : o.outfile = none) (opened : o'.outfile.isSome = true) (positive : 0 < size)
    (small : n < 2 ^ 32) (aligned : n % 16 = 0)
    (whole : wanted = true → ∃ bytes, file = some bytes ∧ bytes.length = n * size) :
    o'.startSector.toNat = n := by
  cases wanted with
  | false =>
      cases set
      cases opened
  | true =>
      obtain ⟨bytes, rfl, length⟩ := whole rfl
      rw [if_pos rfl] at set
      unfold Output.setOutputFile at set
      dsimp only at set
      rw [fresh, Option.isSome_none, if_neg Bool.false_ne_true] at set
      cases resume with
      | false => cases set
      | true =>
          cases set
          dsimp only
          rw [length, Nat.mul_div_cancel _ positive, UInt32.toNat_mul, toNat_toUInt32]
          simp only [UInt32.reduceToNat]
          omega

/-- Files of whole blocks are gone on with. -/
theorem resumesFrom_whole (small : n < 2 ^ 32) (aligned : n % 16 = 0)
    (raw : options.raw = true → ∃ bytes, files.raw = some bytes ∧ bytes.length = n * 2064)
    (iso : options.iso = true → ∃ bytes, files.iso = some bytes ∧ bytes.length = n * 2048) :
    ResumesFrom options resume files n := by
  intro dmp startSector set start
  obtain ⟨rawSet, isoSet⟩ := dumperSetOutputFiles_outputs set
  have rawStart := fun opened => Output.setOutputFile_resumes rawSet rfl opened (by decide) small aligned raw
  have isoStart := fun opened => Output.setOutputFile_resumes isoSet rfl opened (by decide) small aligned iso
  unfold Dumper.chooseStart at start
  split at start
  · rename_i both
    cases start
    split
    · exact Nat.le_of_eq (rawStart both.1).symm
    · exact Nat.le_of_eq (isoStart both.2.1).symm
  · split at start
    · rename_i opened
      cases start
      exact Nat.le_of_eq (rawStart opened).symm
    · split at start
      · rename_i opened
        cases start
        exact Nat.le_of_eq (isoStart opened).symm
      · cases start

end Resume

/-! ## Settings in step -/

section Settings

variable {σ : Type} {n : Nat} {w w' : World σ}

/-- A change that neither looks at the cache nor touches it keeps the states in step. -/
theorem SameAhead.map (same : SameAhead n w w') {change : World σ → World σ}
    (blind : ∀ cache rawCache, change (w.recached cache rawCache) =
      (change w).recached cache rawCache)
    (kept : (change w).disc.cacheMap = w.disc.cacheMap ∧ (change w).disc.cache = w.disc.cache ∧
      (change w).disc.rawCache = w.disc.rawCache) : SameAhead n (change w) (change w') := by
  cases same with
  | @recached cache rawCache agrees =>
      obtain ⟨map, iso, raw⟩ := kept
      rw [blind]
      refine .recached fun format p k inside ahead a insideSector => ?_
      rw [map] at ahead
      have same := agrees format p k inside ahead a insideSector
      cases format with
      | raw => exact same.trans (congrFun (congrFun raw.symm p) _)
      | iso => exact same.trans (congrFun (congrFun iso.symm p) _)

variable (env : Env σ) (options : ProgramOptions)

theorem SameAhead.beforeInit (same : SameAhead n w w') :
    SameAhead n (beforeInit env options w) (beforeInit env options w') := by
  obtain ⟨drive, outcome⟩ := beforeInit_outcome env options w
  refine same.map (fun cache rawCache => ?_) ?_
  · unfold Friidump.beforeInit discSetStreamingSpeed discSetSpeed
    dsimp only
    split
    · split <;> rfl
    · rfl
  · rw [outcome]
    exact ⟨rfl, rfl, rfl⟩

theorem SameAhead.afterInit (same : SameAhead n w w') :
    SameAhead n (afterInit env options w) (afterInit env options w') := by
  obtain ⟨drive, outcome⟩ := afterInit_outcome env options w
  refine same.map (fun cache rawCache => ?_) ?_
  · unfold Friidump.afterInit discSetStreamingSpeed discSetSpeed
    dsimp only
    split
    · split <;> rfl
    · rfl
  · rw [outcome]
    exact ⟨rfl, rfl, rfl⟩

theorem discDetectType_recached (w : World σ) (cache rawCache : Nat → Buffer)
    (forcedType sectorsNo : UInt32) :
    discDetectType env forcedType sectorsNo (w.recached cache rawCache) =
      (discDetectType env forcedType sectorsNo w).recached cache rawCache := by
  unfold discDetectType
  by_cases gamecube : forcedType = 0
  · subst gamecube
    rw [if_pos rfl, if_pos rfl]
    split <;> rfl
  by_cases wii : forcedType = 1
  · subst wii
    rw [if_neg gamecube, if_pos rfl, if_neg gamecube, if_pos rfl]
    split <;> rfl
  by_cases wiiDl : forcedType = 2
  · subst wiiDl
    rw [if_neg gamecube, if_neg wii, if_pos rfl, if_neg gamecube, if_neg wii, if_pos rfl]
    split <;> rfl
  by_cases dvd : forcedType = 3
  · subst dvd
    by_cases given : sectorsNo = notGiven
    · subst given
      rfl
    · simp only [given, if_false, ne_eq, not_false_eq_true, if_true]
      rfl
  · rw [if_neg gamecube, if_neg wii, if_neg wiiDl, if_neg dvd, if_neg gamecube, if_neg wii, if_neg wiiDl, if_neg dvd]
    dsimp +instances only [World.recached_drive, World.recached_withDrive]
    -- The size the user gives comes last, but stands outside.
    split
    all_goals
      split
      · rfl
      · split <;> rfl

theorem SameAhead.discDetected (same : SameAhead n w w') (disctype sectorsNo : UInt32) :
    SameAhead n (discDetected env disctype sectorsNo w) (discDetected env disctype sectorsNo w') := by
  obtain ⟨⟨drive, type, number, layerbreak, outcome⟩, -⟩ :=
    discDetected_outcome env disctype sectorsNo w
  refine same.map (fun cache rawCache => ?_) (by rw [outcome]; exact ⟨rfl, rfl, rfl⟩)
  exact discDetectType_recached env (w.withDisc { w.disc with sectorsNo := 1000 }) cache rawCache
    disctype sectorsNo

theorem SameAhead.withDisc_mode (same : SameAhead n w w') (unscramble : Bool) :
    SameAhead n (w.withDisc (discSetUnscrambling w.disc unscramble))
      (w'.withDisc (discSetUnscrambling w'.disc unscramble)) :=
  @SameAhead.map σ n w w' same (fun w => w.withDisc (discSetUnscrambling w.disc unscramble))
    (fun _ _ => rfl) ⟨rfl, rfl, rfl⟩

/-! ## Reads in step -/

/-- Both fail alike, or come to related results. -/
inductive Except.Related {ε α β : Type} (R : α → β → Prop) : Except ε α → Except ε β → Prop
  | error (error : ε) : Related R (.error error) (.error error)
  | ok {a : α} {b : β} (related : R a b) : Related R (.ok a) (.ok b)

theorem Except.Related.bind {ε α β γ δ : Type} {R : α → β → Prop} {S : γ → δ → Prop}
    {first : Except ε α} {first' : Except ε β} {rest : α → Except ε γ} {rest' : β → Except ε δ}
    (related : Except.Related R first first')
    (next : ∀ a b, R a b → Except.Related S (rest a) (rest' b)) :
    Except.Related S (first >>= rest) (first' >>= rest') := by
  cases related with
  | error error => exact .error error
  | ok related => exact next _ _ related

/-- The states are in step, and what comes with them is the same. -/
def SamePair {α : Type} (n : Nat) (result result' : World σ × α) : Prop :=
  SameAhead n result.1 result'.1 ∧ result'.2 = result.2

def SameOut (n : Nat) (result result' : World σ × SectorRead) : Prop :=
  SameAhead n result.1 result'.1 ∧ result'.2.out = result.2.out

theorem SameAhead.read (same : SameAhead n w w') (request : Request) :
    Except.Related (SameOut n) (Friidump.discReadSector env request w)
      (Friidump.discReadSector env request w') := by
  have reads := same.discReadSector env request
  generalize Friidump.discReadSector env request w = result at reads ⊢
  generalize Friidump.discReadSector env request w' = result' at reads ⊢
  cases reads with
  | abort abort => exact .error abort
  | read ahead out => exact .ok ⟨ahead, out⟩

theorem SameAhead.crackSeedsLoop (same : SameAhead n w w') (left : Nat) (i : UInt32) :
    Except.Related (SameAhead n) (crackSeedsLoop env left i w) (crackSeedsLoop env left i w') := by
  induction left generalizing i w w' with
  | zero => exact .ok same
  | succ left ih =>
      exact (same.read env ⟨i, false, false⟩).bind fun _ _ related => ih related.1 (i + 16)

theorem SameAhead.readUnscrambled (same : SameAhead n w w') (sectorNo : UInt32) :
    Except.Related (SameOut n) (readUnscrambled env sectorNo w) (readUnscrambled env sectorNo w') := by
  have unscrambling : w'.disc.unscrambling = w.disc.unscrambling := by
    cases same with
    | recached => rfl
  unfold Friidump.readUnscrambled
  rw [unscrambling]
  exact ((same.withDisc_mode true).read env ⟨sectorNo, true, false⟩).bind fun _ _ related =>
    .ok ⟨related.1.withDisc_mode _, related.2⟩

theorem SameAhead.type (same : SameAhead n w w') : w'.disc.type = w.disc.type := by
  cases same with
  | recached => rfl

theorem SameAhead.discInit (same : SameAhead n w w') (disctype sectorsNo : UInt32) :
    Except.Related (SamePair n) (discInit env disctype sectorsNo w)
      (discInit env disctype sectorsNo w') := by
  refine ((same.discDetected env disctype sectorsNo).crackSeedsLoop env 20 0).bind
    fun w₁ w₁' cracked => ?_
  have brute : SameAhead n
      (w₁.withDisc { w₁.disc with u := unscramblerSetBruteforce w₁.disc.u true })
      (w₁'.withDisc { w₁'.disc with u := unscramblerSetBruteforce w₁'.disc.u true }) :=
    @SameAhead.map σ n w₁ w₁' cracked
      (fun w => w.withDisc { w.disc with u := unscramblerSetBruteforce w.disc.u true })
      (fun _ _ => rfl) ⟨rfl, rfl, rfl⟩
  dsimp only
  rw [brute.type]
  split
  · exact .ok ⟨brute, rfl⟩
  · have analyzed : Except.Related (SamePair n) (discAnalyze env _) (discAnalyze env _) :=
      (brute.readUnscrambled env 0).bind fun _ _ related => .ok related
    refine analyzed.bind fun result result' related => ?_
    rcases result with ⟨w₂, out⟩
    rcases result' with ⟨w₂', out'⟩
    obtain ⟨ahead, rfl⟩ := related
    cases out' with
    | false => exact .ok ⟨ahead, rfl⟩
    | true =>
        have checked : Except.Related (SameAhead n) (discCheckUpdate env w₂)
            (discCheckUpdate env w₂') := by
          unfold discCheckUpdate
          rw [ahead.type]
          split
          · exact (ahead.readUnscrambled env 160).bind fun _ _ related => .ok related.1
          · exact .ok ahead
        exact checked.bind fun _ _ related => .ok ⟨related, rfl⟩

end Settings

/-! ## Passes in step -/

section Passes

variable {σ : Type} {n : Nat} {w w' : World σ} {env : Env σ} {host : Host} {options : ProgramOptions}
  {files : Files} {dmp : HashedDumper} {startSector : UInt32}

theorem ResumesFrom.earlier {options : Options} {resume : Bool} {m : Nat}
    (resumes : ResumesFrom options resume files n) (le : m ≤ n) : ResumesFrom options resume files m :=
  fun dmp startSector set start => Nat.le_trans le (resumes dmp startSector set start)

/-- The passes make the same of their files, and ask the same of the drive. -/
structure SamePass (pass pass' : Pass σ) : Prop where
  before : pass'.before = pass.before
  files : pass'.dmp.map HashedDumper.files = pass.dmp.map HashedDumper.files
  ending : pass'.ending = pass.ending
  drive : pass'.world.drive = pass.world.drive

theorem SamePass.after {pass pass' : Pass σ} (same : SamePass pass pass') : pass'.after = pass.after := by
  obtain ⟨before, files, -, -⟩ := same
  unfold Pass.after
  rw [before]
  cases dmp : pass.dmp with
  | none =>
      rw [dmp] at files
      rw [Option.map_eq_none_iff.mp files]
  | some dumper =>
      rw [dmp] at files
      obtain ⟨dumper', dmp', same⟩ := Option.map_eq_some_iff.mp files
      rw [dmp']
      dsimp only
      rw [same]

/-- What the passes have spoiled of the cache is of no use to a pass after them. -/
def Resumable (options : ProgramOptions) (pass pass' : Pass σ) : Prop :=
  ∀ out, pass.ending = .returned out → out ≠ some true →
    ∃ m, SameAhead m pass.world pass'.world ∧ (options.noHashing = true → m = 0) ∧
      ResumesFrom options.outputs options.resume pass.after m

theorem Pass.ofDump_same (same : SameAhead n w w') (behind : n ≤ dmp.files.startSector.toNat) :
    SamePass (Pass.ofDump env files (undisturbedDump env host dmp w))
      (Pass.ofDump env files (hashingDump env host dmp w')) := by
  obtain ⟨⟨sameFiles, out, -, -⟩, m, ahead, -, -⟩ :=
    @hashedDump_same σ n w w' env host 0 dmp same behind
  have out : (hashingDump env host dmp w').out = (undisturbedDump env host dmp w).out := out
  have drive : (hashingDump env host dmp w').world.drive = (undisturbedDump env host dmp w).world.drive :=
    ahead.drive
  have sameFiles : (hashingDump env host dmp w').dmp.files = (undisturbedDump env host dmp w).dmp.files :=
    sameFiles
  unfold Pass.ofDump
  rw [out]
  split
  · exact ⟨rfl, congrArg some sameFiles, rfl, drive⟩
  · refine ⟨rfl, congrArg some sameFiles, rfl, ?_⟩
    dsimp only [discStopUnit, World.withDrive]
    rw [drive]
  · exact ⟨rfl, congrArg some sameFiles, rfl, drive⟩

theorem Output.fileAfter_opened {o : Output} {fp : Theory.AppendStream UInt8} (opened : o.fp = some fp)
    (before : File) : o.fileAfter before = some fp.file := by
  rw [Output.fileAfter.eq_def, opened]

/-- A dump that a missing block has stopped leaves files that end with the block before. -/
theorem undisturbedDump_resumes (fine : host.Fine) (wanted : options.outputs.raw = true ∨
    options.outputs.iso = true) (aligned : dmp.files.startSector.toNat % 16 = 0)
    (holds : dmp.files.Holds options.outputs dmp.files.startSector.toNat)
    (stopped : (undisturbedDump env host dmp w).out = .ok false) :
    ResumesFrom options.outputs options.resume (Pass.ofDump env files (undisturbedDump env host dmp w)).after
      (undisturbedDump env host dmp w).currentSector.toNat := by
  have start := dmp.files.startSector.toNat_lt
  have bound := w.disc.sectorsNo.toNat_lt
  obtain ⟨whole, held⟩ := dumpLoop_stopped fine.writes wanted (by omega) holds
    (fun within => absurd aligned within) rfl stopped
  unfold Pass.ofDump Pass.after
  rw [stopped]
  refine resumesFrom_whole (UInt32.toNat_lt _) whole (fun raw => ?_) fun iso => ?_
  · obtain ⟨fp, stream, length⟩ := (held.raw raw).close
    rw [← fine.rawClose] at stream
    exact ⟨fp.file, Output.fileAfter_opened stream _, length⟩
  · obtain ⟨fp, stream, length⟩ := (held.iso iso).close
    rw [← fine.isoClose] at stream
    exact ⟨fp.file, Output.fileAfter_opened stream _, length⟩

theorem Pass.ofDump_resumable (fine : options.noHashing = true ∨ host.Fine) (same : SameAhead n w w')
    (behind : n ≤ dmp.files.startSector.toNat) (off : options.noHashing = true → n = 0)
    (hashing : dmp.files.hashing = !options.noHashing)
    (resumes : host.Fine → (undisturbedDump env host dmp w).out = .ok false →
      ResumesFrom options.outputs options.resume
        (Pass.ofDump env files (undisturbedDump env host dmp w)).after
        (undisturbedDump env host dmp w).currentSector.toNat) :
    Resumable options (Pass.ofDump env files (undisturbedDump env host dmp w))
      (Pass.ofDump env files (hashingDump env host dmp w')) := by
  obtain ⟨⟨-, sameOut, -, -⟩, m, ahead, kept, stopped⟩ := @hashedDump_same σ n w w' env host 0 dmp same behind
  have sameOut : (hashingDump env host dmp w').out = (undisturbedDump env host dmp w).out := sameOut
  intro out ending unfinished
  cases ended : (undisturbedDump env host dmp w).out with
  | error abort =>
      rw [Pass.ofDump, ended] at ending
      cases ending
  | ok success =>
      cases success with
      | true =>
          rw [Pass.ofDump, ended] at ending
          cases ending
          exact absurd rfl unfinished
      | false =>
          have world : (Pass.ofDump env files (undisturbedDump env host dmp w)).world =
              (undisturbedDump env host dmp w).world := by
            rw [Pass.ofDump, ended]
          have world' : (Pass.ofDump env files (hashingDump env host dmp w')).world =
              (hashingDump env host dmp w').world := by
            rw [Pass.ofDump, sameOut, ended]
          rw [world, world']
          cases plain : options.noHashing with
          | true =>
              have none : m = 0 := (kept (by rw [hashing, plain]; rfl)).trans (off plain)
              refine ⟨m, ahead, fun _ => none, ?_⟩
              rw [none]
              exact fun _ _ _ _ => Nat.zero_le _
          | false =>
              have fine := fine.resolve_left (by rw [plain]; exact Bool.false_ne_true)
              exact ⟨m, ahead, nofun, (resumes fine ended).earlier (stopped fine.writes ended)⟩

/-- With a file to write to, everything can be set up. -/
theorem Host.Fine.setUp (fine : host.Fine) {options : Options} {resume : Bool} {dmp : Dumper}
    (set : dumperSetOutputFiles options files resume = some dmp)
    (start : dmp.chooseStart = some startSector) :
    (options.raw = true ∨ options.iso = true) ∧ host.setUp options startSector = true ∧
      ¬ Masked options host startSector := by
  obtain ⟨rawFile, isoFile, -⟩ := dumperSetOutputFiles_setTo set
  obtain ⟨rawSeek, rawTruncate, isoSeek, isoTruncate⟩ := fine.opens
  have wanted : options.raw = true ∨ options.iso = true := by
    by_contra none
    obtain ⟨raw, iso⟩ := not_or.mp none
    rw [if_neg raw] at rawFile
    rw [if_neg iso] at isoFile
    rw [Dumper.chooseStart, rawFile, isoFile] at start
    cases start
  have rawWorks : host.raw.succeed 2064 startSector = true := by
    rw [SetupReplies.succeed, rawSeek, rawTruncate]
    rfl
  have isoWorks : host.iso.succeed 2048 startSector = true := by
    rw [SetupReplies.succeed, isoSeek, isoTruncate]
    rfl
  refine ⟨wanted, ?_, fun masked => ?_⟩
  · rw [Host.setUp, rawWorks, isoWorks]
    cases wanted with
    | inl raw => rw [raw, if_pos rfl, ite_self]
    | inr iso => rw [iso, if_pos rfl]
  · cases masked.2.2.1.symm.trans rawWorks

theorem HashedDumper.Ready.holds {options : Options} (ready : dmp.Ready options files host startSector)
    (unmasked : ¬ Masked options host startSector) :
    dmp.files.Holds options dmp.files.startSector.toNat := by
  obtain ⟨raw, iso⟩ := ready.prepared.opened ready.setUp unmasked
  rw [ready.prepared.start]
  exact ⟨fun wanted => (raw wanted).holds, fun wanted => (iso wanted).holds⟩

theorem dumpOutputs_same (fine : options.noHashing = true ∨ host.Fine) (same : SameAhead n w w')
    (off : options.noHashing = true → n = 0)
    (resumes : ResumesFrom options.outputs options.resume files n) :
    SamePass (dumpOutputs env (undisturbedDump env) host options files w)
        (dumpOutputs env (hashingDump env) host options files w') ∧
      Resumable options (dumpOutputs env (undisturbedDump env) host options files w)
        (dumpOutputs env (hashingDump env) host options files w') := by
  unfold dumpOutputs
  cases set : dumperSetOutputFiles options.outputs files options.resume with
  | none => exact ⟨⟨rfl, rfl, rfl, same.drive⟩, fun _ _ _ => ⟨n, same, off, resumes⟩⟩
  | some dmp =>
      have outcome := hashedPrepare_cases set host
      dsimp only
      generalize hashedPrepare ⟨dmp, .zero, .zero⟩ host = prepared at outcome ⊢
      rcases prepared with ⟨dmp', abort | _ | _⟩
      · exact ⟨⟨rfl, rfl, rfl, same.drive⟩, nofun⟩
      · refine ⟨⟨rfl, rfl, rfl, same.drive⟩, fun _ _ _ => ⟨n, same, off, ?_⟩⟩
        cases fine with
        | inl plain =>
            rw [off plain]
            exact fun _ _ _ _ => Nat.zero_le _
        | inr fine =>
            obtain aborted | ⟨startSector, start, -, verdict, -⟩ := outcome
            · cases aborted
            · rw [(fine.setUp set start).2.1] at verdict
              cases verdict
      · obtain aborted | ⟨startSector, start, aligned, verdict, ready⟩ := outcome
        · cases aborted
        · have ready := ready (Except.ok.inj verdict).symm
          have first := ready.prepared.start
          have behind : n ≤ dmp'.files.startSector.toNat := by
            rw [first]
            exact resumes dmp startSector set start
          refine ⟨Pass.ofDump_same same behind, Pass.ofDump_resumable fine same behind off ready.hashing
            fun fine stopped => ?_⟩
          obtain ⟨wanted, -, unmasked⟩ := fine.setUp set start
          exact undisturbedDump_resumes fine wanted (by rw [first]; exact aligned) (ready.holds unmasked)
            stopped

theorem dologic_same (fine : options.noHashing = true ∨ host.Fine) (same : SameAhead n w w')
    (off : options.noHashing = true → n = 0)
    (resumes : ResumesFrom options.outputs options.resume files n) :
    SamePass (dologic env (undisturbedDump env) host options files w)
        (dologic env (hashingDump env) host options files w') ∧
      Resumable options (dologic env (undisturbedDump env) host options files w)
        (dologic env (hashingDump env) host options files w') := by
  unfold dologic
  split
  · refine ⟨⟨rfl, rfl, rfl, ?_⟩, nofun⟩
    dsimp only [discStopUnit, World.withDrive]
    rw [same.drive]
  · have initialized := (same.beforeInit env options).discInit env options.disctype options.sectorsNo
    generalize discInit env options.disctype options.sectorsNo (beforeInit env options w) = result
      at initialized ⊢
    generalize discInit env options.disctype options.sectorsNo (beforeInit env options w') = result'
      at initialized ⊢
    cases initialized with
    | error abort => exact ⟨⟨rfl, rfl, rfl, same.drive⟩, nofun⟩
    | @ok first second related =>
        rcases first with ⟨w₁, out⟩
        rcases second with ⟨w₁', out'⟩
        obtain ⟨ahead, rfl⟩ := related
        cases out' with
        | false => exact ⟨⟨rfl, rfl, rfl, ahead.drive⟩, fun _ _ _ => ⟨n, ahead, off, resumes⟩⟩
        | true =>
            have ready : SameAhead n (afterInit env options w₁) (afterInit env options w₁') :=
              ahead.afterInit env options
            dsimp only
            split
            · exact dumpOutputs_same fine ready off resumes
            · exact ⟨⟨rfl, rfl, rfl, ready.drive⟩, fun _ _ _ => ⟨n, ready, off, resumes⟩⟩

theorem passesFrom_same {surroundings : Nat → Surroundings}
    (fine : options.noHashing = true ∨ ∀ n, (surroundings n).host.Fine) {methods : List Int} {k : Nat}
    (same : SameAhead n w w') (off : options.noHashing = true → n = 0)
    (resumes : ResumesFrom options.outputs options.resume files n) :
    List.Forall₂ SamePass
      (passesFrom env (undisturbedDump env) options surroundings methods k files w)
      (passesFrom env (hashingDump env) options surroundings methods k files w') := by
  induction methods generalizing k n files w w' with
  | nil => exact .nil
  | cons method methods ih =>
      obtain ⟨samePass, resumable⟩ := @dologic_same σ n w w' env (surroundings k).host
        { options with dumpMethod := method } files (fine.imp_right fun fine => fine k) same off resumes
      rw [passesFrom, passesFrom]
      refine .cons samePass ?_
      have out : ∀ stack, (dologic env (hashingDump env) (surroundings k).host
          { options with dumpMethod := method } files w').out stack =
          (dologic env (undisturbedDump env) (surroundings k).host
            { options with dumpMethod := method } files w).out stack := by
        intro stack
        rw [Pass.out, samePass.ending]
        rfl
      rw [out, samePass.after]
      split
      · rename_i going
        unfold Pass.out at going
        split at going
        · rename_i out ending
          have unfinished : out ≠ some true := by
            rintro rfl
            cases going
          obtain ⟨m, ahead, off, resumes⟩ := resumable out ending unfinished
          exact ih ahead off resumes
        · cases going
      · exact .nil

end Passes

theorem blankHost_fine : (blankHost .flushed).Fine where
  opens := ⟨fun _ => rfl, fun _ => rfl, fun _ => rfl, fun _ => rfl⟩
  writes _ := ⟨⟨_, rfl⟩, rfl, ⟨_, rfl⟩, rfl⟩
  rawClose := rfl
  isoClose := rfl

/-- All methods in turn, with hashing and both outputs. -/
def allMethods : ProgramOptions where
  autodump := false
  rawOut := true
  isoOut := true
  resume := true
  dumpMethod := -1
  sectorsNo := notGiven
  speed := notGiven
  disctype := notGiven
  secDisc := notGiven
  secMem := notGiven
  noHashing := false
  noUnscrambling := false
  noFlushing := false
  stopUnit := false
  allmethods := true

section Written

variable {σ : Type} {env : Env σ} {options : ProgramOptions} {surroundings : Nat → Surroundings}

/-- The streams of a pass, and the files it has found. -/
theorem SamePass.checked {offset : Nat} {pass pass' : Pass σ} (same : SamePass pass pass')
    (checked : pass.Checked offset) : pass'.Checked offset := by
  obtain ⟨before, files, -, -⟩ := same
  refine ⟨before ▸ checked.before, fun dmp' given => ?_⟩
  rw [given, Option.map_some] at files
  obtain ⟨dmp, dumper, same⟩ := Option.map_eq_some_iff.mp files.symm
  exact same ▸ checked.dumper dmp dumper

theorem SamePass.all_checked {offset : Nat} {passes passes' : List (Pass σ)}
    (same : List.Forall₂ SamePass passes passes') (checked : ∀ pass ∈ passes, pass.Checked offset) :
    ∀ pass ∈ passes', pass.Checked offset := by
  induction same with
  | nil => exact checked
  | @cons pass pass' _ _ first _ ih =>
      obtain ⟨here, later⟩ := List.forall_mem_cons.mp checked
      exact List.forall_mem_cons.mpr ⟨first.checked here, ih later⟩

end Written

end Friidump
