import Friidump.DumpIntegrity

/-!
# Files of checked sectors

However often and wherever runs are cut off, and whatever the drives answer, the output
files never hold anything but sectors that have passed their checks, and the start of one.
-/

set_option autoImplicit false

namespace Friidump

open Theory (AppendStream WriteReply FlushReply)

/-! ## Sectors in a row -/

def SectorChecked (raw : Buffer) : Prop :=
  edcCalc 0 (raw.bytes 2060) = (raw.advance 2060).loadWordBig

/-- A file that checked sectors in a row begin with, each as it is written. -/
def CheckedFile (written : Buffer → List UInt8) (bytes : List UInt8) : Prop :=
  ∃ sectors : List Buffer, (∀ raw ∈ sectors, SectorChecked raw) ∧ bytes <+: sectors.flatMap written

section Files

variable {written : Buffer → List UInt8} {size : Nat}

theorem CheckedFile.nil (written : Buffer → List UInt8) : CheckedFile written [] :=
  ⟨[], nofun, List.nil_prefix⟩

theorem CheckedFile.shorter (short long : List UInt8) (start : short <+: long)
    (checked : CheckedFile written long) : CheckedFile written short := by
  obtain ⟨sectors, passed, within⟩ := checked
  exact ⟨sectors, passed, start.trans within⟩

theorem take_flatMap_written (uniform : ∀ raw, (written raw).length = size) (sectors : List Buffer)
    (n : Nat) : (sectors.flatMap written).take (n * size) = (sectors.take n).flatMap written := by
  induction sectors generalizing n with
  | nil => simp
  | cons raw sectors ih =>
      cases n with
      | zero => simp
      | succ n =>
          have length := uniform raw
          rw [List.flatMap_cons, List.take_succ_cons, List.flatMap_cons, Nat.succ_mul, Nat.add_comm,
            ← ih n, ← length, List.take_length_add_append]

/-- Behind whole sectors comes another one. -/
theorem CheckedFile.append (uniform : ∀ raw, (written raw).length = size) {bytes : List UInt8}
    (checked : CheckedFile written bytes) (whole : bytes.length % size = 0) {raw : Buffer}
    (passed : SectorChecked raw) : CheckedFile written (bytes ++ written raw) := by
  obtain ⟨sectors, all, within⟩ := checked
  have length : bytes.length / size * size = bytes.length := Nat.div_mul_cancel (Nat.dvd_of_mod_eq_zero whole)
  have start := List.prefix_iff_eq_take.mp within
  rw [← length, take_flatMap_written uniform] at start
  refine ⟨sectors.take (bytes.length / size) ++ [raw], fun raw' member => ?_, ?_⟩
  · cases List.mem_append.mp member with
    | inl before => exact all raw' (List.mem_of_mem_take before)
    | inr last => exact List.mem_singleton.mp last ▸ passed
  · have joined : (sectors.take (bytes.length / size) ++ [raw]).flatMap written =
        bytes ++ written raw := by
      rw [List.flatMap_append, List.flatMap_singleton, ← start]
    exact joined ▸ List.prefix_refl _

end Files

/-! ## One output -/

section OneOutput

variable {written : Buffer → List UInt8} {size : Nat} {o : Output}

/-- The stream only holds checked sectors, and ends with a whole one if the dump goes on. -/
structure Output.Checked (written : Buffer → List UInt8) (size : Nat) (going : Prop) (o : Output) :
    Prop where
  keeps : ∀ fp, o.fp = some fp → AppendStream.Keeps (CheckedFile written) fp
  whole : going → ∀ fp, o.fp = some fp → fp.content.length % size = 0

theorem Output.Checked.stop {going : Prop} (checked : o.Checked written size going) :
    o.Checked written size False :=
  ⟨checked.keeps, nofun⟩

theorem Output.dumpSector_checked (uniform : ∀ raw, (written raw).length = size)
    (checked : o.Checked written size True) (flushing hashing out : Bool) {buf : Option (List UInt8)}
    (shown : ∀ bytes, buf = some bytes → ∃ raw, SectorChecked raw ∧ bytes = written raw)
    (write : WriteReply) {flush : FlushReply} (whole : ∀ out, flush ≠ .dropped out) :
    (o.dumpSector flushing hashing out buf write flush).1.Checked written size
      ((o.dumpSector flushing hashing out buf write flush).2 = true) := by
  have flushed : ∀ fp : AppendStream UInt8, AppendStream.Keeps (CheckedFile written) fp →
      AppendStream.Keeps (CheckedFile written) (if flushing then fp.flush flush else fp) := by
    intro fp keeps
    split
    · exact keeps.flush CheckedFile.shorter flush
    · exact keeps
  cases stream : o.fp with
  | none =>
      rw [Output.dumpSector_closed stream]
      refine ⟨fun fp opened => ?_, fun _ fp opened => ?_⟩
      all_goals cases stream.symm.trans opened
  | some fp =>
      have before := (checked.keeps fp stream).clearError
      cases buf with
      | none =>
          rw [Output.dumpSector_missing stream]
          refine ⟨?_, nofun⟩
          rintro fp' ⟨⟩
          exact flushed _ before
      | some bytes =>
          obtain ⟨raw, passed, rfl⟩ := shown bytes rfl
          have aligned : fp.clearError.content.length % size = 0 := checked.whole trivial fp stream
          have next := before.content.append uniform aligned passed
          rw [Output.dumpSector_bytes stream rfl]
          refine ⟨?_, fun going => ?_⟩
          · rintro fp' ⟨⟩
            exact flushed _ (before.write CheckedFile.shorter next write)
          · rintro fp' ⟨⟩
            have fine : (fp.clearError.write (written raw) write).error = false := by
              cases error : (fp.clearError.write (written raw) write).error with
              | false => rfl
              | true =>
                  rw [error] at going
                  cases going
            have accepted := AppendStream.write_accepted fp.clearError (written raw) fine
            have length : (fp.clearError.write (written raw) write).content.length % size = 0 := by
              rw [accepted, List.length_append, uniform, Nat.add_mod_right]
              exact aligned
            split
            · rw [AppendStream.flush_content _ whole]
              exact length
            · exact length

end OneOutput

/-! ## The loop over the sectors -/

/-- The sector that a raw file gets. -/
def rawSector (raw : Buffer) : List UInt8 := raw.bytes 2064

/-- The user data that an ISO file gets. -/
def isoSector (offset : Nat) (raw : Buffer) : List UInt8 := (raw.advance offset).bytes 2048

structure Dumper.Checked (offset : Nat) (going : Prop) (dmp : Dumper) : Prop where
  raw : dmp.raw.Checked rawSector 2064 going
  iso : dmp.iso.Checked (isoSector offset) 2048 going

section Loop

variable {σ : Type} {env : Env σ} {host : Host} {w w' : World σ} {read : SectorRead}

/-- What a read hands over has passed its check. -/
theorem discReadSector_shown (sound : CacheSound w) {i : UInt32}
    (returned : discReadSector env ⟨i, true, true⟩ w = .ok (w', read)) :
    (∀ bytes, (read.rawdata.map fun rawbuf => rawbuf.bytes 2064) = some bytes →
        ∃ raw, SectorChecked raw ∧ bytes = rawSector raw) ∧
      ∀ bytes, (read.data.map fun isobuf => isobuf.bytes 2048) = some bytes →
        ∃ raw, SectorChecked raw ∧ bytes = isoSector (dataOffset w.disctype) raw := by
  have valid := (discReadSector_sound env sound returned).2
  constructor
  · intro bytes shown
    obtain ⟨rawdata, pointer, rfl⟩ := Option.map_eq_some_iff.mp shown
    obtain ⟨raw, sector⟩ := valid (discReadSector_both returned (.inl (by rw [pointer]; rfl))).1
    exact ⟨raw, sector.checked, Buffer.bytes_congr (sector.rawdata rawdata pointer)⟩
  · intro bytes shown
    obtain ⟨data, pointer, rfl⟩ := Option.map_eq_some_iff.mp shown
    obtain ⟨raw, sector⟩ := valid (discReadSector_both returned (.inr (by rw [pointer]; rfl))).1
    exact ⟨raw, sector.checked, Buffer.bytes_congr (sector.data data pointer)⟩

theorem dumpLoop_checked (keeps : host.KeepsAccepted) {currentSector i : UInt32} {left : Nat}
    {dmp : Dumper} {offset : Nat} (sound : CacheSound w) (mode : dataOffset w.disctype = offset)
    (checked : dmp.Checked offset True) :
    (dumpLoop (fun i w => discReadSector env ⟨i, true, true⟩ w) host currentSector left i dmp
      w).dmp.Checked offset False := by
  induction left generalizing i dmp w with
  | zero => exact ⟨checked.raw.stop, checked.iso.stop⟩
  | succ left ih =>
      rcases ok : discReadSector env ⟨i, true, true⟩ w with abort | ⟨w', read⟩
      · rw [dumpLoop, ok]
        exact ⟨checked.raw.stop, checked.iso.stop⟩
      · rcases rawEnd : dmp.raw.dumpSector dmp.flushing dmp.hashing true
          (read.rawdata.map fun rawbuf => rawbuf.bytes 2064) (host.sector i).rawWrite
          (host.sector i).rawFlush with ⟨raw, out⟩
        rcases isoEnd : dmp.iso.dumpSector dmp.flushing dmp.hashing out
          (read.data.map fun isobuf => isobuf.bytes 2048) (host.sector i).isoWrite
          (host.sector i).isoFlush with ⟨iso, out'⟩
        obtain ⟨rawShown, isoShown⟩ := discReadSector_shown sound ok
        rw [mode] at isoShown
        have rawChecked := Output.dumpSector_checked (fun raw => Buffer.length_bytes ..) checked.raw
          dmp.flushing dmp.hashing true rawShown (host.sector i).rawWrite fun out => (keeps i out).1
        have isoChecked := Output.dumpSector_checked (fun raw => Buffer.length_bytes ..) checked.iso
          dmp.flushing dmp.hashing out isoShown (host.sector i).isoWrite fun out => (keeps i out).2
        rw [rawEnd] at rawChecked
        rw [isoEnd] at isoChecked
        rw [@dumpLoop_succ _ (fun i w => discReadSector env ⟨i, true, true⟩ w) host currentSector i left
          dmp w w' read raw iso out out' ok rawEnd isoEnd]
        cases out' with
        | false => exact ⟨rawChecked.stop, isoChecked.stop⟩
        | true =>
            have going := Output.dumpSector_going isoEnd
            rw [if_pos rfl]
            refine ih (discReadSector_sound env sound ok).1 ?_
              ⟨⟨rawChecked.keeps, fun _ => rawChecked.whole going⟩,
                ⟨isoChecked.keeps, fun _ => isoChecked.whole rfl⟩⟩
            rw [discReadSector_disctype sound.formed ok]
            exact mode

end Loop

/-! ## Opening the files -/

section Opening

variable {written : Buffer → List UInt8} {size : Nat} {o : Output} {startSector : UInt32}

theorem Output.prepare_checked {file : File} {wanted : Bool}
    (outfile : o.outfile = if wanted then some file else none) (enough : o.Enough size startSector)
    (checked : CheckedFile written (file.getD [])) (hashing : Bool) (replies : SetupReplies) :
    (o.prepare size startSector hashing replies).1.Checked written size True := by
  cases wanted with
  | false =>
      rw [Output.prepare_unwanted outfile]
      constructor
      · rintro fp ⟨⟩
      · rintro - fp ⟨⟩
  | true =>
      have fits := enough file outfile
      have hashed : ∃ hash, (if hashing && 0 < startSector then
          hashExisting size startSector.toNat (AppendStream.opened (file.getD [])).file o.hash
          else some o.hash) = some hash := by
        split
        · exact ⟨_, hashExisting_enough fits⟩
        · exact ⟨o.hash, rfl⟩
      obtain ⟨hash, hashed⟩ := hashed
      have cut : resized (file.getD []) (startSector.toNat * size) =
          (file.getD []).take (startSector.toNat * size) := by
        rw [resized, Nat.sub_eq_zero_of_le fits, List.replicate_zero, List.append_nil]
      have shorter := CheckedFile.shorter _ _ (List.take_prefix (startSector.toNat * size) _) checked
      have start : o.outfile = some file := outfile
      rw [Output.prepare, start]
      dsimp only
      rw [hashed]
      dsimp only
      split
      · constructor
        · rintro fp ⟨⟩
          dsimp only [AppendStream.opened]
          rw [cut]
          exact (AppendStream.keeps_opened checked).resize shorter rfl
        · rintro - fp ⟨⟩
          dsimp only [AppendStream.opened, AppendStream.content, AppendStream.resize]
          rw [cut, List.append_nil, List.length_take_of_le fits, Nat.mul_mod_left]
      · constructor
        · rintro fp ⟨⟩
        · rintro - fp ⟨⟩

theorem Output.Checked.close {going : Prop} (checked : o.Checked written size going) (reply : FlushReply) :
    (o.close reply).Checked written size False := by
  refine ⟨fun fp opened => ?_, nofun⟩
  obtain ⟨fp', stream, rfl⟩ := Option.map_eq_some_iff.mp opened
  exact (checked.keeps fp' stream).close CheckedFile.shorter reply

theorem Output.Checked.contents {going : Prop} (checked : o.Checked written size going) {before : File}
    (start : CheckedFile written (before.getD [])) :
    ∀ content ∈ o.contents before, CheckedFile written content := by
  unfold Output.contents
  cases stream : o.fp with
  | none =>
      intro content member
      cases List.mem_singleton.mp member
      exact start
  | some fp => exact (checked.keeps fp stream).history

end Opening

/-! ## Runs -/

section Runs

variable {σ : Type} {env : Env σ} {host : Host} {w₀ w : World σ} {options : Options} {files : Files}
  {offset : Nat} {dmp : Dumper}

structure Files.Checked (offset : Nat) (files : Files) : Prop where
  raw : CheckedFile rawSector (files.raw.getD [])
  iso : CheckedFile (isoSector offset) (files.iso.getD [])

/-- `dumper_prepare` and `dumper_dump` on the disc of the program. -/
def prepareAndDumpDisc (env : Env σ) (host : Host) (dmp : Dumper) (w : World σ) :
    Dumper × Option (Except DumperAbort Bool) :=
  prepareAndDump (fun i w => discReadSector env ⟨i, true, true⟩ w) host w.disc.sectorsNo dmp w

theorem Output.setOutputFile_fp (o : Output) (size : Nat) (outfile : Option File) (resume : Bool) :
    (o.setOutputFile size outfile resume).1.fp = o.fp := by
  unfold Output.setOutputFile
  split
  · rfl
  · split
    · rfl
    · split
      · rfl
      · split <;> rfl

theorem dumperSetOutputFiles_closed {resume : Bool}
    (set : dumperSetOutputFiles options files resume = some dmp) :
    dmp.raw.fp = none ∧ dmp.iso.fp = none := by
  unfold dumperSetOutputFiles dumperSetRawOutputFile dumperSetIsoOutputFile at set
  dsimp only at set
  split at set
  · cases set
  · rename_i rawSet
    obtain ⟨rfl, -⟩ := Prod.mk.inj rawSet
    split at set
    · cases set
    · rename_i isoSet
      obtain ⟨rfl, -⟩ := Prod.mk.inj isoSet
      cases set
      exact ⟨Output.setOutputFile_fp .., Output.setOutputFile_fp ..⟩

theorem prepareAndDumpDisc_checked (env : Env σ) {resume : Bool}
    (set : dumperSetOutputFiles options files resume = some dmp) (keeps : host.KeepsAccepted)
    (sound : CacheSound w) (mode : dataOffset w.disctype = offset) (before : files.Checked offset) :
    (prepareAndDumpDisc env host dmp w).1.Checked offset False := by
  have setTo := dumperSetOutputFiles_setTo set
  unfold prepareAndDumpDisc prepareAndDump
  cases start : dmp.chooseStart with
  | none =>
      have refused : dumperPrepare dmp host = (dmp, .error .noOutput) := by
        rw [dumperPrepare, start]
      obtain ⟨rawClosed, isoClosed⟩ := dumperSetOutputFiles_closed set
      rw [refused]
      refine ⟨⟨fun fp opened => ?_, False.elim⟩, ⟨fun fp opened => ?_, False.elim⟩⟩
      · cases rawClosed.symm.trans opened
      · cases isoClosed.symm.trans opened
  | some startSector =>
      obtain ⟨dmp₁, opening, hashing, outputs⟩ := dumperPrepare_outputs setTo start host
      have opened : (dumperPrepare dmp host).1.Checked offset True := by
        rw [outputs]
        exact ⟨Output.prepare_checked opening.raw opening.rawEnough before.raw _ _,
          Output.prepare_checked opening.iso opening.isoEnough before.iso _ _⟩
      rcases ready : dumperPrepare dmp host with ⟨dmp', abort | out⟩
      · rw [ready] at opened
        exact ⟨opened.raw.stop, opened.iso.stop⟩
      · rw [ready] at opened
        cases out with
        | false => exact ⟨opened.raw.stop, opened.iso.stop⟩
        | true =>
            have looped := @dumpLoop_checked σ env host w keeps 0 dmp'.startSector
              (w.disc.sectorsNo.toNat - dmp'.startSector.toNat) dmp' offset sound mode opened
            exact ⟨looped.raw.close host.rawClose, looped.iso.close host.isoClose⟩

/-- A run with any drive, in any state its disc can have reached, and what is left of the files. -/
inductive DiscRun (offset : Nat) : Files → Files → Prop
  | run {σ : Type} {env : Env σ} {host : Host} {w₀ w : World σ} {options : Options}
      {files files' : Files} {resume : Bool} {dmp : Dumper} (start : EmptyCache w₀)
      (reached : Relation.ReflTransGen (DiscStep env) w₀ w) (mode : dataOffset w.disctype = offset)
      (keeps : host.KeepsAccepted) (set : dumperSetOutputFiles options files resume = some dmp)
      (raw : Remains ((prepareAndDumpDisc env host dmp w).1.raw.contents files.raw) files'.raw)
      (iso : Remains ((prepareAndDumpDisc env host dmp w).1.iso.contents files.iso) files'.iso) :
      DiscRun offset files files'

theorem Remains.checked {written : Buffer → List UInt8} {contents : List (List UInt8)} {file : File}
    (remains : Remains contents file) (checked : ∀ content ∈ contents, CheckedFile written content) :
    CheckedFile written (file.getD []) := by
  cases file with
  | none => exact .nil written
  | some bytes =>
      obtain ⟨content, member, cut⟩ := remains bytes rfl
      exact (checked content member).shorter _ _ cut

theorem DiscRun.checked {files' : Files} (run : DiscRun offset files files')
    (before : files.Checked offset) : files'.Checked offset := by
  cases run with
  | @run _ env _ _ _ _ _ _ _ _ start reached mode keeps set raw iso =>
      have ended := prepareAndDumpDisc_checked env set keeps (run_sound start.sound reached) mode before
      exact ⟨raw.checked (ended.raw.contents before.raw), iso.checked (ended.iso.contents before.iso)⟩

theorem discRuns_checked (runs : Relation.ReflTransGen (DiscRun offset) ⟨none, none⟩ files) :
    files.Checked offset := by
  induction runs with
  | refl => exact ⟨.nil _, .nil _⟩
  | tail _ run ih => exact run.checked ih

end Runs

end Friidump
