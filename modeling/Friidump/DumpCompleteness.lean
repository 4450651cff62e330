import Friidump.DumpResume

/-!
# Dumps reported as complete

What a successful `dumper_prepare` says about the two files, and what the dump
makes of the outputs it has opened.
-/

set_option autoImplicit false

namespace Friidump

open Theory (AppendStream WriteReply FlushReply records records_succ length_records take_records)

/-! ## Set-up of one output -/

/-- The outcome of `my_fseek` and `ftruncate` together. -/
def SetupReplies.succeed (replies : SetupReplies) (sectorSize : Nat) (startSector : UInt32) : Bool :=
  replies.fseek (startSector * sectorSize.toUInt32) && replies.ftruncate (startSector.toNat * sectorSize)

/-- The stream is open on the first `startSector` sectors of the old file. -/
def Output.TruncatedTo (sectorSize : Nat) (startSector : UInt32) (before : File) (o : Output) : Prop :=
  ∃ fp, o.fp = some fp ∧ fp.content = (before.getD []).take (startSector.toNat * sectorSize) ∧
    fp.content.length = startSector.toNat * sectorSize

/-- The old file holds the sectors before the one to start from. -/
def Output.Enough (sectorSize : Nat) (startSector : UInt32) (o : Output) : Prop :=
  ∀ file, o.outfile = some file → startSector.toNat * sectorSize ≤ (file.getD []).length

section OneOutput

variable {size : Nat} {startSector : UInt32} {hashing : Bool} {o : Output}

theorem Output.prepare_unwanted (unwanted : o.outfile = none) (size : Nat) (startSector : UInt32)
    (hashing : Bool) (replies : SetupReplies) :
    o.prepare size startSector hashing replies = ({ o with fp := none }, .ok none) := by
  rw [Output.prepare, unwanted]

private theorem hashed_enough {bytes hash : List UInt8} (enough : startSector.toNat * size ≤ bytes.length)
    (hashing : Bool) : ∃ hash', (if hashing && 0 < startSector then
      hashExisting size startSector.toNat bytes hash else some hash) = some hash' ∧
        (hashing = true → hash = [] → hash' = bytes.take (startSector.toNat * size)) := by
  split
  · refine ⟨_, hashExisting_enough enough, ?_⟩
    rintro _ rfl
    exact List.nil_append _
  · rename_i skipped
    refine ⟨hash, rfl, ?_⟩
    rintro rfl rfl
    have zero : startSector = 0 := by
      refine UInt32.le_zero_iff.mp (UInt32.not_lt.mp fun begun => skipped ?_)
      simp [begun]
    rw [zero, UInt32.toNat_zero, Nat.zero_mul, List.take_zero]

/-- The file stays open exactly if it could be positioned and cut. -/
theorem Output.prepare_wanted {file : File} (wanted : o.outfile = some file)
    (enough : o.Enough size startSector) (hashing : Bool) (replies : SetupReplies) :
    ∃ o', o.prepare size startSector hashing replies =
        (o', .ok (some (replies.succeed size startSector))) ∧
      (replies.succeed size startSector = true → o'.TruncatedTo size startSector file) ∧
      (replies.succeed size startSector = false → o'.fp = none) ∧
      (hashing = true → o.hash = [] →
        o'.hash = (file.getD []).take (startSector.toNat * size)) := by
  have fits := enough file wanted
  obtain ⟨hash, hashed, absorbed⟩ := @hashed_enough size startSector _ o.hash fits hashing
  rw [Output.prepare, wanted]
  dsimp only [AppendStream.opened]
  rw [hashed, SetupReplies.succeed]
  cases replies.fseek (startSector * size.toUInt32) && replies.ftruncate (startSector.toNat * size) with
  | false => exact ⟨_, rfl, fun success => absurd success Bool.false_ne_true, fun _ => rfl, absorbed⟩
  | true =>
      refine ⟨_, rfl, fun _ => ⟨_, rfl, ?_⟩, fun failure => absurd failure.symm Bool.false_ne_true,
        absorbed⟩
      have cut : resized (file.getD []) (startSector.toNat * size) =
          (file.getD []).take (startSector.toNat * size) := by
        rw [resized, Nat.sub_eq_zero_of_le fits, List.replicate_zero, List.append_nil]
      rw [AppendStream.content, AppendStream.resize, cut, List.append_nil]
      exact ⟨rfl, List.length_take_of_le fits⟩

end OneOutput

/-! ## The output files as the program sets them -/

/-- `main` up to `dumper_prepare`. -/
def dumperSetOutputFiles (options : Options) (files : Files) (resume : Bool) : Option Dumper :=
  let dmp := dumperSetFlushing (dumperSetHashing dumperNew options.hashing) options.flushing
  match dumperSetRawOutputFile dmp (if options.raw then some files.raw else none) resume with
  | (_, false) => none
  | (dmp, true) =>
      match dumperSetIsoOutputFile dmp (if options.iso then some files.iso else none) resume with
      | (_, false) => none
      | (dmp, true) => some dmp

theorem Output.setOutputFile_enough {o o' : Output} (fresh : o.outfile = none) {size : Nat}
    {outfile : Option File} {resume : Bool}
    (set : o.setOutputFile size outfile resume = (o', true)) :
    o'.outfile = outfile ∧ o'.Enough size o'.startSector := by
  unfold Output.setOutputFile at set
  cases outfile with
  | none =>
      cases set
      exact ⟨rfl, nofun⟩
  | some file =>
      dsimp only at set
      rw [fresh, Option.isSome_none, if_neg Bool.false_ne_true] at set
      cases file with
      | none =>
          cases set
          refine ⟨rfl, ?_⟩
          rintro _ ⟨⟩
          exact Nat.le_of_eq (Nat.zero_mul size)
      | some bytes =>
          cases resume with
          | false => cases set
          | true =>
              cases set
              refine ⟨rfl, ?_⟩
              rintro _ ⟨⟩
              refine Nat.le_trans (Nat.mul_le_mul_right size ?_) (Nat.div_mul_le_self _ size)
              rw [UInt32.toNat_mul]
              refine Nat.le_trans (Nat.mod_le _ _) ?_
              exact Nat.le_trans (Nat.mul_le_mul_right 16 (Nat.mod_le _ _))
                (Nat.div_mul_le_self _ 16)

/-- What setting the files leaves behind. -/
structure Dumper.SetTo (options : Options) (files : Files) (dmp : Dumper) : Prop where
  raw : dmp.raw.outfile = if options.raw then some files.raw else none
  iso : dmp.iso.outfile = if options.iso then some files.iso else none
  rawEnough : dmp.raw.Enough 2064 dmp.raw.startSector
  isoEnough : dmp.iso.Enough 2048 dmp.iso.startSector

theorem dumperSetOutputFiles_setTo {options : Options} {files : Files} {resume : Bool} {dmp : Dumper}
    (set : dumperSetOutputFiles options files resume = some dmp) : dmp.SetTo options files := by
  rw [dumperSetOutputFiles] at set
  dsimp only [dumperSetRawOutputFile, dumperSetIsoOutputFile] at set
  rcases raw : (dumperSetFlushing (dumperSetHashing dumperNew options.hashing)
    options.flushing).raw.setOutputFile 2064 (if options.raw then some files.raw else none) resume
    with ⟨o, _ | _⟩
  · rw [raw] at set
    cases set
  · rw [raw] at set
    dsimp only at set
    rcases iso : (dumperSetFlushing (dumperSetHashing dumperNew options.hashing)
      options.flushing).iso.setOutputFile 2048 (if options.iso then some files.iso else none) resume
      with ⟨o', _ | _⟩
    · rw [iso] at set
      cases set
    · rw [iso] at set
      cases set
      obtain ⟨rawFile, rawEnough⟩ := Output.setOutputFile_enough rfl raw
      obtain ⟨isoFile, isoEnough⟩ := Output.setOutputFile_enough rfl iso
      exact ⟨rawFile, isoFile, rawEnough, isoEnough⟩

/-! ## `dumper_prepare` -/

/-- One output after `dumper_prepare`, with what its set-up steps came to. -/
structure Output.SetUp (sectorSize : Nat) (startSector : UInt32) (hashing wanted done : Bool)
    (before : File) (o : Output) : Prop where
  opened : wanted = true → done = true → o.TruncatedTo sectorSize startSector before
  closed : wanted = true → done = false → o.fp = none
  absent : wanted = false → o.fp = none
  hash : hashing = true → wanted = true →
    o.hash = (before.getD []).take (startSector.toNat * sectorSize)

theorem Output.prepare_setUp {size : Nat} {startSector : UInt32} {hashing wanted : Bool} {o : Output}
    {file : File} (outfile : o.outfile = if wanted then some file else none)
    (enough : o.Enough size startSector) (cleared : hashing = true → o.hash = [])
    (replies : SetupReplies) :
    ∃ o', o.prepare size startSector hashing replies =
        (o', .ok (if wanted then some (replies.succeed size startSector) else none)) ∧
      o'.SetUp size startSector hashing wanted (replies.succeed size startSector) file := by
  cases wanted with
  | false =>
      rw [Output.prepare_unwanted outfile]
      exact ⟨_, rfl, nofun, nofun, fun _ => rfl, nofun⟩
  | true =>
      obtain ⟨o', prepared, opened, closed, hash⟩ := Output.prepare_wanted outfile enough hashing replies
      exact ⟨o', prepared, fun _ => opened, fun _ => closed, nofun, fun on _ => hash on (cleared on)⟩

/-- What `dumper_prepare` returns when it does not abort. The ISO file has the last word. -/
def Host.setUp (host : Host) (options : Options) (startSector : UInt32) : Bool :=
  if options.iso then host.iso.succeed 2048 startSector
  else if options.raw then host.raw.succeed 2064 startSector
  else false

structure Dumper.Prepared (options : Options) (files : Files) (host : Host) (startSector : UInt32)
    (dmp : Dumper) : Prop where
  start : dmp.startSector = startSector
  raw : dmp.raw.SetUp 2064 startSector dmp.hashing options.raw (host.raw.succeed 2064 startSector)
    files.raw
  iso : dmp.iso.SetUp 2048 startSector dmp.hashing options.iso (host.iso.succeed 2048 startSector)
    files.iso

theorem dumperPrepare_prepared {options : Options} {files : Files} {dmp : Dumper}
    (set : dmp.SetTo options files) {startSector : UInt32}
    (start : dmp.chooseStart = some startSector) (host : Host) :
    ∃ dmp', dumperPrepare dmp host = (dmp', .ok (host.setUp options startSector)) ∧
      dmp'.Prepared options files host startSector := by
  obtain ⟨rawLe, isoLe, -⟩ := chooseStart_le start
  obtain ⟨cleared, hashing, kept, rawFile, isoFile⟩ :=
    initHashes_cleared { dmp with startSector := startSector }
  rw [dumperPrepare, start]
  dsimp only
  generalize Dumper.initHashes { dmp with startSector := startSector } = dmp₁
    at cleared hashing kept rawFile isoFile
  have earlier : ∀ {o : Output} {size : Nat}, o.Enough size o.startSector →
      (o.outfile.isSome = true → startSector ≤ o.startSector) → o.Enough size startSector := by
    intro o size enough le file wanted
    have before := UInt32.le_iff_toNat_le.mp (le (wanted ▸ rfl))
    exact Nat.le_trans (Nat.mul_le_mul_right size before) (enough file wanted)
  have rawEnough : dmp₁.raw.Enough 2064 startSector := by
    rw [Output.Enough, rawFile]
    exact earlier set.rawEnough rawLe
  have isoEnough : dmp₁.iso.Enough 2048 startSector := by
    rw [Output.Enough, isoFile]
    exact earlier set.isoEnough isoLe
  obtain ⟨raw, rawOut, rawSetUp⟩ := Output.prepare_setUp (rawFile.trans set.raw) rawEnough
    (fun on => (cleared on).1) host.raw
  obtain ⟨iso, isoOut, isoSetUp⟩ := Output.prepare_setUp (isoFile.trans set.iso) isoEnough
    (fun on => (cleared on).2) host.iso
  have start₁ : dmp₁.startSector = startSector := kept
  rw [← start₁] at rawOut isoOut
  refine ⟨{ dmp₁ with raw := raw, iso := iso }, ?_, ⟨start₁, rawSetUp, isoSetUp⟩⟩
  rw [Dumper.openOutputs, rawOut]
  dsimp only
  rw [isoOut, start₁, Host.setUp]
  cases options.iso <;> cases options.raw <;> rfl

/-! ## `dumper_dump` on what has been opened -/

/-- The sectors of the old file as far as it is kept, then those of the disc. -/
def overlaid (before : List UInt8) (sectorSize start : Nat) (sector : Nat → List UInt8) (k : Nat) :
    List UInt8 :=
  if k < start then (before.drop (k * sectorSize)).take sectorSize else sector k

section Overlaid

variable {before : List UInt8} {size start n : Nat} {sector : Nat → List UInt8}

theorem records_overlaid_kept (le : n ≤ start) :
    records (overlaid before size start sector) n = before.take (n * size) := by
  induction n with
  | zero =>
      rw [Nat.zero_mul, List.take_zero]
      rfl
  | succ n ih =>
      rw [records_succ, ih (Nat.le_of_succ_le le), overlaid, if_pos (Nat.lt_of_succ_le le), Nat.succ_mul, List.take_add]

theorem records_overlaid (count : Nat) :
    records (overlaid before size start sector) (start + count) =
      before.take (start * size) ++ (List.range' start count).flatMap sector := by
  induction count with
  | zero =>
      rw [Nat.add_zero, records_overlaid_kept (Nat.le_refl start)]
      exact (List.append_nil _).symm
  | succ count ih =>
      have behind : ¬ start + count < start := Nat.not_lt.mpr (Nat.le_add_right _ _)
      rw [← Nat.add_assoc, records_succ, ih, overlaid, if_neg behind, List.range'_concat,
        List.flatMap_append, List.append_assoc, List.flatMap_singleton, Nat.one_mul]

end Overlaid

/-- The file as a complete dump leaves it. -/
def Output.Full (sector : Nat → List UInt8) (size : Nat) (before : File) (start total : Nat)
    (o : Output) : Prop :=
  ∃ fp, o.fp = some fp ∧ fp.file = (before.getD []).take (start * size) ++
    (List.range' start (total - start)).flatMap sector

theorem Output.dumpSector_fp (o : Output) (flushing hashing out : Bool) (buf : Option (List UInt8))
    (write : WriteReply) (flush : FlushReply) (opened : o.fp ≠ none) :
    (o.dumpSector flushing hashing out buf write flush).1.fp ≠ none := by
  cases stream : o.fp with
  | none => exact absurd stream opened
  | some fp =>
      cases buf with
      | none =>
          rw [Output.dumpSector_missing stream]
          exact nofun
      | some bytes =>
          rw [Output.dumpSector_bytes stream rfl]
          exact nofun

theorem Output.SetUp.reached {size : Nat} {startSector : UInt32} {hashing wanted done : Bool}
    {before : File} {o : Output} (setUp : o.SetUp size startSector hashing wanted done before)
    (sector : Nat → List UInt8) :
    o.Reached (overlaid (before.getD []) size startSector.toNat sector) hashing
      startSector.toNat := by
  have kept := @records_overlaid_kept (before.getD []) size startSector.toNat _ sector
    (Nat.le_refl startSector.toNat)
  cases wanted with
  | false =>
      have closed := setUp.absent rfl
      exact ⟨fun fp opened => absurd (closed.symm.trans opened) nofun,
        fun _ opened => absurd closed opened⟩
  | true =>
      refine ⟨fun fp opened => ?_, fun on _ => (setUp.hash on rfl).trans kept.symm⟩
      cases done with
      | false => exact absurd ((setUp.closed rfl rfl).symm.trans opened) nofun
      | true =>
          obtain ⟨fp', opened', content, -⟩ := setUp.opened rfl rfl
          cases opened.symm.trans opened'
          exact content.trans kept.symm

section Dump

variable {δ : Type} {readSector : UInt32 → δ → Except Abort (δ × SectorRead)} {host : Host}
  {I : δ → Prop} {image : DumpImage} {rawBefore isoBefore : List UInt8}

/-- Both outputs hold their old sectors and those of the disc up to the given one. -/
structure Dumper.Overlaid (image : DumpImage) (rawBefore isoBefore : List UInt8) (start n : Nat)
    (dmp : Dumper) : Prop where
  raw : dmp.raw.Reached (overlaid rawBefore 2064 start image.raw) dmp.hashing n
  iso : dmp.iso.Reached (overlaid isoBefore 2048 start image.data) dmp.hashing n

private theorem dumpRound_overlaid (yields : Yields readSector I image) (keeps : host.KeepsAccepted)
    {i : UInt32} {dmp : Dumper} {source source' : δ} {read : SectorRead} {raw iso : Output}
    {out : Bool} {start : Nat} (usable : I source) (behind : start ≤ i.toNat)
    (reached : dmp.Overlaid image rawBefore isoBefore start i.toNat)
    (ok : readSector i source = .ok (source', read))
    (rawEnd : dmp.raw.dumpSector dmp.flushing dmp.hashing true
      (read.rawdata.map fun rawbuf => rawbuf.bytes 2064) (host.sector i).rawWrite
      (host.sector i).rawFlush = (raw, out))
    (isoEnd : dmp.iso.dumpSector dmp.flushing dmp.hashing out
      (read.data.map fun isobuf => isobuf.bytes 2048) (host.sector i).isoWrite
      (host.sector i).isoFlush = (iso, true)) :
    { dmp with raw := raw, iso := iso }.Overlaid image rawBefore isoBefore start (i.toNat + 1) := by
  have rawBytes : ∀ bytes, (read.rawdata.map fun rawbuf => rawbuf.bytes 2064) = some bytes →
      bytes = overlaid rawBefore 2064 start image.raw i.toNat := by
    intro bytes shown
    obtain ⟨rawdata, pointer, rfl⟩ := Option.map_eq_some_iff.mp shown
    rw [overlaid, if_neg (Nat.not_lt.mpr behind)]
    exact yields.raw usable ok rawdata pointer
  have isoBytes : ∀ bytes, (read.data.map fun isobuf => isobuf.bytes 2048) = some bytes →
      bytes = overlaid isoBefore 2048 start image.data i.toNat := by
    intro bytes shown
    obtain ⟨data, pointer, rfl⟩ := Option.map_eq_some_iff.mp shown
    rw [overlaid, if_neg (Nat.not_lt.mpr behind)]
    exact yields.data usable ok data pointer
  have rawReached := Output.dumpSector_reached dmp.flushing true reached.raw rawBytes
    (host.sector i).rawWrite fun out => (keeps i out).1
  have isoReached := Output.dumpSector_reached dmp.flushing out reached.iso isoBytes
    (host.sector i).isoWrite fun out => (keeps i out).2
  rw [rawEnd] at rawReached
  rw [isoEnd] at isoReached
  obtain ⟨earlier, isoNext⟩ := isoReached rfl
  exact ⟨(rawReached earlier).2, isoNext⟩

theorem dumpLoop_overlaid (yields : Yields readSector I image) (keeps : host.KeepsAccepted)
    {currentSector i : UInt32} {left start : Nat} {dmp : Dumper} {source : δ} (usable : I source)
    (behind : start ≤ i.toNat) (inside : i.toNat + left < 2 ^ 32)
    (reached : dmp.Overlaid image rawBefore isoBefore start i.toNat)
    (success : (dumpLoop readSector host currentSector left i dmp source).out = .ok true) :
    (dumpLoop readSector host currentSector left i dmp source).dmp.Overlaid image rawBefore isoBefore
        start (i.toNat + left) ∧
      (dmp.raw.fp ≠ none →
        (dumpLoop readSector host currentSector left i dmp source).dmp.raw.fp ≠ none) ∧
      (dmp.iso.fp ≠ none →
        (dumpLoop readSector host currentSector left i dmp source).dmp.iso.fp ≠ none) := by
  induction left generalizing i dmp source with
  | zero => exact ⟨reached, id, id⟩
  | succ left ih =>
      rcases ok : readSector i source with abort | ⟨source', read⟩
      · rw [dumpLoop, ok] at success
        cases success
      · rcases rawEnd : dmp.raw.dumpSector dmp.flushing dmp.hashing true
          (read.rawdata.map fun rawbuf => rawbuf.bytes 2064) (host.sector i).rawWrite
          (host.sector i).rawFlush with ⟨raw, out⟩
        rcases isoEnd : dmp.iso.dumpSector dmp.flushing dmp.hashing out
          (read.data.map fun isobuf => isobuf.bytes 2048) (host.sector i).isoWrite
          (host.sector i).isoFlush with ⟨iso, out'⟩
        rw [dumpLoop_succ ok rawEnd isoEnd] at success ⊢
        cases out' with
        | false => cases success
        | true =>
            have next : (i + 1).toNat = i.toNat + 1 := toNat_add_one (by omega)
            have round := dumpRound_overlaid yields keeps usable behind reached ok rawEnd isoEnd
            rw [← next] at round
            obtain ⟨ended, rawOpen, isoOpen⟩ := ih (yields.kept usable ok) (by omega) (by omega) round
              success
            have count : (i + 1).toNat + left = i.toNat + (left + 1) := by omega
            rw [count] at ended
            refine ⟨ended, fun opened => rawOpen ?_, fun opened => isoOpen ?_⟩
            · have still := dmp.raw.dumpSector_fp dmp.flushing dmp.hashing true
                (read.rawdata.map fun rawbuf => rawbuf.bytes 2064) (host.sector i).rawWrite
                (host.sector i).rawFlush opened
              rwa [rawEnd] at still
            · have still := dmp.iso.dumpSector_fp dmp.flushing dmp.hashing out
                (read.data.map fun isobuf => isobuf.bytes 2048) (host.sector i).isoWrite
                (host.sector i).isoFlush opened
              rwa [isoEnd] at still

theorem Output.Reached.full {size start total : Nat}
    {sector : Nat → List UInt8} {hashing : Bool} {file : File} {o : Output}
    (reached : o.Reached (overlaid (file.getD []) size start sector) hashing
      (start + (total - start))) (opened : o.fp ≠ none) :
    (o.close .flushed).Full sector size file start total := by
  cases stream : o.fp with
  | none => exact absurd stream opened
  | some fp =>
      refine ⟨fp.close .flushed, by rw [Output.close, stream]; rfl, ?_⟩
      rw [AppendStream.close_file, reached.content fp stream, records_overlaid]

/-- A dump that succeeds has appended all remaining sectors to the streams that were open. -/
theorem dumperDump_full (yields : Yields readSector I image) (keeps : host.KeepsAccepted)
    (rawClose : host.rawClose = .flushed) (isoClose : host.isoClose = .flushed) {options : Options}
    {files : Files} {startSector : UInt32} {dmp : Dumper}
    (prepared : dmp.Prepared options files host startSector) {source : δ} (usable : I source)
    (currentSector : UInt32)
    (success : (dumperDump readSector host image.sectorsNo dmp source currentSector).out = .ok true) :
    (dmp.raw.fp ≠ none →
      (dumperDump readSector host image.sectorsNo dmp source currentSector).dmp.raw.Full image.raw
        2064 files.raw startSector.toNat image.sectorsNo.toNat) ∧
      (dmp.iso.fp ≠ none →
        (dumperDump readSector host image.sectorsNo dmp source currentSector).dmp.iso.Full image.data
          2048 files.iso startSector.toNat image.sectorsNo.toNat) := by
  have few := image.sectorsNo.toNat_lt
  have first := dmp.startSector.toNat_lt
  have reached : dmp.Overlaid image (files.raw.getD []) (files.iso.getD []) startSector.toNat
      dmp.startSector.toNat := by
    rw [prepared.start]
    exact ⟨prepared.raw.reached image.raw, prepared.iso.reached image.data⟩
  obtain ⟨looped, rawOpen, isoOpen⟩ := dumpLoop_overlaid yields keeps usable
    (Nat.le_of_eq (congrArg UInt32.toNat prepared.start.symm)) (by omega) reached success
  rw [dumperDump, rawClose, isoClose]
  rw [prepared.start] at looped rawOpen isoOpen ⊢
  exact ⟨fun opened => looped.raw.full (rawOpen opened), fun opened => looped.iso.full (isoOpen opened)⟩

end Dump

/-! ## What a reported success says -/

/-- The outputs are open where `dumper_prepare` returns `true`, and complete where
`dumper_dump` does too and no stream loses what it has accepted. -/
structure CompletesOutputs (options : Options) (files : Files) (dmp : Dumper) (host : Host) : Prop where
  opened : (dumperPrepare dmp host).2 = .ok true →
    (options.raw = true → (dumperPrepare dmp host).1.raw.TruncatedTo 2064
      (dumperPrepare dmp host).1.startSector files.raw) ∧
    (options.iso = true → (dumperPrepare dmp host).1.iso.TruncatedTo 2048
      (dumperPrepare dmp host).1.startSector files.iso)
  dumped : ∀ (δ : Type) (readSector : UInt32 → δ → Except Abort (δ × SectorRead)) (I : δ → Prop)
    (image : DumpImage), Yields readSector I image → host.KeepsAccepted →
    host.rawClose = .flushed → host.isoClose = .flushed →
    ∀ source, I source → ∀ currentSector, (dumperPrepare dmp host).2 = .ok true →
      ∀ dumped, dumperDump readSector host image.sectorsNo (dumperPrepare dmp host).1 source
        currentSector = dumped → dumped.out = .ok true →
      (options.raw = true → dumped.dmp.raw.Full image.raw 2064 files.raw
        (dumperPrepare dmp host).1.startSector.toNat image.sectorsNo.toNat) ∧
      (options.iso = true → dumped.dmp.iso.Full image.data 2048 files.iso
        (dumperPrepare dmp host).1.startSector.toNat image.sectorsNo.toNat)

/-- The raw file could not be set up, but the ISO file behind it could. -/
def Masked (options : Options) (host : Host) (startSector : UInt32) : Prop :=
  options.raw = true ∧ options.iso = true ∧ host.raw.succeed 2064 startSector = false ∧
    host.iso.succeed 2048 startSector = true

theorem Dumper.Prepared.opened {options : Options} {files : Files} {host : Host}
    {startSector : UInt32} {dmp : Dumper} (prepared : dmp.Prepared options files host startSector)
    (success : host.setUp options startSector = true) (unmasked : ¬ Masked options host startSector) :
    (options.raw = true → dmp.raw.TruncatedTo 2064 startSector files.raw) ∧
      (options.iso = true → dmp.iso.TruncatedTo 2048 startSector files.iso) := by
  rw [Host.setUp] at success
  cases iso : options.iso with
  | true =>
      rw [iso, if_pos rfl] at success
      refine ⟨fun raw => ?_, fun _ => prepared.iso.opened iso success⟩
      cases done : host.raw.succeed 2064 startSector with
      | true => exact prepared.raw.opened raw done
      | false => exact absurd ⟨raw, iso, done, success⟩ unmasked
  | false =>
      rw [iso, if_neg Bool.false_ne_true] at success
      refine ⟨fun raw => ?_, nofun⟩
      rw [raw, if_pos rfl] at success
      exact prepared.raw.opened raw success

/-- A reported success stands for all requested outputs exactly when the ISO file does
not hide a failure of the raw file. -/
theorem completesOutputs_iff {options : Options} {files : Files} {resume : Bool} {dmp : Dumper}
    (set : dumperSetOutputFiles options files resume = some dmp) (host : Host) :
    CompletesOutputs options files dmp host ↔
      ∀ startSector, dmp.chooseStart = some startSector → ¬ Masked options host startSector := by
  have setTo := dumperSetOutputFiles_setTo set
  constructor
  · rintro sound startSector start ⟨raw, iso, rawFails, isoWorks⟩
    obtain ⟨dmp', ready, prepared⟩ := dumperPrepare_prepared setTo start host
    have success : host.setUp options startSector = true := by
      rw [Host.setUp, iso, if_pos rfl, isoWorks]
    have opened := sound.opened
    rw [ready] at opened
    obtain ⟨fp, stream, -⟩ := (opened (congrArg Except.ok success)).1 raw
    cases (prepared.raw.closed raw rawFails).symm.trans stream
  · intro unmasked
    cases start : dmp.chooseStart with
    | none =>
        have aborted : dumperPrepare dmp host = (dmp, .error .noOutput) := by
          rw [dumperPrepare, start]
        constructor
        · rw [aborted]
          intro success
          cases success
        · rw [aborted]
          intro _ _ _ _ _ _ _ _ _ _ _ success
          cases success
    | some startSector =>
        obtain ⟨dmp', ready, prepared⟩ := dumperPrepare_prepared setTo start host
        have opened := fun success => prepared.opened success (unmasked startSector start)
        constructor
        · rw [ready]
          intro success
          rw [prepared.start]
          exact opened (Except.ok.inj success)
        · rw [ready]
          rintro δ readSector I image yields keeps rawClose isoClose source usable currentSector success
            _ rfl ended
          obtain ⟨rawOpened, isoOpened⟩ := opened (Except.ok.inj success)
          obtain ⟨rawFull, isoFull⟩ := dumperDump_full yields keeps rawClose isoClose prepared usable
            currentSector ended
          rw [prepared.start]
          refine ⟨fun raw => rawFull ?_, fun iso => isoFull ?_⟩
          · obtain ⟨fp, stream, -⟩ := rawOpened raw
            rw [stream]
            exact Option.some_ne_none _
          · obtain ⟨fp, stream, -⟩ := isoOpened iso
            rw [stream]
            exact Option.some_ne_none _

def newDump : Dumper :=
  { raw := { outfile := some none, startSector := 0, fp := none, hash := [] }
    iso := { outfile := some none, startSector := 0, fp := none, hash := [] }
    startSector := 0, hashing := true, flushing := true }

theorem completesOutputs_new :
    CompletesOutputs ⟨true, true, true, true⟩ ⟨none, none⟩ newDump (blankHost .flushed) := by
  refine (@completesOutputs_iff _ _ false _ rfl _).mpr ?_
  rintro startSector - ⟨-, -, fails, -⟩
  cases fails

/-- A host whose raw file cannot be truncated. -/
def rawStuckHost : Host :=
  { blankHost .flushed with raw := ⟨fun _ => true, fun _ => false⟩ }

/-- The raw file stays closed, and preparation and dump both report success. -/
theorem completesOutputs_fails_stuck :
    dumperSetOutputFiles ⟨true, true, true, true⟩ ⟨none, none⟩ false = some newDump ∧
      (prepareAndDump readBlank rawStuckHost 1 newDump ()).2 = some (.ok true) ∧
      (prepareAndDump readBlank rawStuckHost 1 newDump ()).1.raw.fp.isNone = true ∧
      ¬ CompletesOutputs ⟨true, true, true, true⟩ ⟨none, none⟩ newDump rawStuckHost := by
  refine ⟨rfl, rfl, rfl, fun sound => ?_⟩
  obtain ⟨fp, stream, -⟩ := (sound.opened rfl).1 rfl
  cases stream

end Friidump
