import Friidump.Dumper
import Mathlib.Logic.Relation

/-!
# Interrupted dumps

However often and wherever a dump is cut off, its files are prefixes of the image,
and the next run goes on where the shorter one ends.
-/

set_option autoImplicit false

namespace Friidump

open Theory (AppendStream WriteReply FlushReply records records_succ length_records records_mono
  take_records)

/-! ## One output file -/

section OneOutput

variable {sector : Nat → List UInt8} {size n total : Nat} {o : Output} {hashing : Bool}

theorem Output.setOutputFile_start (fresh : o.outfile = none) (size : Nat) {file : File}
    (short : (file.getD []).length / size < 2 ^ 32) :
    ∃ startSector : UInt32, o.setOutputFile size (some file) true =
        ({ o with startSector := startSector, outfile := some file }, true) ∧
      startSector.toNat * size ≤ (file.getD []).length := by
  cases file with
  | none =>
      refine ⟨0, by simp [Output.setOutputFile, fresh], ?_⟩
      exact Nat.le_of_eq (Nat.zero_mul size)
  | some bytes =>
      refine ⟨(bytes.length / size / 16).toUInt32 * 16, by simp [Output.setOutputFile, fresh], ?_⟩
      rw [Option.getD_some] at short ⊢
      have value : (bytes.length / size / 16).toUInt32.toNat = bytes.length / size / 16 :=
        Nat.mod_eq_of_lt (by omega)
      have start : ((bytes.length / size / 16).toUInt32 * 16).toNat ≤ bytes.length / size := by
        rw [UInt32.toNat_mul, value]
        simp only [UInt32.reduceToNat]
        omega
      exact Nat.le_trans (Nat.mul_le_mul_right size start) (Nat.div_mul_le_self _ _)

theorem hashExisting_enough {size left : Nat} {rest hash : List UInt8}
    (enough : left * size ≤ rest.length) :
    hashExisting size left rest hash = some (hash ++ rest.take (left * size)) := by
  induction left generalizing rest hash with
  | zero => rw [hashExisting, Nat.zero_mul, List.take_zero, List.append_nil]
  | succ left ih =>
      rw [Nat.succ_mul] at enough ⊢
      have here : ¬ rest.length < size := by omega
      have later : left * size ≤ (rest.drop size).length := by
        rw [List.length_drop]
        omega
      rw [hashExisting, if_neg here, ih later, List.append_assoc, Nat.add_comm, ← List.take_add]

/-- The stream is open on a file that holds whole sectors, and so is the hash. -/
structure Output.Reached (sector : Nat → List UInt8) (hashing : Bool) (n : Nat) (o : Output) :
    Prop where
  content : ∀ fp, o.fp = some fp → fp.content = records sector n
  hash : hashing = true → o.fp ≠ none → o.hash = records sector n

/-- The stream is open if the output is wanted, and its file has always been a prefix of
the image. -/
structure Output.Within (full : List UInt8) (wanted : Bool) (o : Output) : Prop where
  opened : wanted = true → o.fp ≠ none
  within : ∀ fp, o.fp = some fp → AppendStream.Within full fp

theorem Output.prepare_ready (uniform : ∀ i, (sector i).length = size) (positive : 0 < size)
    {startSector : UInt32} (chosen : ∀ file, o.outfile = some file →
      file.getD [] <+: records sector total ∧ startSector.toNat * size ≤ (file.getD []).length)
    (cleared : hashing = true → o.hash = []) {replies : SetupReplies}
    (seeks : ∀ offset, replies.fseek offset = true)
    (truncates : ∀ length, replies.ftruncate length = true) :
    ∃ o', o.prepare size startSector hashing replies = (o', .ok (o.outfile.map fun _ => true)) ∧
      o'.Within (records sector total) o.outfile.isSome ∧
      o'.Reached sector hashing startSector.toNat := by
  cases outfile : o.outfile with
  | none =>
      refine ⟨{ o with fp := none }, by rw [Output.prepare, outfile]; rfl, ⟨nofun, nofun⟩, nofun, ?_⟩
      exact fun _ opened => absurd rfl opened
  | some file =>
      obtain ⟨start, enough⟩ := chosen file outfile
      have taken := take_records uniform positive start enough
      have cut : resized (file.getD []) (startSector.toNat * size) =
          records sector startSector.toNat := by
        rw [resized, taken, Nat.sub_eq_zero_of_le enough, List.replicate_zero, List.append_nil]
      have hashed : (if hashing && 0 < startSector then
          hashExisting size startSector.toNat (file.getD []) o.hash else some o.hash) =
            some (if hashing then records sector startSector.toNat else o.hash) := by
        cases hashing with
        | false => rfl
        | true =>
            rw [cleared rfl, hashExisting_enough enough, taken]
            by_cases begun : 0 < startSector
            · simp [begun]
            · have zero : startSector = 0 := UInt32.le_zero_iff.mp (UInt32.not_lt.mp begun)
              rw [zero]
              rfl
      have opened : AppendStream.Within (records sector total) (.opened (file.getD [])) :=
        AppendStream.within_opened start
      have whole : records sector startSector.toNat <+: records sector total := by
        rw [← taken]
        exact (List.take_prefix _ _).trans start
      refine ⟨{ o with
        fp := some ((AppendStream.opened (file.getD [])).resize (records sector startSector.toNat))
        hash := if hashing then records sector startSector.toNat else o.hash },
        ?_, ⟨fun _ => nofun, ?_⟩, ?_, ?_⟩
      · rw [Output.prepare, outfile]
        dsimp only [AppendStream.opened]
        rw [hashed]
        dsimp only
        rw [seeks, truncates, Bool.and_true, if_pos rfl, cut]
        rfl
      · rintro fp ⟨⟩
        exact opened.resize whole rfl
      · rintro fp ⟨⟩
        exact List.append_nil _
      · rintro rfl _
        rfl

theorem Output.dumpSector_closed (closed : o.fp = none) (flushing out : Bool)
    (buf : Option (List UInt8)) (write : WriteReply) (flush : FlushReply) :
    o.dumpSector flushing hashing out buf write flush = (o, out) := by
  rw [Output.dumpSector, closed]

theorem Output.dumpSector_missing {fp : AppendStream UInt8} (opened : o.fp = some fp)
    (flushing out : Bool) (write : WriteReply) (flush : FlushReply) :
    o.dumpSector flushing hashing out none write flush =
      ({ o with
        fp := some (if flushing then fp.clearError.flush flush else fp.clearError)
        hash := if hashing && false then o.hash ++ [] else o.hash }, false) := by
  rw [Output.dumpSector, opened]
  rfl

theorem Output.dumpSector_bytes {fp written : AppendStream UInt8} (opened : o.fp = some fp)
    {bytes : List UInt8} {write : WriteReply} (writes : fp.clearError.write bytes write = written)
    (flushing out : Bool) (flush : FlushReply) :
    o.dumpSector flushing hashing out (some bytes) write flush =
      ({ o with
        fp := some (if flushing then written.flush flush else written)
        hash := if hashing && (if written.error then false else out) then o.hash ++ bytes
          else o.hash }, if written.error then false else out) := by
  rw [Output.dumpSector, opened, ← writes]
  rfl

theorem Output.dumpSector_within (flushing out : Bool) {wanted : Bool}
    (within : o.Within (records sector total) wanted) (reached : o.Reached sector hashing n)
    (inside : n < total) {buf : Option (List UInt8)}
    (next : ∀ bytes, buf = some bytes → bytes = sector n) (write : WriteReply) (flush : FlushReply) :
    (o.dumpSector flushing hashing out buf write flush).1.Within (records sector total) wanted := by
  have flushed : ∀ fp : AppendStream UInt8, AppendStream.Within (records sector total) fp →
      AppendStream.Within (records sector total) (if flushing then fp.flush flush else fp) := by
    intro fp within
    split
    · exact within.flush flush
    · exact within
  cases stream : o.fp with
  | none =>
      rw [Output.dumpSector_closed stream]
      exact within
  | some fp =>
      have before := (within.within fp stream).clearError
      cases buf with
      | none =>
          rw [Output.dumpSector_missing stream]
          refine ⟨fun _ => nofun, ?_⟩
          rintro fp' ⟨⟩
          exact flushed _ before
      | some bytes =>
          cases next bytes rfl
          have follows : fp.clearError.content ++ sector n <+: records sector total := by
            have content : fp.clearError.content = records sector n := reached.content fp stream
            rw [content, ← records_succ]
            exact records_mono sector inside
          rw [Output.dumpSector_bytes stream rfl]
          refine ⟨fun _ => nofun, ?_⟩
          rintro fp' ⟨⟩
          exact flushed _ (before.write follows write)

theorem Output.dumpSector_reached (flushing out : Bool) (reached : o.Reached sector hashing n)
    {buf : Option (List UInt8)} (next : ∀ bytes, buf = some bytes → bytes = sector n)
    (write : WriteReply) {flush : FlushReply} (whole : ∀ out, flush ≠ .dropped out)
    (going : (o.dumpSector flushing hashing out buf write flush).2 = true) :
    out = true ∧
      (o.dumpSector flushing hashing out buf write flush).1.Reached sector hashing (n + 1) := by
  cases stream : o.fp with
  | none =>
      rw [Output.dumpSector_closed stream] at going ⊢
      exact ⟨going, fun fp opened => absurd (stream.symm.trans opened) nofun,
        fun _ opened => absurd stream opened⟩
  | some fp =>
      cases buf with
      | none =>
          rw [Output.dumpSector_missing stream] at going
          cases going
      | some bytes =>
          cases next bytes rfl
          rw [Output.dumpSector_bytes stream rfl] at going ⊢
          cases fine : (fp.clearError.write (sector n) write).error with
          | true =>
              rw [fine] at going
              cases going
          | false =>
              rw [fine] at going
              have going : out = true := going
              refine ⟨going, ?_, ?_⟩
              · rintro fp' ⟨⟩
                have accepted := AppendStream.write_accepted fp.clearError (sector n) fine
                have content : fp.clearError.content = records sector n := reached.content fp stream
                rw [content, ← records_succ] at accepted
                split
                · rw [AppendStream.flush_content _ whole]
                  exact accepted
                · exact accepted
              · rintro hashed _
                have absorbed := reached.hash hashed (stream ▸ nofun)
                rw [going, hashed, records_succ, ← absorbed]
                rfl

def Output.Complete (sector : Nat → List UInt8) (hashing : Bool) (n : Nat) (o : Output) : Prop :=
  ∃ fp, o.fp = some fp ∧ fp.file = records sector n ∧ (hashing = true → o.hash = records sector n)

theorem Output.Within.close {full : List UInt8} {wanted : Bool} (within : o.Within full wanted)
    (reply : FlushReply) : (o.close reply).Within full wanted := by
  cases stream : o.fp with
  | none =>
      have same : o.close reply = o := by
        rw [Output.close, stream]
        cases o
        cases stream
        rfl
      rw [same]
      exact within
  | some fp =>
      refine ⟨fun _ => by rw [Output.close, stream]; exact nofun, fun fp' opened => ?_⟩
      rw [Output.close, stream] at opened
      cases opened
      exact (within.within fp stream).close reply

theorem Output.Reached.close {full : List UInt8} (reached : o.Reached sector hashing n)
    (within : o.Within full true) : (o.close .flushed).Complete sector hashing n := by
  cases stream : o.fp with
  | none => exact absurd stream (within.opened rfl)
  | some fp =>
      refine ⟨fp.close .flushed, by rw [Output.close, stream]; rfl, ?_, fun hashed => ?_⟩
      · rw [AppendStream.close_file]
        exact reached.content fp stream
      · exact reached.hash hashed (stream ▸ nofun)

end OneOutput

/-! ## The loop over the sectors -/

/-- The bytes of a disc in both formats. -/
structure DumpImage where
  sectorsNo : UInt32
  raw : Nat → List UInt8
  data : Nat → List UInt8
  rawLength : ∀ i, (raw i).length = 2064
  dataLength : ∀ i, (data i).length = 2048

section Dump

variable {δ : Type} {readSector : UInt32 → δ → Except Abort (δ × SectorRead)} {host : Host}
  {I : δ → Prop} {image : DumpImage}

/-- While `I` holds of the disc, the reads that succeed yield the bytes of the image. -/
structure Yields (readSector : UInt32 → δ → Except Abort (δ × SectorRead)) (I : δ → Prop)
    (image : DumpImage) : Prop where
  kept : ∀ {i source source' read}, I source → readSector i source = .ok (source', read) → I source'
  raw : ∀ {i source source' read}, I source → readSector i source = .ok (source', read) →
    ∀ rawdata, read.rawdata = some rawdata → rawdata.bytes 2064 = image.raw i.toNat
  data : ∀ {i source source' read}, I source → readSector i source = .ok (source', read) →
    ∀ data, read.data = some data → data.bytes 2048 = image.data i.toNat

/-- No `fflush` drops what `fwrite` has accepted. -/
def Host.KeepsAccepted (host : Host) : Prop :=
  ∀ i out, (host.sector i).rawFlush ≠ .dropped out ∧ (host.sector i).isoFlush ≠ .dropped out

structure Dumper.Within (image : DumpImage) (options : Options) (dmp : Dumper) : Prop where
  raw : dmp.raw.Within (records image.raw image.sectorsNo.toNat) options.raw
  iso : dmp.iso.Within (records image.data image.sectorsNo.toNat) options.iso

structure Dumper.Reached (image : DumpImage) (n : Nat) (dmp : Dumper) : Prop where
  raw : dmp.raw.Reached image.raw dmp.hashing n
  iso : dmp.iso.Reached image.data dmp.hashing n

theorem dumpLoop_succ {currentSector i : UInt32} {left : Nat} {dmp : Dumper}
    {source source' : δ} {read : SectorRead} {raw iso : Output} {out out' : Bool}
    (ok : readSector i source = .ok (source', read))
    (rawEnd : dmp.raw.dumpSector dmp.flushing dmp.hashing true
      (read.rawdata.map fun rawbuf => rawbuf.bytes 2064) (host.sector i).rawWrite
      (host.sector i).rawFlush = (raw, out))
    (isoEnd : dmp.iso.dumpSector dmp.flushing dmp.hashing out
      (read.data.map fun isobuf => isobuf.bytes 2048) (host.sector i).isoWrite
      (host.sector i).isoFlush = (iso, out')) :
    dumpLoop readSector host currentSector (left + 1) i dmp source =
      if out' then dumpLoop readSector host currentSector left (i + 1)
        { dmp with raw := raw, iso := iso } source'
      else { dmp := { dmp with raw := raw, iso := iso }, source := source', out := .ok false
             currentSector := i } := by
  rw [dumpLoop, ok]
  dsimp only
  rw [rawEnd]
  dsimp only
  rw [isoEnd]

/-- A round that goes on has put one more sector into both files. -/
private theorem dumpRound_reached (yields : Yields readSector I image) (keeps : host.KeepsAccepted)
    {i : UInt32} {dmp : Dumper} {source source' : δ} {read : SectorRead} {raw iso : Output}
    {out out' : Bool} {options : Options} (usable : I source)
    (inside : i.toNat < image.sectorsNo.toNat) (within : dmp.Within image options)
    (reached : dmp.Reached image i.toNat) (ok : readSector i source = .ok (source', read))
    (rawEnd : dmp.raw.dumpSector dmp.flushing dmp.hashing true
      (read.rawdata.map fun rawbuf => rawbuf.bytes 2064) (host.sector i).rawWrite
      (host.sector i).rawFlush = (raw, out))
    (isoEnd : dmp.iso.dumpSector dmp.flushing dmp.hashing out
      (read.data.map fun isobuf => isobuf.bytes 2048) (host.sector i).isoWrite
      (host.sector i).isoFlush = (iso, out')) :
    { dmp with raw := raw, iso := iso }.Within image options ∧
      (out' = true → { dmp with raw := raw, iso := iso }.Reached image (i.toNat + 1)) := by
  have rawBytes : ∀ bytes, (read.rawdata.map fun rawbuf => rawbuf.bytes 2064) = some bytes →
      bytes = image.raw i.toNat := by
    intro bytes shown
    obtain ⟨rawdata, pointer, rfl⟩ := Option.map_eq_some_iff.mp shown
    exact yields.raw usable ok rawdata pointer
  have isoBytes : ∀ bytes, (read.data.map fun isobuf => isobuf.bytes 2048) = some bytes →
      bytes = image.data i.toNat := by
    intro bytes shown
    obtain ⟨data, pointer, rfl⟩ := Option.map_eq_some_iff.mp shown
    exact yields.data usable ok data pointer
  have rawWithin := Output.dumpSector_within dmp.flushing true within.raw reached.raw inside rawBytes
    (host.sector i).rawWrite (host.sector i).rawFlush
  have isoWithin := Output.dumpSector_within dmp.flushing out within.iso reached.iso inside isoBytes
    (host.sector i).isoWrite (host.sector i).isoFlush
  have rawReached := Output.dumpSector_reached dmp.flushing true reached.raw rawBytes
    (host.sector i).rawWrite fun out => (keeps i out).1
  have isoReached := Output.dumpSector_reached dmp.flushing out reached.iso isoBytes
    (host.sector i).isoWrite fun out => (keeps i out).2
  rw [rawEnd] at rawWithin rawReached
  rw [isoEnd] at isoWithin isoReached
  refine ⟨⟨rawWithin, isoWithin⟩, fun going => ?_⟩
  obtain ⟨earlier, iso⟩ := isoReached going
  exact ⟨(rawReached earlier).2, iso⟩

theorem dumpLoop_reached (yields : Yields readSector I image) (keeps : host.KeepsAccepted)
    {currentSector i : UInt32} {left : Nat} {dmp : Dumper} {source : δ} {options : Options}
    (usable : I source) (count : i.toNat + left = image.sectorsNo.toNat)
    (within : dmp.Within image options)
    (reached : dmp.Reached image i.toNat) :
    (dumpLoop readSector host currentSector left i dmp source).dmp.Within image options ∧
      (dumpLoop readSector host currentSector left i dmp source).dmp.hashing = dmp.hashing ∧
      ((dumpLoop readSector host currentSector left i dmp source).out = .ok true →
        (dumpLoop readSector host currentSector left i dmp source).dmp.Reached image
          image.sectorsNo.toNat) := by
  induction left generalizing i dmp source with
  | zero =>
      rw [← count]
      exact ⟨within, rfl, fun _ => reached⟩
  | succ left ih =>
      rcases ok : readSector i source with abort | ⟨source', read⟩
      · rw [dumpLoop, ok]
        exact ⟨within, rfl, nofun⟩
      · rcases rawEnd : dmp.raw.dumpSector dmp.flushing dmp.hashing true
          (read.rawdata.map fun rawbuf => rawbuf.bytes 2064) (host.sector i).rawWrite
          (host.sector i).rawFlush with ⟨raw, out⟩
        rcases isoEnd : dmp.iso.dumpSector dmp.flushing dmp.hashing out
          (read.data.map fun isobuf => isobuf.bytes 2048) (host.sector i).isoWrite
          (host.sector i).isoFlush with ⟨iso, out'⟩
        have inside : i.toNat < image.sectorsNo.toNat := by omega
        obtain ⟨roundWithin, roundReached⟩ := dumpRound_reached yields keeps usable inside within
          reached ok rawEnd isoEnd
        rw [dumpLoop_succ ok rawEnd isoEnd]
        cases out' with
        | false => exact ⟨roundWithin, rfl, nofun⟩
        | true =>
            have next : (i + 1).toNat = i.toNat + 1 :=
              toNat_add_one (Nat.lt_of_le_of_lt inside image.sectorsNo.toNat_lt)
            have roundReached := roundReached rfl
            rw [← next] at roundReached
            exact ih (yields.kept usable ok) (by omega) roundWithin roundReached

/-! ## A run -/

structure Host.Opens (host : Host) : Prop where
  rawSeek : ∀ offset, host.raw.fseek offset = true
  rawTruncate : ∀ length, host.raw.ftruncate length = true
  isoSeek : ∀ offset, host.iso.fseek offset = true
  isoTruncate : ∀ length, host.iso.ftruncate length = true

structure Files.Within (image : DumpImage) (files : Files) : Prop where
  raw : files.raw.getD [] <+: records image.raw image.sectorsNo.toNat
  iso : files.iso.getD [] <+: records image.data image.sectorsNo.toNat

def Output.Chosen (sector : Nat → List UInt8) (size total : Nat) (o : Output)
    (startSector : UInt32) : Prop :=
  ∀ file, o.outfile = some file →
    file.getD [] <+: records sector total ∧ startSector.toNat * size ≤ (file.getD []).length

theorem Output.Chosen.earlier {sector : Nat → List UInt8} {size total : Nat} {o : Output}
    {startSector : UInt32} (chosen : o.Chosen sector size total o.startSector)
    (earlier : o.outfile.isSome = true → startSector ≤ o.startSector) :
    o.Chosen sector size total startSector := by
  intro file outfile
  obtain ⟨start, enough⟩ := chosen file outfile
  have le := UInt32.le_iff_toNat_le.mp (earlier (outfile ▸ rfl))
  exact ⟨start, Nat.le_trans (Nat.mul_le_mul_right size le) enough⟩

theorem Output.Chosen.le {sector : Nat → List UInt8} {size total : Nat} {o : Output}
    {startSector : UInt32} (chosen : o.Chosen sector size total startSector)
    (uniform : ∀ i, (sector i).length = size) (positive : 0 < size)
    (wanted : o.outfile.isSome = true) : startSector.toNat ≤ total := by
  obtain ⟨file, outfile⟩ := Option.isSome_iff_exists.mp wanted
  obtain ⟨start, enough⟩ := chosen file outfile
  have length := Nat.le_trans enough start.length_le
  rw [length_records uniform] at length
  exact Nat.le_of_mul_le_mul_right length positive

theorem chooseStart_le {dmp : Dumper} {startSector : UInt32}
    (chosen : dmp.chooseStart = some startSector) :
    (dmp.raw.outfile.isSome = true → startSector ≤ dmp.raw.startSector) ∧
      (dmp.iso.outfile.isSome = true → startSector ≤ dmp.iso.startSector) ∧
      (dmp.raw.outfile.isSome = true ∨ dmp.iso.outfile.isSome = true) := by
  unfold Dumper.chooseStart at chosen
  split at chosen
  · rename_i both
    cases chosen
    refine ⟨fun _ => ?_, fun _ => ?_, .inl both.1⟩
    · split
      · exact UInt32.le_refl _
      · exact UInt32.not_lt.mp ‹_›
    · split
      · exact UInt32.le_of_lt ‹_›
      · exact UInt32.le_refl _
  · rename_i other
    split at chosen
    · rename_i raw
      cases chosen
      refine ⟨fun _ => UInt32.le_refl _, fun iso => ?_, .inl raw⟩
      have same : dmp.raw.startSector = dmp.iso.startSector :=
        Decidable.not_not.mp fun differ => other ⟨raw, iso, differ⟩
      exact same ▸ UInt32.le_refl _
    · rename_i raw
      split at chosen
      · rename_i iso
        cases chosen
        exact ⟨fun given => absurd given raw, fun _ => UInt32.le_refl _, .inr iso⟩
      · cases chosen

theorem chooseStart_none {dmp : Dumper} (none : dmp.chooseStart = none) :
    dmp.raw.outfile.isSome = false ∧ dmp.iso.outfile.isSome = false := by
  unfold Dumper.chooseStart at none
  split at none
  · cases none
  · split at none
    · cases none
    · rename_i raw
      split at none
      · cases none
      · rename_i iso
        exact ⟨Bool.eq_false_iff.mpr raw, Bool.eq_false_iff.mpr iso⟩

theorem Output.setOutputFile_chosen {sector : Nat → List UInt8} {size total : Nat}
    (uniform : ∀ i, (sector i).length = size) (few : total < 2 ^ 32) {o : Output}
    (fresh : o.outfile = none) (wanted : Bool) {file : File}
    (start : file.getD [] <+: records sector total) :
    ∃ o', o.setOutputFile size (if wanted then some file else none) true = (o', true) ∧
      o'.Chosen sector size total o'.startSector ∧ o'.outfile.isSome = wanted ∧
      o'.fp = o.fp := by
  cases wanted with
  | false => exact ⟨_, rfl, nofun, rfl, rfl⟩
  | true =>
      have length := start.length_le
      rw [length_records uniform] at length
      have short : (file.getD []).length / size < 2 ^ 32 :=
        Nat.lt_of_le_of_lt (Nat.div_le_of_le_mul (Nat.mul_comm size total ▸ length)) few
      obtain ⟨startSector, set, enough⟩ := o.setOutputFile_start fresh size short
      refine ⟨_, set, ?_, rfl, rfl⟩
      rintro file' ⟨⟩
      exact ⟨start, enough⟩

theorem initHashes_cleared (dmp : Dumper) :
    (dmp.initHashes.hashing = true → dmp.initHashes.raw.hash = [] ∧ dmp.initHashes.iso.hash = []) ∧
      dmp.initHashes.hashing = dmp.hashing ∧ dmp.initHashes.startSector = dmp.startSector ∧
      dmp.initHashes.raw.outfile = dmp.raw.outfile ∧ dmp.initHashes.iso.outfile = dmp.iso.outfile := by
  unfold Dumper.initHashes
  split
  · exact ⟨fun _ => ⟨rfl, rfl⟩, rfl, rfl, rfl, rfl⟩
  · rename_i off
    exact ⟨fun on => absurd on off, rfl, rfl, rfl, rfl⟩

theorem openOutputs_ready {dmp : Dumper} (opens : host.Opens)
    (raw : dmp.raw.Chosen image.raw 2064 image.sectorsNo.toNat dmp.startSector)
    (iso : dmp.iso.Chosen image.data 2048 image.sectorsNo.toNat dmp.startSector)
    (wanted : dmp.raw.outfile.isSome = true ∨ dmp.iso.outfile.isSome = true)
    (cleared : dmp.hashing = true → dmp.raw.hash = [] ∧ dmp.iso.hash = []) :
    ∃ raw' iso', dmp.openOutputs host = ({ dmp with raw := raw', iso := iso' }, .ok true) ∧
      raw'.Within (records image.raw image.sectorsNo.toNat) dmp.raw.outfile.isSome ∧
      iso'.Within (records image.data image.sectorsNo.toNat) dmp.iso.outfile.isSome ∧
      raw'.Reached image.raw dmp.hashing dmp.startSector.toNat ∧
      iso'.Reached image.data dmp.hashing dmp.startSector.toNat := by
  obtain ⟨raw', rawReady, rawWithin, rawReached⟩ := Output.prepare_ready image.rawLength
    (by decide) raw (fun on => (cleared on).1) opens.rawSeek opens.rawTruncate
  obtain ⟨iso', isoReady, isoWithin, isoReached⟩ := Output.prepare_ready image.dataLength
    (by decide) iso (fun on => (cleared on).2) opens.isoSeek opens.isoTruncate
  refine ⟨raw', iso', ?_, rawWithin, isoWithin, rawReached, isoReached⟩
  have out : (((dmp.iso.outfile.map fun _ => true) <|> (dmp.raw.outfile.map fun _ => true)).getD
      false) = true := by
    cases iso : dmp.iso.outfile with
    | some _ => rfl
    | none =>
        rw [iso] at wanted
        obtain ⟨file, raw⟩ := Option.isSome_iff_exists.mp (wanted.resolve_right nofun)
        rw [raw]
        rfl
  rw [Dumper.openOutputs, rawReady]
  dsimp only
  rw [isoReady]
  dsimp only
  rw [out]

theorem dumperPrepare_ready {dmp : Dumper} {startSector : UInt32} (opens : host.Opens)
    (start : dmp.chooseStart = some startSector)
    (raw : dmp.raw.Chosen image.raw 2064 image.sectorsNo.toNat dmp.raw.startSector)
    (iso : dmp.iso.Chosen image.data 2048 image.sectorsNo.toNat dmp.iso.startSector) :
    ∃ dmp', dumperPrepare dmp host = (dmp', .ok true) ∧ dmp'.startSector = startSector ∧
      dmp'.hashing = dmp.hashing ∧ startSector.toNat ≤ image.sectorsNo.toNat ∧
      dmp'.raw.Within (records image.raw image.sectorsNo.toNat) dmp.raw.outfile.isSome ∧
      dmp'.iso.Within (records image.data image.sectorsNo.toNat) dmp.iso.outfile.isSome ∧
      dmp'.Reached image startSector.toNat := by
  obtain ⟨rawLe, isoLe, wanted⟩ := chooseStart_le start
  have rawChosen := raw.earlier rawLe
  have isoChosen := iso.earlier isoLe
  have le : startSector.toNat ≤ image.sectorsNo.toNat := by
    cases wanted with
    | inl given => exact rawChosen.le image.rawLength (by decide) given
    | inr given => exact isoChosen.le image.dataLength (by decide) given
  obtain ⟨cleared, hashing, kept, rawFile, isoFile⟩ :=
    initHashes_cleared { dmp with startSector := startSector }
  rw [dumperPrepare, start]
  dsimp only
  generalize Dumper.initHashes { dmp with startSector := startSector } = dmp₁
    at cleared hashing kept rawFile isoFile
  have raw₁ : dmp₁.raw.Chosen image.raw 2064 image.sectorsNo.toNat dmp₁.startSector := by
    rw [Output.Chosen, rawFile, kept]
    exact rawChosen
  have iso₁ : dmp₁.iso.Chosen image.data 2048 image.sectorsNo.toNat dmp₁.startSector := by
    rw [Output.Chosen, isoFile, kept]
    exact isoChosen
  have wanted₁ : dmp₁.raw.outfile.isSome = true ∨ dmp₁.iso.outfile.isSome = true := by
    rw [rawFile, isoFile]
    exact wanted
  obtain ⟨raw', iso', ready, rawWithin, isoWithin, rawReached, isoReached⟩ :=
    openOutputs_ready opens raw₁ iso₁ wanted₁ cleared
  rw [rawFile] at rawWithin
  rw [isoFile] at isoWithin
  rw [kept] at rawReached isoReached
  exact ⟨_, ready, kept, hashing, le, rawWithin, isoWithin, ⟨rawReached, isoReached⟩⟩

/-- The outputs whose `fclose` writes everything out are complete. -/
structure Dumper.Completed (image : DumpImage) (host : Host) (options : Options) (hashing : Bool)
    (dmp : Dumper) : Prop where
  raw : options.raw = true → host.rawClose = .flushed →
    dmp.raw.Complete image.raw hashing image.sectorsNo.toNat
  iso : options.iso = true → host.isoClose = .flushed →
    dmp.iso.Complete image.data hashing image.sectorsNo.toNat

/-- The dump writes the rest of the image, unless it is stopped. -/
theorem dumperDump_reached (yields : Yields readSector I image) (keeps : host.KeepsAccepted)
    {dmp : Dumper} {source : δ} {options : Options} {currentSector : UInt32} (usable : I source)
    (within : dmp.Within image options) (le : dmp.startSector.toNat ≤ image.sectorsNo.toNat)
    (reached : dmp.Reached image dmp.startSector.toNat) :
    (dumperDump readSector host image.sectorsNo dmp source currentSector).dmp.Within image options ∧
      ((dumperDump readSector host image.sectorsNo dmp source currentSector).out = .ok true →
        (dumperDump readSector host image.sectorsNo dmp source currentSector).dmp.Completed image host
          options dmp.hashing) := by
  obtain ⟨looped, hashing, ended⟩ := @dumpLoop_reached δ readSector host I image yields keeps
    currentSector dmp.startSector (image.sectorsNo.toNat - dmp.startSector.toNat) dmp source options
    usable (Nat.add_sub_cancel' le) within reached
  refine ⟨⟨looped.raw.close _, looped.iso.close _⟩, fun success => ?_⟩
  obtain ⟨raw, iso⟩ := ended success
  rw [hashing] at raw iso
  constructor
  · intro wanted flushed
    have complete := raw.close (wanted ▸ looped.raw)
    rw [← flushed] at complete
    exact complete
  · intro wanted flushed
    have complete := iso.close (wanted ▸ looped.iso)
    rw [← flushed] at complete
    exact complete

theorem prepareAndDump_reached (yields : Yields readSector I image) (keeps : host.KeepsAccepted)
    (opens : host.Opens) {source : δ} (usable : I source) {options : Options} {dmp : Dumper}
    (raw : dmp.raw.Chosen image.raw 2064 image.sectorsNo.toNat dmp.raw.startSector)
    (iso : dmp.iso.Chosen image.data 2048 image.sectorsNo.toNat dmp.iso.startSector)
    (rawWanted : dmp.raw.outfile.isSome = options.raw)
    (isoWanted : dmp.iso.outfile.isSome = options.iso)
    (rawClosed : dmp.raw.fp = none) (isoClosed : dmp.iso.fp = none) :
    (prepareAndDump readSector host image.sectorsNo dmp source).1.Within image options ∧
      ((prepareAndDump readSector host image.sectorsNo dmp source).2 = some (.ok true) →
        (prepareAndDump readSector host image.sectorsNo dmp source).1.Completed image host options
          dmp.hashing) := by
  rw [prepareAndDump]
  cases start : dmp.chooseStart with
  | none =>
      obtain ⟨rawNone, isoNone⟩ := chooseStart_none start
      have refused : dumperPrepare dmp host = (dmp, .error .noOutput) := by
        rw [dumperPrepare, start]
      rw [refused]
      refine ⟨⟨⟨fun wanted => ?_, fun fp opened => ?_⟩, ⟨fun wanted => ?_, fun fp opened => ?_⟩⟩, nofun⟩
      · exact absurd (rawWanted.trans wanted) (Bool.eq_false_iff.mp rawNone)
      · cases rawClosed.symm.trans opened
      · exact absurd (isoWanted.trans wanted) (Bool.eq_false_iff.mp isoNone)
      · cases isoClosed.symm.trans opened
  | some startSector =>
      obtain ⟨dmp', prepared, chosen, hashing, le, rawWithin, isoWithin, reached⟩ :=
        dumperPrepare_ready opens start raw iso
      rw [rawWanted] at rawWithin
      rw [isoWanted] at isoWithin
      rw [← chosen] at le reached
      obtain ⟨within, completed⟩ := @dumperDump_reached δ readSector host I image yields keeps dmp'
        source options 0 usable ⟨rawWithin, isoWithin⟩ le reached
      rw [prepared, ← hashing]
      exact ⟨within, fun success => completed (Option.some.inj success)⟩

private theorem dumperRun_chosen {options : Options} {files : Files} {raw iso : Output}
    (rawSet : dumperNew.raw.setOutputFile 2064 (if options.raw then some files.raw else none) true =
      (raw, true))
    (isoSet : dumperNew.iso.setOutputFile 2048 (if options.iso then some files.iso else none) true =
      (iso, true)) (sectorsNo : UInt32) (source : δ) :
    dumperRun readSector host sectorsNo options files source =
      prepareAndDump readSector host sectorsNo { raw := raw, iso := iso, startSector := 0
                                                 hashing := options.hashing
                                                 flushing := options.flushing } source := by
  have rawOut : dumperSetRawOutputFile (dumperSetFlushing (dumperSetHashing dumperNew
      options.hashing) options.flushing) (if options.raw then some files.raw else none) true =
        ({ raw := raw, iso := dumperNew.iso, startSector := 0, hashing := options.hashing
           flushing := options.flushing }, true) := by
    rw [dumperSetRawOutputFile]
    dsimp only [dumperSetFlushing, dumperSetHashing]
    rw [rawSet]
    rfl
  rw [dumperRun, rawOut]
  dsimp only
  rw [dumperSetIsoOutputFile]
  dsimp only
  rw [isoSet]

theorem dumperRun_reached (yields : Yields readSector I image) (keeps : host.KeepsAccepted)
    (opens : host.Opens) {source : δ} (usable : I source) (options : Options) {files : Files}
    (within : files.Within image) :
    (dumperRun readSector host image.sectorsNo options files source).1.Within image options ∧
      ((dumperRun readSector host image.sectorsNo options files source).2 = some (.ok true) →
        (dumperRun readSector host image.sectorsNo options files source).1.Completed image host
          options options.hashing) := by
  have few : image.sectorsNo.toNat < 2 ^ 32 := image.sectorsNo.toNat_lt
  obtain ⟨raw, rawSet, rawChosen, rawWanted, rawClosed⟩ := Output.setOutputFile_chosen
    image.rawLength few (rfl : dumperNew.raw.outfile = none) options.raw within.raw
  obtain ⟨iso, isoSet, isoChosen, isoWanted, isoClosed⟩ := Output.setOutputFile_chosen
    image.dataLength few (rfl : dumperNew.iso.outfile = none) options.iso within.iso
  rw [dumperRun_chosen rawSet isoSet]
  exact prepareAndDump_reached yields keeps opens usable rawChosen isoChosen rawWanted isoWanted
    rawClosed isoClosed

/-! ## Any number of runs -/

/-- What the file has held during a run. -/
def Output.contents (o : Output) (before : File) : List (List UInt8) :=
  match o.fp with
  | some fp => fp.history
  | none => [before.getD []]

theorem Output.Within.contents {full : List UInt8} {wanted : Bool} {o : Output}
    (within : o.Within full wanted) {before : File} (start : before.getD [] <+: full) :
    ∀ content ∈ o.contents before, content <+: full := by
  unfold Output.contents
  cases stream : o.fp with
  | none =>
      intro content member
      cases List.mem_singleton.mp member
      exact start
  | some fp => exact (within.within fp stream).history

/-- What a stop at any moment can leave behind, of a content or of the start of one. -/
def Remains (contents : List (List UInt8)) (file : File) : Prop :=
  ∀ bytes, file = some bytes → ∃ content ∈ contents, bytes <+: content

theorem Remains.prefix_of {contents : List (List UInt8)} {file : File} {full : List UInt8}
    (remains : Remains contents file) (within : ∀ content ∈ contents, content <+: full) :
    file.getD [] <+: full := by
  cases file with
  | none => exact List.nil_prefix
  | some bytes =>
      obtain ⟨content, member, cut⟩ := remains bytes rfl
      exact cut.trans (within content member)

/-- A run and what is left of the files, each cut for itself. -/
inductive RunStep (readSector : UInt32 → δ → Except Abort (δ × SectorRead)) (I : δ → Prop)
    (sectorsNo : UInt32) : Files → Files → Prop
  | run {host : Host} {source : δ} {files files' : Files} (options : Options) (usable : I source)
      (opens : host.Opens) (keeps : host.KeepsAccepted)
      (raw : Remains ((dumperRun readSector host sectorsNo options files source).1.raw.contents
        files.raw) files'.raw)
      (iso : Remains ((dumperRun readSector host sectorsNo options files source).1.iso.contents
        files.iso) files'.iso) : RunStep readSector I sectorsNo files files'

theorem RunStep.within (yields : Yields readSector I image) {files files' : Files}
    (step : RunStep readSector I image.sectorsNo files files') (within : files.Within image) :
    files'.Within image := by
  cases step with
  | run options usable opens keeps raw iso =>
      have run := (dumperRun_reached yields keeps opens usable options within).1
      exact ⟨raw.prefix_of (run.raw.contents within.raw), iso.prefix_of (run.iso.contents within.iso)⟩

/-- After any runs that were stopped anywhere, a further run never holds anything but
prefixes of the image, and completes the files and the hashes if it succeeds. -/
theorem dump_resumes (yields : Yields readSector I image) {files : Files}
    (runs : Relation.ReflTransGen (RunStep readSector I image.sectorsNo) ⟨none, none⟩ files)
    (keeps : host.KeepsAccepted) (opens : host.Opens) {source : δ} (usable : I source)
    (options : Options) :
    (∀ content ∈ (dumperRun readSector host image.sectorsNo options files source).1.raw.contents
        files.raw, content <+: records image.raw image.sectorsNo.toNat) ∧
      (∀ content ∈ (dumperRun readSector host image.sectorsNo options files source).1.iso.contents
        files.iso, content <+: records image.data image.sectorsNo.toNat) ∧
      ((dumperRun readSector host image.sectorsNo options files source).2 = some (.ok true) →
        (options.raw = true → host.rawClose = .flushed →
          (dumperRun readSector host image.sectorsNo options files source).1.raw.Complete image.raw
            options.hashing image.sectorsNo.toNat) ∧
        (options.iso = true → host.isoClose = .flushed →
          (dumperRun readSector host image.sectorsNo options files source).1.iso.Complete image.data
            options.hashing image.sectorsNo.toNat)) := by
  have within : files.Within image := by
    induction runs with
    | refl => exact ⟨List.nil_prefix, List.nil_prefix⟩
    | tail _ step ih => exact step.within yields ih
  obtain ⟨run, complete⟩ := dumperRun_reached yields keeps opens usable options within
  refine ⟨run.raw.contents within.raw, run.iso.contents within.iso, fun success => ?_⟩
  exact ⟨(complete success).raw, (complete success).iso⟩

end Dump

/-! ## A disc of one sector -/

def blankImage : DumpImage where
  sectorsNo := 1
  raw _ := Buffer.bytes (fun _ => 0) 2064
  data _ := Buffer.bytes (fun _ => 0) 2048
  rawLength _ := Buffer.length_bytes ..
  dataLength _ := Buffer.length_bytes ..

def readBlank (_ : UInt32) (source : Unit) : Except Abort (Unit × SectorRead) :=
  .ok (source, { out := true, data := some fun _ => 0, rawdata := some fun _ => 0 })

theorem readBlank_yields : Yields readBlank (fun _ => True) blankImage where
  kept _ _ := trivial
  raw _ ok rawdata pointer := by
    cases ok
    cases pointer
    dsimp only [blankImage]
  data _ ok data pointer := by
    cases ok
    cases pointer
    dsimp only [blankImage]

def blankHost (rawFlush : FlushReply) : Host where
  raw := ⟨fun _ => true, fun _ => true⟩
  iso := ⟨fun _ => true, fun _ => true⟩
  sector _ := ⟨.accepted 0, rawFlush, .accepted 0, .flushed⟩
  rawClose := .flushed
  isoClose := .flushed

/-- A run leaves 100 bytes of the raw file and the whole ISO file; the next one completes both. -/
theorem dump_resumes_cut :
    ∃ files : Files, files = ⟨some (List.replicate 100 0), some (List.replicate 2048 0)⟩ ∧
      RunStep readBlank (fun _ => True) 1 ⟨none, none⟩ files ∧
      (dumperRun readBlank (blankHost .flushed) 1 ⟨true, true, true, true⟩ files ()).1.raw.Complete
        blankImage.raw true 1 ∧
      (dumperRun readBlank (blankHost .flushed) 1 ⟨true, true, true, true⟩ files ()).1.iso.Complete
        blankImage.data true 1 := by
  have keeps : (blankHost .flushed).KeepsAccepted := fun _ _ => ⟨nofun, nofun⟩
  have opens : (blankHost .flushed).Opens :=
    ⟨fun _ => rfl, fun _ => rfl, fun _ => rfl, fun _ => rfl⟩
  have step : RunStep readBlank (fun _ => True) 1 ⟨none, none⟩
      ⟨some (List.replicate 100 0), some (List.replicate 2048 0)⟩ := by
    refine @RunStep.run Unit readBlank _ 1 (blankHost .flushed) () _ _ ⟨true, true, true, true⟩ trivial
      opens keeps ?_ ?_
    · rintro bytes ⟨⟩
      decide +kernel
    · rintro bytes ⟨⟩
      decide +kernel
  have succeeded : (dumperRun readBlank (blankHost .flushed) 1 ⟨true, true, true, true⟩
      ⟨some (List.replicate 100 0), some (List.replicate 2048 0)⟩ ()).2 = some (.ok true) := by
    decide +kernel
  obtain ⟨_, _, complete⟩ := dump_resumes readBlank_yields (.single step) keeps opens
    (trivial : (fun _ : Unit => True) ()) ⟨true, true, true, true⟩
  have single : blankImage.sectorsNo = 1 := rfl
  rw [single] at complete
  obtain ⟨raw, iso⟩ := complete succeeded
  exact ⟨⟨some (List.replicate 100 0), some (List.replicate 2048 0)⟩, rfl, step, raw rfl rfl, iso rfl rfl⟩

/-- When the flush drops the sector, the dump reports success over an empty file. -/
theorem dump_loses_dropped :
    (dumperRun readBlank (blankHost (.dropped 0)) 1 ⟨true, false, true, true⟩ ⟨none, none⟩ ()).2 =
        some (.ok true) ∧
      ¬ (dumperRun readBlank (blankHost (.dropped 0)) 1 ⟨true, false, true, true⟩ ⟨none, none⟩
        ()).1.raw.Complete blankImage.raw true 1 := by
  refine ⟨rfl, ?_⟩
  rintro ⟨fp, opened, file, _⟩
  cases opened
  have length := congrArg List.length file
  rw [length_records blankImage.rawLength] at length
  cases length

end Friidump
