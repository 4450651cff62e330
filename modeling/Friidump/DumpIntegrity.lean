import Friidump.DumpCompleteness
import Friidump.HashedDumpRefinement
import Friidump.SectorAddressing
import Friidump.Sha1Digest

/-!
# What a dump that succeeds has written

Whatever the drive answers, the sectors that a dump appends to its files have passed
their checks, the two files agree with each other, and the digests are those of the files.
-/

set_option autoImplicit false

namespace Friidump

open Theory (AppendStream WriteReply FlushReply records)

/-! ## The reads of a dump -/

section Replay

variable {δ : Type} (readSector : UInt32 → δ → Except Abort (δ × SectorRead))

/-- The source after so many reads from the first sector on. -/
def sourceAfter (first : UInt32) (source : δ) : Nat → δ
  | 0 => source
  | n + 1 =>
      match readSector (first + n.toUInt32) (sourceAfter first source n) with
      | .error _ => sourceAfter first source n
      | .ok (source, _) => source

/-- The reads of a dump, as a source without a state. -/
def replay (first : UInt32) (source : δ) (i : UInt32) (_ : Unit) : Except Abort (Unit × SectorRead) :=
  (readSector i (sourceAfter readSector first source (i - first).toNat)).map fun read => ((), read.2)

variable {readSector} {host : Host} {first : UInt32} {source : δ}

theorem sourceAfter_next {n : Nat} {after : δ} {read : SectorRead}
    (ok : readSector (first + n.toUInt32) (sourceAfter readSector first source n) = .ok (after, read)) :
    sourceAfter readSector first source (n + 1) = after := by
  rw [sourceAfter, ok]

theorem sourceAfter_invariant {I : δ → Prop}
    (kept : ∀ {i source source' read}, I source → readSector i source = .ok (source', read) → I source')
    (usable : I source) (n : Nat) : I (sourceAfter readSector first source n) := by
  induction n with
  | zero => exact usable
  | succ n ih =>
      rcases ok : readSector (first + n.toUInt32) (sourceAfter readSector first source n) with
        abort | ⟨after, read⟩
      · rw [sourceAfter, ok]
        exact ih
      · rw [sourceAfter_next ok]
        exact kept ih ok

theorem sub_left_toNat {n : Nat} (small : n < 2 ^ 32) : (first + n.toUInt32 - first).toNat = n := by
  have cancel : first + n.toUInt32 - first = n.toUInt32 := by
    rw [UInt32.add_comm, UInt32.add_sub_cancel]
  rw [cancel, toNat_toUInt32, Nat.mod_eq_of_lt small]

/-- The dump is the dump of what its reads returned. -/
theorem dumpLoop_replay (currentSector : UInt32) {left n : Nat} (room : n + left ≤ 2 ^ 32)
    (dmp : Dumper) :
    (dumpLoop readSector host currentSector left (first + n.toUInt32) dmp
        (sourceAfter readSector first source n)).dmp =
      (dumpLoop (replay readSector first source) host currentSector left (first + n.toUInt32) dmp
        ()).dmp ∧
    (dumpLoop readSector host currentSector left (first + n.toUInt32) dmp
        (sourceAfter readSector first source n)).out =
      (dumpLoop (replay readSector first source) host currentSector left (first + n.toUInt32) dmp
        ()).out := by
  induction left generalizing n dmp with
  | zero => exact ⟨rfl, rfl⟩
  | succ left ih =>
      have number : n < 2 ^ 32 := by omega
      have here := @sub_left_toNat first n number
      rcases ok : readSector (first + n.toUInt32) (sourceAfter readSector first source n) with
        abort | ⟨after, read⟩
      · have replayed : replay readSector first source (first + n.toUInt32) () = .error abort := by
          rw [replay, here, ok]
          rfl
        rw [dumpLoop, dumpLoop, ok, replayed]
        exact ⟨rfl, rfl⟩
      · have replayed : replay readSector first source (first + n.toUInt32) () = .ok ((), read) := by
          rw [replay, here, ok]
          rfl
        rcases rawEnd : dmp.raw.dumpSector dmp.flushing dmp.hashing true
          (read.rawdata.map fun rawbuf => rawbuf.bytes 2064) (host.sector (first + n.toUInt32)).rawWrite
          (host.sector (first + n.toUInt32)).rawFlush with ⟨raw, out⟩
        rcases isoEnd : dmp.iso.dumpSector dmp.flushing dmp.hashing out
          (read.data.map fun isobuf => isobuf.bytes 2048) (host.sector (first + n.toUInt32)).isoWrite
          (host.sector (first + n.toUInt32)).isoFlush with ⟨iso, out'⟩
        rw [dumpLoop_succ ok rawEnd isoEnd, dumpLoop_succ replayed rawEnd isoEnd]
        cases out' with
        | false => exact ⟨rfl, rfl⟩
        | true =>
            have next : first + n.toUInt32 + 1 = first + (n + 1).toUInt32 := by
              rw [toUInt32_succ, UInt32.add_assoc]
            rw [if_pos rfl, if_pos rfl, next, ← sourceAfter_next ok]
            exact ih (by omega) { dmp with raw := raw, iso := iso }

theorem dumpLoop_hashing {currentSector i : UInt32} {left : Nat} {dmp : Dumper} :
    (dumpLoop readSector host currentSector left i dmp source).dmp.hashing = dmp.hashing := by
  induction left generalizing i dmp source with
  | zero => rfl
  | succ left ih =>
      rw [dumpLoop]
      split
      · rfl
      · dsimp only
        split
        · exact ih
        · rfl

/-- The second output does not mend what has failed for the first one. -/
theorem Output.dumpSector_going {o o' : Output} {flushing hashing out : Bool}
    {buf : Option (List UInt8)} {write : WriteReply} {flush : FlushReply}
    (going : o.dumpSector flushing hashing out buf write flush = (o', true)) : out = true := by
  cases stream : o.fp with
  | none =>
      rw [Output.dumpSector_closed stream] at going
      exact congrArg Prod.snd going
  | some fp =>
      cases buf with
      | none =>
          rw [Output.dumpSector_missing stream] at going
          cases congrArg Prod.snd going
      | some bytes =>
          rw [Output.dumpSector_bytes stream rfl] at going
          have verdict := congrArg Prod.snd going
          dsimp only at verdict
          split at verdict
          · cases verdict
          · exact verdict

/-- Every sector that an open file took came with its bytes. -/
theorem dumpLoop_given {reads : UInt32 → Unit → Except Abort (Unit × SectorRead)} {currentSector : UInt32}
    {i : UInt32} {left : Nat} {dmp : Dumper} (room : i.toNat + left < 2 ^ 32)
    (success : (dumpLoop reads host currentSector left i dmp ()).out = .ok true) {k : Nat}
    (from_ : i.toNat ≤ k) (before : k < i.toNat + left) :
    ∃ read, reads k.toUInt32 () = .ok ((), read) ∧ (dmp.raw.fp ≠ none → read.rawdata.isSome) ∧
      (dmp.iso.fp ≠ none → read.data.isSome) := by
  induction left generalizing i dmp with
  | zero => omega
  | succ left ih =>
      rcases ok : reads i () with abort | ⟨⟨⟩, read⟩
      · rw [dumpLoop, ok] at success
        cases success
      · rcases rawEnd : dmp.raw.dumpSector dmp.flushing dmp.hashing true
          (read.rawdata.map fun rawbuf => rawbuf.bytes 2064) (host.sector i).rawWrite
          (host.sector i).rawFlush with ⟨raw, out⟩
        rcases isoEnd : dmp.iso.dumpSector dmp.flushing dmp.hashing out
          (read.data.map fun isobuf => isobuf.bytes 2048) (host.sector i).isoWrite
          (host.sector i).isoFlush with ⟨iso, out'⟩
        rw [dumpLoop_succ ok rawEnd isoEnd] at success
        cases out' with
        | false => cases success
        | true =>
            by_cases here : k = i.toNat
            · subst here
              have same : i.toNat.toUInt32 = i := UInt32.ofNat_toNat
              rw [same]
              refine ⟨read, ok, fun opened => ?_, fun opened => ?_⟩
              · have given := Output.dumpSector_given (Option.isSome_iff_ne_none.mpr opened)
                  (congrArg Prod.snd rawEnd |>.trans (Output.dumpSector_going isoEnd))
                rwa [Option.isSome_map] at given
              · have given := Output.dumpSector_given (Option.isSome_iff_ne_none.mpr opened)
                  (congrArg Prod.snd isoEnd)
                rwa [Option.isSome_map] at given
            · have next : (i + 1).toNat = i.toNat + 1 := toNat_add_one (by omega)
              obtain ⟨read', ok', rawGiven, isoGiven⟩ := ih (by omega) success (by omega) (by omega)
              refine ⟨read', ok', fun opened => rawGiven ?_, fun opened => isoGiven ?_⟩
              · have still := dmp.raw.dumpSector_fp dmp.flushing dmp.hashing true
                  (read.rawdata.map fun rawbuf => rawbuf.bytes 2064) (host.sector i).rawWrite
                  (host.sector i).rawFlush opened
                rwa [rawEnd] at still
              · have still := dmp.iso.dumpSector_fp dmp.flushing dmp.hashing out
                  (read.data.map fun isobuf => isobuf.bytes 2048) (host.sector i).isoWrite
                  (host.sector i).isoFlush opened
                rwa [isoEnd] at still

/-- What the reads return, with zeros where there is no sector. -/
def imageOf (sectorsNo : UInt32) (reads : UInt32 → Unit → Except Abort (Unit × SectorRead)) :
    DumpImage :=
  let sector (shown : SectorRead → Option Buffer) (k : Nat) : Buffer :=
    match reads k.toUInt32 () with
    | .error _ => fun _ => 0
    | .ok (_, read) => (shown read).getD fun _ => 0
  { sectorsNo := sectorsNo
    raw k := (sector SectorRead.rawdata k).bytes 2064
    data k := (sector SectorRead.data k).bytes 2048
    rawLength _ := Buffer.length_bytes ..
    dataLength _ := Buffer.length_bytes .. }

theorem imageOf_yields (sectorsNo : UInt32)
    (reads : UInt32 → Unit → Except Abort (Unit × SectorRead)) :
    Yields reads (fun _ => True) (imageOf sectorsNo reads) where
  kept _ _ := trivial
  raw {i _ _ _} _ ok rawdata pointer := by
    have same : i.toNat.toUInt32 = i := UInt32.ofNat_toNat
    dsimp only [imageOf]
    rw [same, ok]
    dsimp only
    rw [pointer, Option.getD_some]
  data {i _ _ _} _ ok data pointer := by
    have same : i.toNat.toUInt32 = i := UInt32.ofNat_toNat
    dsimp only [imageOf]
    rw [same, ok]
    dsimp only
    rw [pointer, Option.getD_some]

end Replay

/-! ## Checked sectors -/

/-- The raw sector has passed its check, and the other file gets its user data. -/
def DumpImage.Checked (image : DumpImage) (offset k : Nat) : Prop :=
  ∃ raw : Buffer, image.raw k = raw.bytes 2064 ∧
    edcCalc 0 (raw.bytes 2060) = (raw.advance 2060).loadWordBig ∧
    image.data k = (raw.advance offset).bytes 2048

section Checked

variable {σ : Type} {env : Env σ} {w w' : World σ}

theorem discReadSector_extends (formed : SeedsWellFormed w.disc.u) {request : Request}
    {read : SectorRead} (returned : discReadSector env request w = .ok (w', read)) :
    Extends (fun _ => True) w w' := by
  have fresh := @readSector_extends σ w request.sectorNo env (fun _ => True) formed
    fun _ _ _ _ _ => trivial
  have ended := discReadSector_returned env w request
  rw [returned] at ended
  cases ended with
  | cached => exact .refl w
  | read missing success =>
      rw [success] at fresh
      exact fresh
  | failed missing failure =>
      rw [failure] at fresh
      exact fresh

theorem discReadSector_disctype (formed : SeedsWellFormed w.disc.u) {request : Request}
    {read : SectorRead} (returned : discReadSector env request w = .ok (w', read)) :
    w'.disctype = w.disctype :=
  (discReadSector_extends formed returned).disctype

/-- The reads of a dump from the given sector on. -/
def dumpedReads (env : Env σ) (w : World σ) (startSector : UInt32) :
    UInt32 → Unit → Except Abort (Unit × SectorRead) :=
  replay (fun i w => discReadSector env ⟨i, true, true⟩ w) startSector w

/-- What such a dump gets to see. -/
def dumpedImage (env : Env σ) (w : World σ) (startSector : UInt32) : DumpImage :=
  imageOf w.disc.sectorsNo (dumpedReads env w startSector)

/-- A read of the dump, with the states before and after it. -/
theorem dumpedReads_returned {startSector : UInt32} {k : Nat} {read : SectorRead}
    (ok : dumpedReads env w startSector k.toUInt32 () = .ok ((), read)) :
    ∃ after, discReadSector env ⟨k.toUInt32, true, true⟩ (sourceAfter
      (fun i w => discReadSector env ⟨i, true, true⟩ w) startSector w (k.toUInt32 - startSector).toNat) =
        .ok (after, read) := by
  rw [dumpedReads, replay] at ok
  rcases returned : discReadSector env ⟨k.toUInt32, true, true⟩ (sourceAfter
    (fun i w => discReadSector env ⟨i, true, true⟩ w) startSector w (k.toUInt32 - startSector).toNat)
    with abort | ⟨after, read'⟩
  · rw [returned] at ok
    cases ok
  · rw [returned] at ok
    cases ok
    exact ⟨after, rfl⟩

theorem dumpedImage_sector {startSector : UInt32} {k : Nat} {read : SectorRead}
    (ok : dumpedReads env w startSector k.toUInt32 () = .ok ((), read)) :
    (∀ rawdata, read.rawdata = some rawdata →
        (dumpedImage env w startSector).raw k = rawdata.bytes 2064) ∧
      ∀ data, read.data = some data → (dumpedImage env w startSector).data k = data.bytes 2048 := by
  dsimp only [dumpedImage, imageOf]
  rw [ok]
  constructor
  · rintro rawdata pointer
    dsimp only
    rw [pointer, Option.getD_some]
  · rintro data pointer
    dsimp only
    rw [pointer, Option.getD_some]

theorem dumpedImage_checked (sound : CacheSound w) {startSector : UInt32} {k : Nat} {read : SectorRead}
    (ok : dumpedReads env w startSector k.toUInt32 () = .ok ((), read))
    (given : read.rawdata.isSome ∨ read.data.isSome) :
    (dumpedImage env w startSector).Checked (dataOffset w.disctype) k := by
  have before := @sourceAfter_invariant _ (fun i w => discReadSector env ⟨i, true, true⟩ w) startSector
    w (fun after => CacheSound after ∧ after.disctype = w.disctype)
    (fun start returned => ⟨(discReadSector_sound env start.1 returned).1,
      (discReadSector_disctype start.1.formed returned).trans start.2⟩) ⟨sound, rfl⟩ (k.toUInt32 - startSector).toNat
  obtain ⟨after, returned⟩ := dumpedReads_returned ok
  obtain ⟨out, rawGiven, dataGiven⟩ := discReadSector_both returned given
  obtain ⟨raw, valid⟩ := (discReadSector_sound env before.1 returned).2 out
  obtain ⟨rawdata, rawPointer⟩ := Option.isSome_iff_exists.mp rawGiven
  obtain ⟨data, dataPointer⟩ := Option.isSome_iff_exists.mp dataGiven
  obtain ⟨rawBytes, dataBytes⟩ := dumpedImage_sector ok
  rw [before.2] at valid
  refine ⟨raw, ?_, valid.checked, ?_⟩
  · rw [rawBytes rawdata rawPointer]
    exact Buffer.bytes_congr (valid.rawdata rawdata rawPointer)
  · rw [dataBytes data dataPointer]
    exact Buffer.bytes_congr (valid.data data dataPointer)

end Checked

/-! ## The SHA-1 contexts -/

/-- The contexts have taken what the hashes have absorbed. -/
structure HashedDumper.Absorbed (dmp : HashedDumper) : Prop where
  raw : dmp.rawSha1.Absorbed dmp.files.raw.hash
  iso : dmp.isoSha1.Absorbed dmp.files.iso.hash

section Absorbed

variable {σ : Type} {env : Env σ} {host : Host} {w w' : World σ}

theorem Output.dumpSector_hash (o : Output) (flushing hashing out : Bool) (buf : Option (List UInt8))
    (write : WriteReply) (flush : FlushReply) :
    (o.dumpSector flushing hashing out buf write flush).1.hash =
      if o.fp.isSome && hashing && (o.dumpSector flushing hashing out buf write flush).2 then
        o.hash ++ buf.getD []
      else o.hash := by
  cases stream : o.fp with
  | none =>
      rw [Output.dumpSector_closed stream]
      rfl
  | some fp =>
      cases buf with
      | none =>
          rw [Output.dumpSector_missing stream]
          rfl
      | some bytes =>
          rw [Output.dumpSector_bytes stream rfl]
          rfl

/-- Hashing a sector in the cache absorbs the bytes that have been written. -/
theorem World.hashSector_absorbed {format : Format} {o : Output} {sha1 : Sha1Ctx} {i : UInt32}
    (taken : sha1.Absorbed o.hash) {flushing hashing out : Bool} {buf : Option (List UInt8)}
    (shown : ∀ bytes, buf = some bytes → bytes = (format.sector w.disc i).bytes format.size)
    (write : WriteReply) (flush : FlushReply) :
    (w.hashSector format (o.fp.isSome && hashing &&
        (o.dumpSector flushing hashing out buf write flush).2) i sha1).sha1.Absorbed
      (o.dumpSector flushing hashing out buf write flush).1.hash := by
  rw [Output.dumpSector_hash]
  cases wanted : o.fp.isSome && hashing && (o.dumpSector flushing hashing out buf write flush).2 with
  | false => exact taken
  | true =>
      obtain ⟨opened, going⟩ := Bool.and_eq_true_iff.mp wanted
      have given := Output.dumpSector_given (Bool.and_eq_true_iff.mp opened).1 going
      obtain ⟨bytes, rfl⟩ := Option.isSome_iff_exists.mp given
      rw [if_pos rfl, Option.getD_some, shown bytes rfl]
      refine taken.update (format.sector w.disc i) ?_
      cases format <;> decide

/-- The pointers that a read returns lead into the cache. -/
theorem discReadSector_sectors {i : UInt32} {read : SectorRead}
    (returned : discReadSector env ⟨i, true, true⟩ w = .ok (w', read)) :
    (∀ rawdata, read.rawdata = some rawdata → rawdata = Format.raw.sector w'.disc i) ∧
      ∀ data, read.data = some data → data = Format.iso.sector w'.disc i := by
  have pointers : ∀ {w₁ : World σ} {data rawdata : Buffer},
      discCacheLookupBlock w₁.disc (i / 16) = some (data, rawdata) →
        rawdata.advance ((i % 16).toNat * 2064) = Format.raw.sector w₁.disc i ∧
          data.advance ((i % 16).toNat * 2048) = Format.iso.sector w₁.disc i := by
    intro w₁ data rawdata found
    unfold discCacheLookupBlock at found
    dsimp only at found
    split at found
    · cases found
      exact ⟨rfl, rfl⟩
    · cases found
  have ended := discReadSector_returned env w ⟨i, true, true⟩
  rw [returned] at ended
  cases ended with
  | cached found =>
      obtain ⟨raw, iso⟩ := pointers found
      exact ⟨fun _ pointer => (Option.some.inj pointer).symm.trans raw,
        fun _ pointer => (Option.some.inj pointer).symm.trans iso⟩
  | read _ _ found =>
      obtain ⟨raw, iso⟩ := pointers found
      exact ⟨fun _ pointer => (Option.some.inj pointer).symm.trans raw,
        fun _ pointer => (Option.some.inj pointer).symm.trans iso⟩
  | failed => exact ⟨nofun, nofun⟩

theorem hashedRound_absorbed {i : UInt32} {read : SectorRead} {dmp : HashedDumper}
    (returned : discReadSector env ⟨i, true, true⟩ w = .ok (w', read)) (taken : dmp.Absorbed) :
    (hashedRound (host.sector i) i dmp w' read).dmp.Absorbed := by
  obtain ⟨rawPointer, isoPointer⟩ := discReadSector_sectors returned
  unfold hashedRound
  constructor
  · refine World.hashSector_absorbed taken.raw (fun bytes shown => ?_) _ _
    obtain ⟨rawdata, pointer, rfl⟩ := Option.map_eq_some_iff.mp shown
    rw [rawPointer rawdata pointer]
    rfl
  · refine World.hashSector_absorbed taken.iso (fun bytes shown => ?_) _ _
    obtain ⟨data, pointer, rfl⟩ := Option.map_eq_some_iff.mp shown
    rw [isoPointer data pointer]
    -- The raw sector is spoiled by now, the other one is not.
    have apart : ∀ wanted sha1, (w'.hashSector .raw wanted i sha1).world.disc.cache = w'.disc.cache ∧
        (w'.hashSector .raw wanted i sha1).world.disc.cachePos = w'.disc.cachePos := by
      intro wanted sha1
      cases wanted <;> exact ⟨rfl, rfl⟩
    dsimp only [Format.sector, Format.cache]
    rw [(apart _ _).1, (apart _ _).2]
    rfl

theorem hashedLoop_absorbed {currentSector i : UInt32} {left : Nat} {dmp : HashedDumper}
    (taken : dmp.Absorbed) : (hashedLoop env host currentSector left i dmp w).dmp.Absorbed := by
  induction left generalizing i dmp w with
  | zero => exact taken
  | succ left ih =>
      cases ok : discReadSector env ⟨i, true, true⟩ w with
      | error abort =>
          rw [hashedLoop_abort ok]
          exact taken
      | ok result =>
          have round := @hashedRound_absorbed σ env host w _ i _ dmp ok taken
          cases out : (hashedRound (host.sector i) i dmp result.1 result.2).out with
          | false =>
              rw [hashedLoop_stop ok out]
              exact round
          | true =>
              rw [hashedLoop_next ok out]
              exact ih round

theorem hashedDump_absorbed {dmp : HashedDumper} (taken : dmp.Absorbed) (currentSector : UInt32) :
    (hashedDump env host dmp w currentSector).dmp.Absorbed := by
  have looped := @hashedLoop_absorbed σ env host w currentSector dmp.files.startSector
    (w.disc.sectorsNo.toNat - dmp.files.startSector.toNat) dmp taken
  exact ⟨looped.raw, looped.iso⟩

end Absorbed

/-! ## A run of the program -/

/-- The loop over `fread`, as it goes through the SHA-1 context. -/
def sha1Existing (sectorSize : Nat) : Nat → List UInt8 → Sha1Ctx → Sha1Ctx
  | 0, _, sha1 => sha1
  | left + 1, rest, sha1 =>
      if rest.length < sectorSize then sha1
      else sha1Existing sectorSize left (rest.drop sectorSize)
        (sha1Update sha1 (.ofBytes (rest.take sectorSize)) sectorSize).1

/-- What `dumper_prepare` makes of the SHA-1 context of an output. -/
def Output.prepareSha1 (o : Output) (sectorSize : Nat) (startSector : UInt32) (hashing : Bool)
    (sha1 : Sha1Ctx) : Sha1Ctx :=
  if hashing then
    match o.outfile with
    | none => sha1Init sha1.buffer
    | some file => sha1Existing sectorSize startSector.toNat (file.getD []) (sha1Init sha1.buffer)
  else sha1

/-- `dumper_prepare`. The contexts do not matter where it ends the program. -/
def hashedPrepare (dmp : HashedDumper) (host : Host) : HashedDumper × Except DumperAbort Bool :=
  let (files, out) := dumperPrepare dmp.files host
  ({ files := files
     rawSha1 := files.raw.prepareSha1 2064 files.startSector files.hashing dmp.rawSha1
     isoSha1 := files.iso.prepareSha1 2048 files.startSector files.hashing dmp.isoSha1 }, out)

/-- The contexts that `memset` leaves in a new dumper. -/
def Sha1Ctx.zero : Sha1Ctx where
  state := { a := 0, b := 0, c := 0, d := 0, e := 0 }
  count0 := 0
  count1 := 0
  buffer _ := 0

/-- A run on the disc of the program, as far as it dumps. -/
def hashedRun {σ : Type} (env : Env σ) (host : Host) (options : Options) (files : Files)
    (resume : Bool) (w : World σ) : Option (Except DumperAbort (HashedEnd σ)) :=
  match dumperSetOutputFiles options files resume with
  | none => none
  | some dmp =>
      match hashedPrepare { files := dmp, rawSha1 := .zero, isoSha1 := .zero } host with
      | (_, .error abort) => some (.error abort)
      | (_, .ok false) => none
      | (dmp, .ok true) => some (.ok (hashedDump env host dmp w 0))

theorem sha1Existing_absorbed {size left : Nat} (small : size < 2 ^ 32) {rest absorbed : List UInt8}
    {sha1 : Sha1Ctx} (taken : sha1.Absorbed absorbed) (enough : left * size ≤ rest.length) :
    (sha1Existing size left rest sha1).Absorbed (absorbed ++ rest.take (left * size)) := by
  induction left generalizing rest absorbed sha1 with
  | zero =>
      rw [Nat.zero_mul, List.take_zero, List.append_nil]
      exact taken
  | succ left ih =>
      rw [Nat.succ_mul] at enough
      have here : ¬ rest.length < size := by omega
      have later : left * size ≤ (rest.drop size).length := by
        rw [List.length_drop]
        omega
      have sector := Buffer.bytes_ofBytes (rest.take size)
      rw [List.length_take_of_le (Nat.not_lt.mp here)] at sector
      have next := taken.update (.ofBytes (rest.take size)) small
      rw [sector] at next
      rw [sha1Existing, if_neg here, Nat.succ_mul, Nat.add_comm, List.take_add, ← List.append_assoc]
      exact ih next later

/-- An output file after a dump, with its digest. -/
structure Output.Dumped (sector : Nat → List UInt8) (size : Nat) (before : File) (start total : Nat)
    (hashing : Bool) (context : Sha1Ctx) (o : Output) : Prop where
  enough : start * size ≤ (before.getD []).length
  file : ∃ fp, o.fp = some fp ∧
    fp.file = (before.getD []).take (start * size) ++ (List.range' start (total - start)).flatMap sector ∧
    (hashing = true → o.hash = fp.file ∧ sha1Final context = sha1 fp.file)

theorem Output.Reached.dumped {size start total : Nat} {sector : Nat → List UInt8} {hashing : Bool}
    {before : File} {context : Sha1Ctx} {o : Output} (enough : start * size ≤ (before.getD []).length)
    (reached : o.Reached (overlaid (before.getD []) size start sector) hashing (start + (total - start)))
    (opened : o.fp ≠ none) (taken : hashing = true → context.Absorbed o.hash) :
    (o.close .flushed).Dumped sector size before start total hashing context := by
  obtain ⟨fp, stream⟩ := Option.ne_none_iff_exists'.mp opened
  have file : (fp.close .flushed).file = records (overlaid (before.getD []) size start sector)
      (start + (total - start)) := by
    rw [AppendStream.close_file, reached.content fp stream]
  refine ⟨enough, fp.close .flushed, by rw [Output.close, stream]; rfl, ?_, fun on => ?_⟩
  · rw [file, records_overlaid]
  · have absorbed := reached.hash on opened
    rw [file, ← absorbed]
    exact ⟨rfl, sha1Final_digest (taken on)⟩

theorem Output.TruncatedTo.enough {size : Nat} {startSector : UInt32} {before : File} {o : Output}
    (truncated : o.TruncatedTo size startSector before) :
    startSector.toNat * size ≤ (before.getD []).length ∧ o.fp ≠ none := by
  obtain ⟨fp, stream, content, length⟩ := truncated
  rw [content, List.length_take] at length
  exact ⟨by omega, stream ▸ Option.some_ne_none fp⟩

section Run

variable {σ : Type} {env : Env σ} {host : Host} {w₀ w : World σ}

/-- What the two files and the digests come to, whatever the drive has answered. -/
structure HashedEnd.Sound (ended : HashedEnd σ) (offset : Nat) (image : DumpImage) (options : Options)
    (files : Files) (host : Host) (startSector : UInt32) : Prop where
  checked : ∀ k, startSector.toNat ≤ k → k < image.sectorsNo.toNat → image.Checked offset k
  raw : options.raw = true → ¬ Masked options host startSector →
    ended.dmp.files.raw.Dumped image.raw 2064 files.raw startSector.toNat image.sectorsNo.toNat
      options.hashing ended.dmp.rawSha1
  iso : options.iso = true →
    ended.dmp.files.iso.Dumped image.data 2048 files.iso startSector.toNat image.sectorsNo.toNat
      options.hashing ended.dmp.isoSha1

/-- A dumper as `dumper_prepare` leaves it when it returns `true`. -/
structure HashedDumper.Ready (options : Options) (files : Files) (host : Host) (startSector : UInt32)
    (dmp : HashedDumper) : Prop where
  prepared : dmp.files.Prepared options files host startSector
  setUp : host.setUp options startSector = true
  hashing : dmp.files.hashing = options.hashing
  absorbed : options.hashing = true → dmp.Absorbed

variable {options : Options} {files : Files} {startSector : UInt32} {dmp : HashedDumper}

/-- One of the files is open. -/
theorem HashedDumper.Ready.opened (ready : dmp.Ready options files host startSector) :
    dmp.files.raw.fp ≠ none ∨ dmp.files.iso.fp ≠ none := by
  have setUp := ready.setUp
  unfold Host.setUp at setUp
  split at setUp
  · rename_i wanted
    exact .inr (ready.prepared.iso.opened wanted setUp).enough.2
  · split at setUp
    · rename_i wanted
      exact .inl (ready.prepared.raw.opened wanted setUp).enough.2
    · cases setUp

/-- The dump that hashes is the plain dump of what its reads returned. -/
theorem hashedDump_replayed (env : Env σ) (host : Host) (w : World σ)
    (start : dmp.files.startSector = startSector) (currentSector : UInt32) :
    (hashedDump env host dmp w currentSector).out =
        (dumpLoop (dumpedReads env w startSector) host currentSector
          (w.disc.sectorsNo.toNat - startSector.toNat) startSector dmp.files ()).out ∧
      ∀ loop, dumpLoop (dumpedReads env w startSector) host currentSector
          (w.disc.sectorsNo.toNat - startSector.toNat) startSector dmp.files () = loop →
        (hashedDump env host dmp w currentSector).dmp.files =
          { loop.dmp with
            raw := loop.dmp.raw.close host.rawClose
            iso := loop.dmp.iso.close host.isoClose } := by
  have few := w.disc.sectorsNo.toNat_lt
  obtain ⟨sameFiles, sameOut, -, -⟩ :=
    (@hashedDump_same σ 0 w w env host currentSector dmp (.refl 0 w) (Nat.zero_le _)).same
  obtain ⟨sameDump, sameVerdict⟩ := @dumpLoop_replay _ (fun i w => discReadSector env ⟨i, true, true⟩ w)
    host startSector w currentSector (w.disc.sectorsNo.toNat - startSector.toNat) 0 (by omega) dmp.files
  have zero : startSector + (0 : Nat).toUInt32 = startSector := UInt32.add_zero _
  rw [zero, sourceAfter] at sameDump sameVerdict
  unfold dumperDump at sameFiles sameOut
  rw [start] at sameFiles sameOut
  dsimp only at sameFiles sameOut
  refine ⟨sameOut.trans sameVerdict, ?_⟩
  rintro _ rfl
  rw [sameFiles, sameDump]
  rfl

theorem HashedDumper.Ready.given (ready : dmp.Ready options files host startSector)
    (success : (hashedDump env host dmp w 0).out = .ok true) {k : Nat} (after : startSector.toNat ≤ k)
    (before : k < w.disc.sectorsNo.toNat) :
    ∃ read, dumpedReads env w startSector k.toUInt32 () = .ok ((), read) ∧
      (read.rawdata.isSome ∨ read.data.isSome) := by
  have few := w.disc.sectorsNo.toNat_lt
  have first := startSector.toNat_lt
  rw [(hashedDump_replayed env host w ready.prepared.start 0).1] at success
  obtain ⟨read, ok, rawGiven, isoGiven⟩ := dumpLoop_given (by omega) success after (by omega)
  exact ⟨read, ok, ready.opened.imp rawGiven isoGiven⟩

theorem HashedDumper.Ready.sound (ready : dmp.Ready options files host startSector)
    (sound : CacheSound w) (keeps : host.KeepsAccepted) (rawClose : host.rawClose = .flushed)
    (isoClose : host.isoClose = .flushed) (success : (hashedDump env host dmp w 0).out = .ok true) :
    (hashedDump env host dmp w 0).Sound (dataOffset w.disctype) (dumpedImage env w startSector) options
      files host startSector := by
  have prepared := ready.prepared
  have few := w.disc.sectorsNo.toNat_lt
  have first := startSector.toNat_lt
  have contexts := fun on => @hashedDump_absorbed σ env host w dmp (ready.absorbed on) 0
  have rawTaken := fun on => (contexts on).raw
  have isoTaken := fun on => (contexts on).iso
  obtain ⟨verdict, replayed⟩ := hashedDump_replayed env host w prepared.start 0
  have sameFiles := replayed _ rfl
  have looped := success
  rw [verdict] at looped
  have reached : dmp.files.Overlaid (dumpedImage env w startSector) (files.raw.getD [])
      (files.iso.getD []) startSector.toNat startSector.toNat :=
    ⟨prepared.raw.reached _, prepared.iso.reached _⟩
  obtain ⟨⟨rawReached, isoReached⟩, rawOpen, isoOpen⟩ := dumpLoop_overlaid
    (imageOf_yields w.disc.sectorsNo (dumpedReads env w startSector)) keeps trivial (Nat.le_refl _)
    (by omega) reached looped
  rw [sameFiles] at rawTaken isoTaken
  rw [dumpLoop_hashing, ready.hashing] at rawReached isoReached
  refine ⟨fun k after before => ?_, fun wanted unmasked => ?_, fun wanted => ?_⟩
  · obtain ⟨read, ok, given⟩ := ready.given success after before
    exact dumpedImage_checked sound ok given
  · obtain ⟨enough, opened⟩ := ((prepared.opened ready.setUp unmasked).1 wanted).enough
    rw [sameFiles, rawClose]
    exact rawReached.dumped enough (rawOpen opened) rawTaken
  · have setUp := ready.setUp
    unfold Host.setUp at setUp
    rw [if_pos wanted] at setUp
    obtain ⟨enough, opened⟩ := (prepared.iso.opened wanted setUp).enough
    rw [sameFiles, isoClose]
    exact isoReached.dumped enough (isoOpen opened) isoTaken

theorem Output.prepare_outfile (o : Output) (size : Nat) (startSector : UInt32) (hashing : Bool)
    (replies : SetupReplies) : (o.prepare size startSector hashing replies).1.outfile = o.outfile := by
  unfold Output.prepare
  split
  · rfl
  · dsimp only
    split
    · rfl
    · split <;> rfl

theorem Output.prepareSha1_absorbed {size : Nat} (small : size < 2 ^ 32) {startSector : UInt32}
    {wanted : Bool} {o : Output} {file : File} (outfile : o.outfile = if wanted then some file else none)
    (enough : o.Enough size startSector) (cleared : o.hash = []) (replies : SetupReplies)
    (sha1 : Sha1Ctx) :
    ((o.prepare size startSector true replies).1.prepareSha1 size startSector true sha1).Absorbed
      (o.prepare size startSector true replies).1.hash := by
  have kept := o.prepare_outfile size startSector true replies
  unfold Output.prepareSha1
  rw [if_pos rfl, kept, outfile]
  cases wanted with
  | false =>
      rw [Output.prepare_unwanted outfile, cleared]
      exact sha1Init_absorbed _
  | true =>
      obtain ⟨o', prepared, setUp⟩ := Output.prepare_setUp outfile enough (fun _ => cleared) replies
      rw [prepared, setUp.hash rfl rfl]
      exact sha1Existing_absorbed small (sha1Init_absorbed _) (enough file outfile)

theorem Output.Enough.earlier {size : Nat} {startSector : UInt32} {o : Output}
    (enough : o.Enough size o.startSector)
    (le : o.outfile.isSome = true → startSector ≤ o.startSector) : o.Enough size startSector := by
  intro file outfile
  have before := UInt32.le_iff_toNat_le.mp (le (outfile ▸ rfl))
  exact Nat.le_trans (Nat.mul_le_mul_right size before) (enough file outfile)

theorem openOutputs_outputs {dmp : Dumper} {out : Bool} (ready : (dmp.openOutputs host).2 = .ok out) :
    (dmp.openOutputs host).1 =
      { dmp with
        raw := (dmp.raw.prepare 2064 dmp.startSector dmp.hashing host.raw).1
        iso := (dmp.iso.prepare 2048 dmp.startSector dmp.hashing host.iso).1 } := by
  unfold Dumper.openOutputs at ready ⊢
  generalize dmp.raw.prepare 2064 dmp.startSector dmp.hashing host.raw = rawEnd at ready ⊢
  generalize dmp.iso.prepare 2048 dmp.startSector dmp.hashing host.iso = isoEnd at ready ⊢
  rcases rawEnd with ⟨raw, abort | rawOut⟩
  · cases ready
  · rcases isoEnd with ⟨iso, abort | isoOut⟩
    · cases ready
    · rfl

/-- A dumper whose outputs can be opened at the start sector. -/
structure Dumper.Opening (options : Options) (files : Files) (startSector : UInt32) (dmp : Dumper) :
    Prop where
  start : dmp.startSector = startSector
  cleared : dmp.hashing = true → dmp.raw.hash = [] ∧ dmp.iso.hash = []
  raw : dmp.raw.outfile = if options.raw then some files.raw else none
  iso : dmp.iso.outfile = if options.iso then some files.iso else none
  rawEnough : dmp.raw.Enough 2064 startSector
  isoEnough : dmp.iso.Enough 2048 startSector

theorem dumperPrepare_outputs {dmp : Dumper} (set : dmp.SetTo options files)
    (start : dmp.chooseStart = some startSector) (host : Host) :
    ∃ dmp₁ : Dumper, dmp₁.Opening options files startSector ∧ dmp₁.hashing = dmp.hashing ∧
      (dumperPrepare dmp host).1 =
        { dmp₁ with
          raw := (dmp₁.raw.prepare 2064 startSector dmp.hashing host.raw).1
          iso := (dmp₁.iso.prepare 2048 startSector dmp.hashing host.iso).1 } := by
  obtain ⟨rawLe, isoLe, -⟩ := chooseStart_le start
  obtain ⟨cleared, hashing, kept, rawFile, isoFile⟩ :=
    initHashes_cleared { dmp with startSector := startSector }
  obtain ⟨dmp', ready, -⟩ := dumperPrepare_prepared set start host
  rw [dumperPrepare, start] at ready ⊢
  dsimp only at ready ⊢
  have outputs := openOutputs_outputs (congrArg Prod.snd ready)
  generalize Dumper.initHashes { dmp with startSector := startSector } = dmp₁
    at outputs cleared hashing kept rawFile isoFile
  have start₁ : dmp₁.startSector = startSector := kept
  have hashing₁ : dmp₁.hashing = dmp.hashing := hashing
  refine ⟨dmp₁, ⟨start₁, cleared, rawFile.trans set.raw, isoFile.trans set.iso, ?_, ?_⟩, hashing₁,
    by rw [outputs, start₁, hashing₁]⟩
  · rw [Output.Enough, rawFile]
    exact set.rawEnough.earlier rawLe
  · rw [Output.Enough, isoFile]
    exact set.isoEnough.earlier isoLe

theorem hashedPrepare_absorbed {dmp : Dumper} (set : dmp.SetTo options files)
    (start : dmp.chooseStart = some startSector) (host : Host) (rawSha1 isoSha1 : Sha1Ctx) :
    (dumperPrepare dmp host).1.hashing = dmp.hashing ∧
      (dmp.hashing = true → (hashedPrepare ⟨dmp, rawSha1, isoSha1⟩ host).1.Absorbed) := by
  obtain ⟨dmp₁, opening, hashing, outputs⟩ := dumperPrepare_outputs set start host
  unfold hashedPrepare
  dsimp only
  rw [outputs]
  refine ⟨hashing, fun on => ?_⟩
  obtain ⟨rawCleared, isoCleared⟩ := opening.cleared (hashing.trans on)
  dsimp only
  rw [opening.start, hashing, on]
  exact ⟨Output.prepareSha1_absorbed (by decide) opening.raw opening.rawEnough rawCleared _ _,
    Output.prepareSha1_absorbed (by decide) opening.iso opening.isoEnough isoCleared _ _⟩

theorem dumperSetOutputFiles_hashing {options : Options} {files : Files} {resume : Bool} {dmp : Dumper}
    (set : dumperSetOutputFiles options files resume = some dmp) : dmp.hashing = options.hashing := by
  unfold dumperSetOutputFiles dumperSetRawOutputFile dumperSetIsoOutputFile at set
  dsimp only at set
  split at set
  · cases set
  · rename_i rawSet
    obtain ⟨rfl, -⟩ := Prod.mk.inj rawSet
    split at set
    · cases set
    · rename_i isoSet
      obtain ⟨rfl, -⟩ := Prod.mk.inj isoSet
      cases set
      rfl

theorem Output.setOutputFile_aligned {o o' : Output} {size : Nat} {outfile : Option File} {resume : Bool}
    (set : o.setOutputFile size outfile resume = (o', true)) (fresh : o.outfile = none)
    (wanted : o'.outfile.isSome = true) : o'.startSector.toNat % 16 = 0 := by
  unfold Output.setOutputFile at set
  cases outfile with
  | none =>
      cases set
      cases wanted
  | some file =>
      dsimp only at set
      rw [fresh, Option.isSome_none, if_neg Bool.false_ne_true] at set
      cases file with
      | none =>
          cases set
          rfl
      | some bytes =>
          cases resume with
          | false => cases set
          | true =>
              cases set
              dsimp only
              rw [UInt32.toNat_mul]
              simp only [UInt32.reduceToNat]
              omega

/-- A dump starts where a block does. -/
theorem chooseStart_aligned {resume : Bool} {dmp : Dumper}
    (set : dumperSetOutputFiles options files resume = some dmp)
    (start : dmp.chooseStart = some startSector) : startSector.toNat % 16 = 0 := by
  have aligned : (dmp.raw.outfile.isSome = true → dmp.raw.startSector.toNat % 16 = 0) ∧
      (dmp.iso.outfile.isSome = true → dmp.iso.startSector.toNat % 16 = 0) := by
    unfold dumperSetOutputFiles dumperSetRawOutputFile dumperSetIsoOutputFile at set
    dsimp only at set
    split at set
    · cases set
    · rename_i rawSet
      obtain ⟨rfl, rawOut⟩ := Prod.mk.inj rawSet
      split at set
      · cases set
      · rename_i isoSet
        obtain ⟨rfl, isoOut⟩ := Prod.mk.inj isoSet
        cases set
        exact ⟨Output.setOutputFile_aligned (Prod.ext rfl rawOut) rfl,
          Output.setOutputFile_aligned (Prod.ext rfl isoOut) rfl⟩
  unfold Dumper.chooseStart at start
  split at start
  · rename_i both
    cases start
    split
    · exact aligned.1 both.1
    · exact aligned.2 both.2.1
  · split at start
    · rename_i raw
      cases start
      exact aligned.1 raw
    · split at start
      · rename_i iso
        cases start
        exact aligned.2 iso
      · cases start

/-- `dumper_prepare` gives up, or it prepares the files to go on with a block. -/
theorem hashedPrepare_cases {resume : Bool} {dmp : Dumper}
    (set : dumperSetOutputFiles options files resume = some dmp) (host : Host) :
    (hashedPrepare ⟨dmp, .zero, .zero⟩ host).2 = .error .noOutput ∨
      ∃ startSector, dmp.chooseStart = some startSector ∧ startSector.toNat % 16 = 0 ∧
        (hashedPrepare ⟨dmp, .zero, .zero⟩ host).2 = .ok (host.setUp options startSector) ∧
        (host.setUp options startSector = true →
          (hashedPrepare ⟨dmp, .zero, .zero⟩ host).1.Ready options files host startSector) := by
  have setTo := dumperSetOutputFiles_setTo set
  have hashing := dumperSetOutputFiles_hashing set
  cases first : dmp.chooseStart with
  | none =>
      refine .inl ?_
      rw [hashedPrepare, dumperPrepare, first]
  | some startSector =>
      obtain ⟨dmp', ready, prepared⟩ := dumperPrepare_prepared setTo first host
      obtain ⟨kept, taken⟩ := hashedPrepare_absorbed setTo first host .zero .zero
      unfold hashedPrepare at taken ⊢
      rw [ready] at kept taken ⊢
      exact .inr ⟨startSector, rfl, chooseStart_aligned set first, rfl,
        fun setUp => ⟨prepared, setUp, kept.trans hashing, fun on => taken (hashing.trans on)⟩⟩

/-- A run that dumps has prepared its dumper. -/
theorem hashedRun_ready {resume : Bool} {ended : HashedEnd σ}
    (dumped : hashedRun env host options files resume w = some (.ok ended)) :
    ∃ startSector dmp, dmp.Ready options files host startSector ∧ startSector.toNat % 16 = 0 ∧
      ended = hashedDump env host dmp w 0 := by
  unfold hashedRun at dumped
  cases set : dumperSetOutputFiles options files resume with
  | none =>
      rw [set] at dumped
      cases dumped
  | some dmp =>
      rw [set] at dumped
      dsimp only at dumped
      have outcome := hashedPrepare_cases set host
      rcases prepared : hashedPrepare ⟨dmp, .zero, .zero⟩ host with ⟨dmp', out⟩
      rw [prepared] at dumped outcome
      obtain aborted | ⟨startSector, -, aligned, verdict, ready⟩ := outcome
      · cases aborted
        cases dumped
      · cases setUp : host.setUp options startSector with
        | false =>
            rw [setUp] at verdict
            cases verdict
            cases dumped
        | true =>
            rw [setUp] at verdict ready
            cases verdict
            cases dumped
            exact ⟨startSector, dmp', ready rfl, aligned, rfl⟩

end Run

/-! ## One sector of the counting drive -/

/-- The disc of the counting drive, cut down to its first sector. -/
def World.counted (d : Disc) : World UInt32 :=
  World.created 0 (discSetReadMethod (initRange { d with sectorsNo := 1 } notGiven notGiven) 0) 0

theorem counted_setUp {d : Disc}
    (created : discNew ⟨.vanilla2064, 2, 0, true⟩ (fun _ _ => 0) (fun _ _ => 0)
      ⟨fun _ => ⟨0, fun _ => 0⟩, false⟩ = some d) :
    EmptyCache (World.counted d) ∧ d.dvd.memdump = .vanilla2064 ∧ Seedless d.u ∧
      d.unscrambling = true := by
  have start := discNew_emptyCache created (0 : UInt32) (by decide : (0 : UInt8) ≠ 3)
  refine ⟨⟨start.reachable, start.agree, start.positive, start.empty, start.recorded⟩, ?_⟩
  cases created
  exact ⟨rfl, unscramblerNew_seedless _, rfl⟩

/-- A dump of a disc of one sector, with two new files. -/
theorem counted_dump {w w' : World UInt32} {data rawdata : Buffer} (dmp : HashedDumper)
    (new : dmp = (hashedPrepare ⟨newDump, .zero, .zero⟩ (blankHost .flushed)).1)
    (single : w.disc.sectorsNo = 1) (returned : discReadSector (countingEnv 0) ⟨0, true, true⟩ w =
      .ok (w', sectorOf ⟨0, true, true⟩ data rawdata)) :
    (hashedDump (countingEnv 0) (blankHost .flushed) dmp w 0).out = .ok true := by
  subst new
  have replayed := @hashedDump_replayed _ 0
    (hashedPrepare ⟨newDump, .zero, .zero⟩ (blankHost .flushed)).1 (countingEnv 0) (blankHost .flushed) w
    rfl 0
  have read : dumpedReads (countingEnv 0) w 0 0 () =
      .ok ((), sectorOf ⟨0, true, true⟩ data rawdata) := by
    have first := congrArg (Except.map fun read => ((), read.2)) returned
    exact first
  have count : w.disc.sectorsNo.toNat - (0 : UInt32).toNat = 1 := by
    rw [single]
    rfl
  rw [replayed.1, count, dumpLoop, read]
  rfl

/-- A dump of both formats into new files. -/
theorem counted_dumped {d : Disc}
    (created : discNew ⟨.vanilla2064, 2, 0, true⟩ (fun _ _ => 0) (fun _ _ => 0)
      ⟨fun _ => ⟨0, fun _ => 0⟩, false⟩ = some d) :
    ∃ ended, hashedRun (countingEnv 0) (blankHost .flushed) ⟨true, true, true, true⟩ ⟨none, none⟩ false
      (World.counted d) = some (.ok ended) ∧ ended.out = .ok true := by
  obtain ⟨start, vanilla, seedless, enabled⟩ := counted_setUp created
  have ranged : Ranged (World.counted d).disc :=
    discSetReadMethod_ranged { d with sectorsNo := 1 } notGiven notGiven 0
  have known : (0 : Int) ≤ 0 ∧ (0 : Int) ≤ 6 := by decide
  obtain ⟨w', data, rawdata, returned, -⟩ := @countingEnv_discReadSector (World.counted d) 0 vanilla
    ranged (by decide) seedless known enabled start.missing
  exact ⟨_, rfl, counted_dump _ rfl rfl returned⟩

end Friidump
