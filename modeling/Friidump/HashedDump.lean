import Friidump.DumpResume
import Friidump.SectorAddressing
import Friidump.Sha1InPlace

/-!
# Dumps that hash in place

`multihash_update` is called on the pointers that `disc_read_sector` returns, and
these point into the cache of the disc. `CrcUpdate` and `MD5Update` only read what
they point to; the bytes they absorb are the hash of an output. `SHA1Update` writes
there. The digests that `multihash_finish` makes of the contexts are left out.
-/

set_option autoImplicit false

namespace Friidump

/-! ## Sectors in the cache -/

/-- The two arrays that a cached block is kept in, and what a dump writes of each. -/
inductive Format
  | raw
  | iso
deriving DecidableEq, Repr

def Format.size : Format → Nat
  | .raw => 2064
  | .iso => 2048

def Format.cache (format : Format) (d : Disc) : Nat → Buffer :=
  match format with
  | .raw => d.rawCache
  | .iso => d.cache

def Format.setCache (format : Format) (d : Disc) (cache : Nat → Buffer) : Disc :=
  match format with
  | .raw => { d with rawCache := cache }
  | .iso => { d with cache := cache }

/-- Where the sector begins in its cached block. -/
def Format.offset (format : Format) (sectorNo : UInt32) : Nat := (sectorNo % 16).toNat * format.size

/-- What the pointer to the sector points to. -/
def Format.sector (format : Format) (d : Disc) (sectorNo : UInt32) : Buffer :=
  (format.cache d (d.cachePos (sectorNo / 16))).advance (format.offset sectorNo)

/-- The disc after the bytes from the pointer on have become these. -/
def Format.setSector (format : Format) (d : Disc) (sectorNo : UInt32) (data : Buffer) : Disc :=
  format.setCache d fun p =>
    if p = d.cachePos (sectorNo / 16) then
      (format.cache d p).splice (format.offset sectorNo) data
    else format.cache d p

section Hashing

variable {σ : Type}

/-- A call of `multihash_update`, with the state of the program before and after it. -/
structure HashCall (σ : Type) where
  sha1 : Sha1Ctx
  data : Buffer
  bytes : Nat
  before : World σ
  after : World σ

structure Hashed (σ : Type) where
  sha1 : Sha1Ctx
  world : World σ
  calls : List (HashCall σ)

/-- `multihash_update` on a sector in the cache, where it is `wanted`. -/
def World.hashSector (w : World σ) (format : Format) (wanted : Bool) (sectorNo : UInt32)
    (sha1 : Sha1Ctx) : Hashed σ :=
  if wanted then
    let data := format.sector w.disc sectorNo
    let updated := sha1Update sha1 data format.size
    let world := w.withDisc (format.setSector w.disc sectorNo updated.2)
    { sha1 := updated.1
      world := world
      calls := [{ sha1 := sha1, data := data, bytes := format.size, before := w, after := world }] }
  else { sha1 := sha1, world := w, calls := [] }

/-! ## The dump -/

/-- A dumper with the SHA-1 contexts of its hashes. -/
structure HashedDumper where
  files : Dumper
  rawSha1 : Sha1Ctx
  isoSha1 : Sha1Ctx

structure HashedRound (σ : Type) where
  dmp : HashedDumper
  world : World σ
  out : Bool
  calls : List (HashCall σ)

/-- Where a dump has ended. `reads` has the states before and after each `disc_read_sector`. -/
structure HashedEnd (σ : Type) where
  dmp : HashedDumper
  world : World σ
  out : Except DumperAbort Bool
  currentSector : UInt32
  reads : List (World σ × World σ)
  calls : List (HashCall σ)

/-- Both outputs of one sector. Each is hashed after it has been written. -/
def hashedRound (replies : SectorReplies) (i : UInt32) (dmp : HashedDumper) (w : World σ)
    (read : SectorRead) : HashedRound σ :=
  let files := dmp.files
  let (raw, rawOut) := files.raw.dumpSector files.flushing files.hashing true
    (read.rawdata.map fun rawbuf => rawbuf.bytes 2064) replies.rawWrite replies.rawFlush
  let rawHashed :=
    w.hashSector .raw (files.raw.fp.isSome && files.hashing && rawOut) i dmp.rawSha1
  let (iso, out) := files.iso.dumpSector files.flushing files.hashing rawOut
    (read.data.map fun isobuf => isobuf.bytes 2048) replies.isoWrite replies.isoFlush
  let isoHashed :=
    rawHashed.world.hashSector .iso (files.iso.fp.isSome && files.hashing && out) i dmp.isoSha1
  { dmp :=
      { files := { files with raw := raw, iso := iso }
        rawSha1 := rawHashed.sha1
        isoSha1 := isoHashed.sha1 }
    world := isoHashed.world
    out := out
    calls := rawHashed.calls ++ isoHashed.calls }

section Dump

variable (env : Env σ) (host : Host)

/-- The loop over the sectors, with the rounds left. -/
def hashedLoop (currentSector : UInt32) : Nat → UInt32 → HashedDumper → World σ → HashedEnd σ
  | 0, _, dmp, w =>
      { dmp := dmp, world := w, out := .ok true, currentSector := currentSector, reads := []
        calls := [] }
  | left + 1, i, dmp, w =>
      match discReadSector env ⟨i, true, true⟩ w with
      | .error abort =>
          { dmp := dmp, world := w, out := .error (.reading abort), currentSector := currentSector
            reads := [], calls := [] }
      | .ok (w', read) =>
          let round := hashedRound (host.sector i) i dmp w' read
          if round.out then
            let later := hashedLoop currentSector left (i + 1) round.dmp round.world
            { later with reads := (w, w') :: later.reads, calls := round.calls ++ later.calls }
          else
            { dmp := round.dmp, world := round.world, out := .ok false, currentSector := i
              reads := [(w, w')], calls := round.calls }

/-- `dumper_dump` on the disc of the program. -/
def hashedDump (dmp : HashedDumper) (w : World σ) (currentSector : UInt32) : HashedEnd σ :=
  let dumped := hashedLoop env host currentSector
    (w.disc.sectorsNo.toNat - dmp.files.startSector.toNat) dmp.files.startSector dmp w
  { dumped with
    dmp := { dumped.dmp with
      files := { dumped.dmp.files with
        raw := dumped.dmp.files.raw.close host.rawClose
        iso := dumped.dmp.files.iso.close host.isoClose } } }

end Dump

/-! ## One call -/

/-- The bytes of every cached block are what they were. -/
def HashCall.Undisturbed (call : HashCall σ) : Prop :=
  ∀ format : Format, format.cache call.after.disc = format.cache call.before.disc

def HashCall.ZeroInPlace (call : HashCall σ) : Prop :=
  call.sha1.ZeroInPlace call.data call.bytes

@[simp] theorem Format.cache_setCache (format : Format) (d : Disc) (cache : Nat → Buffer) :
    format.cache (format.setCache d cache) = cache := by
  cases format <;> rfl

@[simp] theorem Format.setCache_cache (format : Format) (d : Disc) :
    format.setCache d (format.cache d) = d := by
  cases format <;> rfl

theorem Format.setSector_sector (format : Format) (d : Disc) (sectorNo : UInt32) :
    format.setSector d sectorNo (format.sector d sectorNo) = d := by
  have cache : (fun p => if p = d.cachePos (sectorNo / 16) then
      (format.cache d p).splice (format.offset sectorNo) (format.sector d sectorNo)
      else format.cache d p) = format.cache d := by
    funext p
    split
    · rename_i here
      rw [here]
      exact Buffer.splice_self _ _
    · rfl
  rw [Format.setSector, cache, Format.setCache_cache]

theorem Format.sector_of_cache {format : Format} {d : Disc} {sectorNo : UInt32} {data : Buffer}
    (same : format.cache (format.setSector d sectorNo data) = format.cache d) :
    data = format.sector d sectorNo := by
  have block := congrFun same (d.cachePos (sectorNo / 16))
  rw [Format.setSector, Format.cache_setCache, if_pos rfl] at block
  have written := congrArg (Buffer.advance · (format.offset sectorNo)) block
  rwa [Buffer.splice_advance] at written

section Calls

variable {w : World σ} {format : Format} {wanted : Bool} {sectorNo : UInt32} {sha1 : Sha1Ctx}
  {call : HashCall σ}

/-- A call that leaves the bytes of the blocks alone leaves the whole state alone. -/
theorem World.hashSector_world
    (undisturbed : ∀ call ∈ (w.hashSector format wanted sectorNo sha1).calls, call.Undisturbed) :
    (w.hashSector format wanted sectorNo sha1).world = w := by
  cases wanted with
  | false => rfl
  | true =>
      have same := undisturbed _ (List.mem_singleton_self _) format
      have disc : format.setSector w.disc sectorNo
          (sha1Update sha1 (format.sector w.disc sectorNo) format.size).2 = w.disc := by
        rw [Format.sector_of_cache same, Format.setSector_sector]
      exact congrArg w.withDisc disc

theorem World.hashSector_call (made : call ∈ (w.hashSector format wanted sectorNo sha1).calls) :
    call.Undisturbed ↔ call.ZeroInPlace := by
  cases wanted with
  | false => exact absurd made List.not_mem_nil
  | true =>
      obtain rfl := List.mem_singleton.mp made
      refine Iff.trans ⟨fun undisturbed => ?_, fun same => ?_⟩ (sha1Update_data_iff ..)
      · exact Format.sector_of_cache (undisturbed format)
      · intro other
        have disc : format.setSector w.disc sectorNo
            (sha1Update sha1 (format.sector w.disc sectorNo) format.size).2 = w.disc := by
          rw [same, Format.setSector_sector]
        exact congrArg other.cache disc

end Calls

/-! ## One sector -/

section Rounds

variable {replies : SectorReplies} {i : UInt32} {dmp : HashedDumper} {w : World σ} {read : SectorRead}

theorem hashedRound_call {call : HashCall σ}
    (made : call ∈ (hashedRound replies i dmp w read).calls) :
    call.Undisturbed ↔ call.ZeroInPlace := by
  rcases List.mem_append.mp made with raw | iso
  · exact World.hashSector_call raw
  · exact World.hashSector_call iso

theorem hashedRound_world
    (undisturbed : ∀ call ∈ (hashedRound replies i dmp w read).calls, call.Undisturbed) :
    (hashedRound replies i dmp w read).world = w :=
  (World.hashSector_world fun call made => undisturbed call (List.mem_append_right _ made)).trans
    (World.hashSector_world fun call made => undisturbed call (List.mem_append_left _ made))

end Rounds

/-! ## Runs -/

section Runs

variable {env : Env σ} {host : Host} {currentSector i : UInt32} {left : Nat} {dmp : HashedDumper}
  {w w' : World σ} {read : SectorRead}

theorem hashedLoop_abort {abort : Abort} (failed : discReadSector env ⟨i, true, true⟩ w = .error abort) :
    hashedLoop env host currentSector (left + 1) i dmp w =
      { dmp := dmp, world := w, out := .error (.reading abort), currentSector := currentSector
        reads := [], calls := [] } := by
  rw [hashedLoop, failed]

theorem hashedLoop_stop (ok : discReadSector env ⟨i, true, true⟩ w = .ok (w', read))
    (stopped : (hashedRound (host.sector i) i dmp w' read).out = false) :
    hashedLoop env host currentSector (left + 1) i dmp w =
      { dmp := (hashedRound (host.sector i) i dmp w' read).dmp
        world := (hashedRound (host.sector i) i dmp w' read).world
        out := .ok false, currentSector := i, reads := [(w, w')]
        calls := (hashedRound (host.sector i) i dmp w' read).calls } := by
  rw [hashedLoop, ok]
  dsimp only
  rw [stopped]
  rfl

theorem hashedLoop_next (ok : discReadSector env ⟨i, true, true⟩ w = .ok (w', read))
    (next : (hashedRound (host.sector i) i dmp w' read).out = true) :
    hashedLoop env host currentSector (left + 1) i dmp w =
      let round := hashedRound (host.sector i) i dmp w' read
      let later := hashedLoop env host currentSector left (i + 1) round.dmp round.world
      { later with reads := (w, w') :: later.reads, calls := round.calls ++ later.calls } := by
  rw [hashedLoop, ok]
  dsimp only
  rw [if_pos next]

theorem hashedLoop_call {call : HashCall σ}
    (made : call ∈ (hashedLoop env host currentSector left i dmp w).calls) :
    call.Undisturbed ↔ call.ZeroInPlace := by
  induction left generalizing i dmp w with
  | zero => exact absurd made List.not_mem_nil
  | succ left ih =>
      cases ok : discReadSector env ⟨i, true, true⟩ w with
      | error abort =>
          rw [hashedLoop_abort ok] at made
          exact absurd made List.not_mem_nil
      | ok result =>
          cases out : (hashedRound (host.sector i) i dmp result.1 result.2).out with
          | false =>
              rw [hashedLoop_stop ok out] at made
              exact hashedRound_call made
          | true =>
              rw [hashedLoop_next ok out] at made
              rcases List.mem_append.mp made with here | later
              · exact hashedRound_call here
              · exact ih later

theorem hashedLoop_lookup
    (undisturbed : ∀ call ∈ (hashedLoop env host currentSector left i dmp w).calls, call.Undisturbed)
    {block : UInt32}
    (still : ∀ reads ∈ (hashedLoop env host currentSector left i dmp w).reads,
      discCacheLookupBlock reads.2.disc block = discCacheLookupBlock reads.1.disc block) :
    discCacheLookupBlock (hashedLoop env host currentSector left i dmp w).world.disc block =
      discCacheLookupBlock w.disc block := by
  induction left generalizing i dmp w with
  | zero => rfl
  | succ left ih =>
      cases ok : discReadSector env ⟨i, true, true⟩ w with
      | error abort => rw [hashedLoop_abort ok]
      | ok result =>
          cases out : (hashedRound (host.sector i) i dmp result.1 result.2).out with
          | false =>
              rw [hashedLoop_stop ok out] at undisturbed still ⊢
              have kept := still _ (List.mem_singleton_self _)
              dsimp only
              rw [hashedRound_world undisturbed]
              exact kept
          | true =>
              rw [hashedLoop_next ok out] at undisturbed still ⊢
              have kept := still _ List.mem_cons_self
              have world := hashedRound_world fun call made =>
                undisturbed call (List.mem_append_left _ made)
              have later := ih (fun call made => undisturbed call (List.mem_append_right _ made))
                fun reads member => still reads (List.mem_cons_of_mem _ member)
              refine later.trans ?_
              rw [world]
              exact kept

/-- A dump that leaves the disc alone is the dump that only absorbs its bytes. -/
theorem hashedLoop_plain
    (undisturbed : ∀ call ∈ (hashedLoop env host currentSector left i dmp w).calls, call.Undisturbed) :
    dumpLoop (fun i w => discReadSector env ⟨i, true, true⟩ w) host currentSector left i dmp.files w =
      { dmp := (hashedLoop env host currentSector left i dmp w).dmp.files
        source := (hashedLoop env host currentSector left i dmp w).world
        out := (hashedLoop env host currentSector left i dmp w).out
        currentSector := (hashedLoop env host currentSector left i dmp w).currentSector } := by
  induction left generalizing i dmp w with
  | zero => rfl
  | succ left ih =>
      cases ok : discReadSector env ⟨i, true, true⟩ w with
      | error abort =>
          rw [hashedLoop_abort ok, dumpLoop, ok]
      | ok result =>
          cases out : (hashedRound (host.sector i) i dmp result.1 result.2).out with
          | false =>
              rw [hashedLoop_stop ok out] at undisturbed ⊢
              rw [hashedRound_world undisturbed]
              exact (dumpLoop_succ ok rfl rfl).trans (if_neg (Bool.eq_false_iff.mp out))
          | true =>
              rw [hashedLoop_next ok out] at undisturbed ⊢
              have world := hashedRound_world fun call made =>
                undisturbed call (List.mem_append_left _ made)
              have later := ih fun call made => undisturbed call (List.mem_append_right _ made)
              rw [← later, world]
              exact (dumpLoop_succ ok rfl rfl).trans (if_pos out)

theorem hashedDump_plain
    (undisturbed : ∀ call ∈ (hashedDump env host dmp w currentSector).calls, call.Undisturbed) :
    dumperDump (fun i w => discReadSector env ⟨i, true, true⟩ w) host w.disc.sectorsNo dmp.files w
        currentSector =
      { dmp := (hashedDump env host dmp w currentSector).dmp.files
        source := (hashedDump env host dmp w currentSector).world
        out := (hashedDump env host dmp w currentSector).out
        currentSector := (hashedDump env host dmp w currentSector).currentSector } := by
  rw [dumperDump, hashedLoop_plain undisturbed]
  rfl

/-! ## Later reads -/

theorem discReadSector_cached {request : Request} {data rawdata : Buffer}
    (found : discCacheLookupBlock w.disc (request.sectorNo / 16) = some (data, rawdata))
    (ok : discReadSector env request w = .ok (w', read)) : read = sectorOf request data rawdata := by
  have ended := discReadSector_returned env w request
  rw [ok] at ended
  cases ended with
  | cached found' =>
      cases found.symm.trans found'
      rfl
  | read missing => cases found.symm.trans missing
  | failed missing => cases found.symm.trans missing

/-- The bytes of the cached blocks survive each call of `multihash_update`, and a block that
no read of the dump replaces reads after the dump as it did before. -/
structure UndisturbedDump (env : Env σ) (start : World σ) (run : HashedEnd σ) : Prop where
  calls : ∀ call ∈ run.calls, call.Undisturbed
  reread : ∀ request : Request, (discCacheLookupBlock start.disc (request.sectorNo / 16)).isSome →
    (∀ reads ∈ run.reads, discCacheLookupBlock reads.2.disc (request.sectorNo / 16) =
      discCacheLookupBlock reads.1.disc (request.sectorNo / 16)) →
    ∀ w' before, discReadSector env request start = .ok (w', before) →
      ∀ w'' after, discReadSector env request run.world = .ok (w'', after) → after = before

theorem hashedDump_reread
    (undisturbed : ∀ call ∈ (hashedDump env host dmp w currentSector).calls, call.Undisturbed) :
    UndisturbedDump env w (hashedDump env host dmp w currentSector) where
  calls := undisturbed
  reread request cached still w' before first w'' after second := by
    obtain ⟨⟨data, rawdata⟩, found⟩ := Option.isSome_iff_exists.mp cached
    have later := (hashedLoop_lookup undisturbed still).trans found
    rw [discReadSector_cached found first, discReadSector_cached later second]

end Runs

/-- Hashing disturbs the disc as soon as SHA-1 transforms in place what is not zero. -/
theorem hashedDump_undisturbed_iff (env : Env σ) (host : Host) (dmp : HashedDumper) (w : World σ)
    (currentSector : UInt32) :
    UndisturbedDump env w (hashedDump env host dmp w currentSector) ↔
      ∀ call ∈ (hashedDump env host dmp w currentSector).calls, call.ZeroInPlace :=
  ⟨fun undisturbed call made => (hashedLoop_call made).mp (undisturbed.calls call made),
    fun zero => hashedDump_reread fun call made => (hashedLoop_call made).mpr (zero call made)⟩

end Hashing

/-! ## Four numbered sectors

Three sectors fill 48 bytes of the buffer of SHA-1, so that of the fourth one all but the first
16 bytes are transformed in place, with its check field. -/

/-- A dumper that hashes into a new raw file. -/
def rawDumper : HashedDumper where
  files :=
    { raw := { outfile := some none, startSector := 0, fp := some (.opened []), hash := [] }
      iso := { outfile := none, startSector := 0, fp := none, hash := [] }
      startSector := 0, hashing := true, flushing := false }
  rawSha1 := sha1Init fun _ => 0
  isoSha1 := sha1Init fun _ => 0

/-- It has hashed so many sectors. -/
structure RawHashing (dmp : HashedDumper) (count : Nat) : Prop where
  opened : dmp.files.raw.fp.isSome = true
  closed : dmp.files.iso.fp = none
  hashing : dmp.files.hashing = true
  flushing : dmp.files.flushing = false
  length : dmp.rawSha1.count0.toNat = count * 16512

theorem sha1Update_count0 (context : Sha1Ctx) (data : Buffer) (dataLen : Nat) :
    (sha1Update context data dataLen).1.count0 = context.count0 + dataLen.toUInt32 <<< 3 := by
  rw [sha1Update]
  dsimp only
  split <;> rfl

theorem RawHashing.round {σ : Type} {dmp : HashedDumper} {count : Nat} (hashing : RawHashing dmp count)
    (few : count < 16) (i : UInt32) (w : World σ) {read : SectorRead} {rawbuf : Buffer}
    (raw : read.rawdata = some rawbuf) :
    (hashedRound ((blankHost .flushed).sector i) i dmp w read).out = true ∧
      RawHashing (hashedRound ((blankHost .flushed).sector i) i dmp w read).dmp (count + 1) ∧
      ∃ after, ⟨dmp.rawSha1, Format.raw.sector w.disc i, 2064, w, after⟩ ∈
        (hashedRound ((blankHost .flushed).sector i) i dmp w read).calls := by
  obtain ⟨opened, closed, on, off, length⟩ := hashing
  obtain ⟨⟨⟨outfile, rawStart, fp, hash⟩, ⟨isoFile, isoStart, isoFp, isoHash⟩, start, wanted, flushing⟩,
    rawSha1, isoSha1⟩ := dmp
  obtain ⟨fp, rfl⟩ := Option.isSome_iff_exists.mp opened
  obtain rfl : isoFp = none := closed
  obtain rfl : wanted = true := on
  obtain rfl : flushing = false := off
  obtain ⟨out, data, rawdata⟩ := read
  obtain rfl : rawdata = some rawbuf := raw
  refine ⟨rfl, ⟨rfl, rfl, rfl, rfl, ?_⟩, _, List.mem_append_left _ List.mem_cons_self⟩
  have counted := sha1Update_count0 rawSha1 (Format.raw.sector w.disc i) 2064
  have bits : (2064 : Nat).toUInt32 <<< 3 = 16512 := by decide
  rw [bits] at counted
  have update := congrArg UInt32.toNat counted
  rw [UInt32.toNat_add, length] at update
  refine update.trans ?_
  simp only [UInt32.reduceToNat]
  omega

private theorem firstBlock_hit {σ : Type} (env : Env σ) {w : World σ} {data rawdata : Buffer}
    (enabled : w.disc.unscrambling = true)
    (found : discCacheLookupBlock w.disc 0 = some (data, rawdata)) {i : UInt32} (inside : i.toNat < 16) :
    discReadSector env ⟨i, true, true⟩ w = .ok (w, sectorOf ⟨i, true, true⟩ data rawdata) := by
  have block : i / 16 = 0 := by
    apply UInt32.toNat_inj.mp
    rw [UInt32.toNat_div]
    simp only [UInt32.reduceToNat]
    omega
  exact discReadSector_hit _ (by rw [enabled]; rfl) (by rw [block]; exact found)

/-- Sectors of a cached block are hashed one after the other, as long as none is disturbed. -/
theorem RawHashing.reaches {σ : Type} {env : Env σ} {w : World σ} {currentSector : UInt32}
    {data rawdata : Buffer} (enabled : w.disc.unscrambling = true)
    (found : discCacheLookupBlock w.disc 0 = some (data, rawdata)) (left : Nat) (i : UInt32)
    (dmp : HashedDumper) (hashing : RawHashing dmp i.toNat) (inside : i.toNat + left < 16)
    (undisturbed : ∀ call ∈ (hashedLoop env (blankHost .flushed) currentSector (left + 1) i dmp w).calls,
      call.Undisturbed) :
    ∃ call ∈ (hashedLoop env (blankHost .flushed) currentSector (left + 1) i dmp w).calls,
      call.sha1.count0.toNat = (i.toNat + left) * 16512 ∧
        call.data = Format.raw.sector w.disc (i + left.toUInt32) ∧ call.bytes = 2064 := by
  induction left generalizing i dmp with
  | zero =>
      have read := firstBlock_hit env enabled found inside
      obtain ⟨out, -, after, made⟩ := hashing.round inside i w
        (rfl : (sectorOf ⟨i, true, true⟩ data rawdata).rawdata = some _)
      rw [hashedLoop_next read out]
      have same : i + Nat.toUInt32 0 = i := UInt32.add_zero i
      exact ⟨_, List.mem_append_left _ made, hashing.length,
        congrArg (Format.raw.sector w.disc) same.symm, rfl⟩
  | succ left ih =>
      have read := firstBlock_hit env enabled found (by omega : i.toNat < 16)
      obtain ⟨out, further, -, -⟩ := hashing.round (by omega) i w
        (rfl : (sectorOf ⟨i, true, true⟩ data rawdata).rawdata = some _)
      rw [hashedLoop_next read out] at undisturbed ⊢
      have world := hashedRound_world fun call made =>
        undisturbed call (List.mem_append_left _ made)
      have next : (i + 1).toNat = i.toNat + 1 := toNat_add_one (by omega)
      dsimp only at undisturbed ⊢
      rw [world] at undisturbed ⊢
      rw [← next] at further
      obtain ⟨call, made, length, shown, bytes⟩ := ih (i + 1) _ further (by omega)
        fun call made => undisturbed call (List.mem_append_right _ made)
      refine ⟨call, List.mem_append_right _ made, ?_, ?_, bytes⟩
      · rw [length, next]
        congr 1
        omega
      · have place : i + 1 + left.toUInt32 = i + (left + 1).toUInt32 := by
          rw [toUInt32_succ]
          grind
        rw [shown, place]

/-- A sector with a check field of zeros and nothing but a number would be a burst. -/
private theorem fourthSector_check : ∃ i, 2060 ≤ i ∧ i < 2064 ∧ numberedSector 0x30003 i ≠ 0 := by
  by_contra none
  push Not at none
  have empty : ∀ i, 4 ≤ i → i < 2064 → numberedSector 0x30003 i = 0 := by
    intro i behind inside
    by_cases user : i < 2060
    · exact numberedSector_empty 0x30003 behind user
    · exact none i (Nat.not_lt.mp user) inside
  have third : numberedSector 0x30003 3 = 3 := plainSector_apply _ (by decide)
  refine sectorSyndrome_burst_ne_zero (numberedSector 0x30003) 0 (fun i inside set => ?_)
    ⟨30, by decide, ?_⟩ (sectorSyndrome_numberedSector 0x30003)
  · refine ⟨Nat.zero_le i, Nat.not_le.mp fun beyond => ?_⟩
    rw [Buffer.bit, empty _ (by omega) (by omega)] at set
    exact absurd set (by simp [BitVec.getMsbD])
  · rw [Buffer.bit, third]
    decide

/-- The disc of the counting drive, cut down to four sectors. -/
def World.fourSectors (d : Disc) : World UInt32 :=
  World.created 0 (discSetReadMethod (initRange { d with sectorsNo := 4 } notGiven notGiven) 0) 0

/-- The check field of the fourth sector does not survive its hash. -/
theorem hashedDump_disturbs_fourth :
    ∃ d, discNew ⟨.vanilla2064, 2, 0, true⟩ (fun _ _ => 0) (fun _ _ => 0)
        ⟨fun _ => ⟨0, fun _ => 0⟩, false⟩ = some d ∧
      ¬ UndisturbedDump (countingEnv 0) (World.fourSectors d)
        (hashedDump (countingEnv 0) (blankHost .flushed) rawDumper (World.fourSectors d) 0) := by
  obtain ⟨d, created⟩ : ∃ d, discNew ⟨.vanilla2064, 2, 0, true⟩ (fun _ _ => 0) (fun _ _ => 0)
      ⟨fun _ => ⟨0, fun _ => 0⟩, false⟩ = some d := ⟨_, rfl⟩
  obtain ⟨start, vanilla, seedless, enabled⟩ : EmptyCache (World.fourSectors d) ∧
      d.dvd.memdump = .vanilla2064 ∧ Seedless d.u ∧ d.unscrambling = true := by
    have start := discNew_emptyCache created (0 : UInt32) (by decide : (0 : UInt8) ≠ 3)
    refine ⟨⟨start.reachable, start.agree, start.positive, start.empty, start.recorded⟩, ?_⟩
    cases created
    exact ⟨rfl, unscramblerNew_seedless _, rfl⟩
  have ranged : Ranged (World.fourSectors d).disc :=
    discSetReadMethod_ranged { d with sectorsNo := 4 } notGiven notGiven 0
  have known : (0 : Int) ≤ 0 ∧ (0 : Int) ≤ 6 := by decide
  have carries := countingEnv_carries
  rw [← vanilla] at carries
  have addressed : Addressed (countingEnv 0) id countedImage (World.fourSectors d) :=
    start.addressed known ranged carries
  obtain ⟨w, data, rawdata, returned, found, kept⟩ := @countingEnv_discReadSector (World.fourSectors d) 0
    vanilla ranged (by decide) seedless known enabled start.missing
  have on : w.disc.unscrambling = true := by
    rw [kept.disc]
    exact enabled
  have block : (0 : UInt32) / 16 = 0 := by decide
  rw [block] at found
  have further := (discReadSector_addressed addressed (by decide) (.inr (.inl rfl)) returned).1
  have returns : countedImage.Returns (dataOffset w.disctype) ⟨3, true, true⟩
      (sectorOf ⟨3, true, true⟩ data rawdata) := lookup_returns further (by decide) found
  obtain ⟨shown, pointer, bytes⟩ := returns.rawdata rfl
  have place : Format.raw.sector w.disc 3 = shown := by
    rw [discCacheLookupBlock] at found
    split at found
    · cases found
      cases pointer
      rfl
    · cases found
  refine ⟨d, created, fun undisturbed => ?_⟩
  have calls : ∀ call ∈ (hashedLoop (countingEnv 0) (blankHost .flushed) 0 (3 + 1) 0 rawDumper
      (World.fourSectors d)).calls, call.Undisturbed := undisturbed.calls
  have hashing : RawHashing rawDumper 0 := ⟨rfl, rfl, rfl, rfl, rfl⟩
  obtain ⟨out, next, -, -⟩ := hashing.round (by decide) 0 w
    (rfl : (sectorOf ⟨0, true, true⟩ data rawdata).rawdata = some _)
  rw [hashedLoop_next returned out] at calls
  have world := hashedRound_world fun call made => calls call (List.mem_append_left _ made)
  dsimp only at calls
  rw [world] at calls
  have later := fun call made => calls call (List.mem_append_right _ made)
  obtain ⟨call, made, length, sector, size⟩ := RawHashing.reaches on found 2 1 _ next (by decide) later
  have zero : call.sha1.ZeroInPlace call.data call.bytes := (hashedLoop_call made).mp (later call made)
  have fill : call.sha1.fill = 48 := by
    rw [Sha1Ctx.fill, UInt32.toNat_mod, UInt32.toNat_shiftRight, length]
    rfl
  have third : (1 : UInt32) + Nat.toUInt32 2 = 3 := by decide
  rw [third, place] at sector
  rw [Sha1Ctx.ZeroInPlace, fill, sector, size] at zero
  obtain ⟨i, lower, upper, odd⟩ := fourthSector_check
  have check := zero 31 (by decide) (i - 2000) (by omega)
  have same : 64 - 48 + 64 * 31 + (i - 2000) = i := by omega
  rw [same, bytes i upper] at check
  exact odd check

end Friidump
