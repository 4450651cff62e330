import Mathlib.Logic.Relation
import Friidump.StreamingPass
import Friidump.DumpContract
import Friidump.DiscMethodsProperties

/-!
# The memory that a read writes, and the commands it sends

The global buffers have 4 MiB, a block of the cache 32768 bytes, or 33024 as it is on the
disc, and methods 7 to 9 keep five blocks on the stack. Every array of the model goes on
behind its end, so that a write that leaves it shows there.
-/

set_option autoImplicit false

namespace Friidump

open Relation (ReflTransGen)

/-! ## Writes to a buffer -/

/-- From byte `n` on the buffer is as it was. -/
def Buffer.SameFrom (n : Nat) (buf buf' : Buffer) : Prop := ∀ i, n ≤ i → buf' i = buf i

namespace Buffer.SameFrom

variable {buf buf' buf'' : Buffer} {n m : Nat}

theorem refl (n : Nat) (buf : Buffer) : SameFrom n buf buf := fun _ _ => rfl

theorem trans (first : SameFrom n buf buf') (second : SameFrom n buf' buf'') : SameFrom n buf buf'' :=
  fun i behind => (second i behind).trans (first i behind)

theorem mono (same : SameFrom n buf buf') (le : n ≤ m) : SameFrom m buf buf' :=
  fun i behind => same i (Nat.le_trans le behind)

theorem memcpy (buf src : Buffer) {offset length : Nat} (inside : offset + length ≤ n) :
    SameFrom n buf (buf.memcpy offset src length) :=
  fun _ behind => Buffer.memcpy_outside _ _ (.inr (Nat.le_trans inside behind))

theorem memset (buf : Buffer) (value : UInt8) {offset length : Nat} (inside : offset + length ≤ n) :
    SameFrom n buf (buf.memset offset value length) :=
  fun _ behind => if_neg fun within => absurd within.2 (by omega)

theorem splice {offset : Nat} (same : SameFrom n (buf.advance offset) buf') (inside : offset + n ≤ m) :
    SameFrom m buf (buf.splice offset buf') := by
  intro i behind
  have above : offset ≤ i := by omega
  have position : offset + (i - offset) = i := Nat.add_sub_cancel' above
  rw [Buffer.splice_above _ _ above, same (i - offset) (by omega), Buffer.advance_apply, position]

end Buffer.SameFrom

/-! ## Commands -/

/-- How the command of each dump function begins. -/
def MemdumpFunc.head : MemdumpFunc → List UInt8
  | .vanilla2064 | .vanilla2384 => [0x3C, 0x02, 0x00]
  | .hitachi => [0xE7, 0x48, 0x49, 0x54, 0x01, 0x00]
  | .liteon => [0x3C, 0x01, 0x01]
  | .renesas => [0x3C, 0x05]

/-- How all commands begin: READ, the questions for the size and the layers, the settings of the
spindle and the speed, and the dumps of one kind. -/
def commandHeads (memdump : MemdumpFunc) : List (List UInt8) :=
  [[0xA8, 0x00], [0xA8, 0x08], [0x52, 0x01], [0xAD, 0x00], [0x1B, 0x00, 0x00, 0x00, 0x00],
    [0x1B, 0x00, 0x00, 0x00, 0x01], [0xBB, 0x00], [0xB6, 0x00], memdump.head]

section Commands

variable {σ : Type}

/-- The drive has been sent one of these, with a transfer of at most 100 raw sectors. -/
def Issued (env : Env σ) (memdump : MemdumpFunc) (drive drive' : σ) : Prop :=
  ∃ mmc : MmcCommand, mmc.cmd.length = 12 ∧ (∃ head ∈ commandHeads memdump, head <+: mmc.cmd) ∧
    mmc.buflen ≤ 100 * 2064 ∧ drive' = (env.ioctl drive mmc).1

variable {env : Env σ} {memdump : MemdumpFunc} {drive : σ}

theorem issued {mmc : MmcCommand} (head : List UInt8) (listed : head ∈ commandHeads memdump)
    (begins : head <+: mmc.cmd) (length : mmc.cmd.length = 12) (short : mmc.buflen ≤ 100 * 2064) :
    ReflTransGen (Issued env memdump) drive (env.ioctl drive mmc).1 :=
  .single ⟨mmc, length, ⟨head, listed, begins⟩, short, rfl⟩

theorem MemdumpFunc.head_listed (memdump : MemdumpFunc) : memdump.head ∈ commandHeads memdump := by
  simp [commandHeads]

theorem dvdExecuteCmd_sameFrom (env : Env σ) (drive : σ) (cmd : List UInt8) (buf : Buffer) (len : Nat)
    (ignoreErrors : Bool) :
    buf.SameFrom len (dvdExecuteCmd env drive (dvdInitCommand cmd buf len) ignoreErrors).buffer := by
  have cleared : buf.SameFrom len (dvdInitCommand cmd buf len).buffer :=
    .memset buf 0 (Nat.le_of_eq (Nat.zero_add len))
  refine cleared.trans (.memcpy _ _ ?_)
  rw [Nat.zero_add]
  exact Nat.min_le_right _ _

theorem dvdReadSectorDummy_issued (sector sectors : UInt32) (extbuf : Option (Buffer × Nat))
    (short : ∀ given ∈ extbuf, given.2 ≤ 100 * 2064) :
    ReflTransGen (Issued env memdump) drive (dvdReadSectorDummy env drive sector sectors extbuf).drive := by
  refine issued [0xA8, 0x08] (by simp [commandHeads]) ⟨_, rfl⟩ rfl ?_
  cases extbuf with
  | none => exact (by decide : 64 * 1024 ≤ 100 * 2064)
  | some given => exact short given rfl

theorem dvdReadStreaming_issued (sector sectors : UInt32) (extbuf : Option (Buffer × Nat))
    (short : ∀ given ∈ extbuf, given.2 ≤ 100 * 2064) :
    ReflTransGen (Issued env memdump) drive (dvdReadStreaming env drive sector sectors extbuf).drive := by
  refine issued [0xA8, 0x00] (by simp [commandHeads]) ⟨_, rfl⟩ rfl ?_
  cases extbuf with
  | none => exact (by decide : 64 * 1024 ≤ 100 * 2064)
  | some given => exact short given rfl

theorem dvdReadSectorStreaming_issued (sector : UInt32) (extbuf : Option (Buffer × Nat))
    (short : ∀ given ∈ extbuf, given.2 ≤ 100 * 2064) :
    ReflTransGen (Issued env memdump) drive (dvdReadSectorStreaming env drive sector extbuf).drive := by
  refine issued [0xA8, 0x00] (by simp [commandHeads]) ⟨_, rfl⟩ rfl ?_
  cases extbuf with
  | none => exact (by decide : 2048 * 16 ≤ 100 * 2064)
  | some given => exact short given rfl

theorem dvdFlushCacheRead12_issued (sector : UInt32) :
    ReflTransGen (Issued env memdump) drive (dvdFlushCacheRead12 env drive sector).drive :=
  issued [0xA8, 0x08] (by simp [commandHeads]) ⟨_, rfl⟩ rfl (Nat.zero_le _)

/-! ## Memory dumps -/

/-- The drive has been sent commands of these, and `n` bytes of the target may have changed. -/
structure DumpedWithin (env : Env σ) (memdump : MemdumpFunc) (n : Nat) (drive : σ) (buf : Buffer)
    (dumped : Dumped σ) : Prop where
  commands : ReflTransGen (Issued env memdump) drive dumped.drive
  buf : buf.SameFrom n dumped.buf

theorem DumpedWithin.refused (n : Nat) (drive : σ) (out : Int) (buf : Buffer) :
    DumpedWithin env memdump n drive buf { drive := drive, out := out, buf := buf } :=
  ⟨.refl, .refl n buf⟩

/-- A mark is written into a sector after the first one only. -/
theorem checkSequence_sameFrom {rounds srcOffset n : Nat} {firstSecNr secCnt : UInt32} {buf : Buffer}
    (inside : srcOffset + 2064 * rounds ≤ n) :
    buf.SameFrom n (checkSequence rounds srcOffset firstSecNr secCnt buf).2 := by
  induction rounds generalizing srcOffset firstSecNr secCnt with
  | zero => exact .refl n buf
  | succ rounds ih =>
      rw [checkSequence]
      split
      · exact ih (by omega)
      · split
        · exact .memset buf 0xff (by omega)
        · exact ih (by omega)

theorem checkSequence_one (buf : Buffer) : (checkSequence 1 0 0x55555555 0 buf).2 = buf := rfl

/-- The sizes of the dumps there are: whole sectors, or a part of one. -/
def WholeOrPart (size : UInt32) : Prop := 2064 ∣ size.toNat ∨ size.toNat ≤ 2064

theorem sequencedDump_within {cmd : List UInt8} {size : UInt32} (whole : WholeOrPart size)
    (begins : memdump.head <+: cmd) (length : cmd.length = 12) (buf : Buffer) :
    DumpedWithin env memdump size.toNat drive buf (sequencedDumpMemblock env drive cmd size buf) := by
  unfold sequencedDumpMemblock
  split
  · exact .refused ..
  · rename_i accepted
    have small : size.toNat ≤ 65535 :=
      Nat.not_lt.mp fun large => accepted (.inr (UInt32.lt_iff_toNat_lt.mpr large))
    have filled := dvdExecuteCmd_sameFrom env drive cmd buf size.toNat false
    refine ⟨issued _ memdump.head_listed begins length (Nat.le_trans small (by decide)), filled.trans ?_⟩
    cases whole with
    | inl whole =>
        obtain ⟨n, sectors⟩ := whole
        have rounds : (size.toNat + 2063) / 2064 = n := by omega
        dsimp only
        rw [rounds]
        exact checkSequence_sameFrom (by omega)
    | inr short =>
        have rounds : (size.toNat + 2063) / 2064 = 0 ∨ (size.toNat + 2063) / 2064 = 1 := by omega
        dsimp only
        rcases rounds with none | one
        · rw [none]
          exact .refl _ _
        · rw [one, checkSequence_one]
          exact .refl _ _

theorem copyRows_sameFrom (buf tmp : Buffer) (srcOffset : Nat) {dstOffset n : Nat}
    (inside : dstOffset + 2064 ≤ n) : buf.SameFrom n (copyRows buf tmp dstOffset srcOffset) := by
  intro i behind
  have outside : ¬(dstOffset ≤ i ∧ i < dstOffset + 2064) := by omega
  rw [copyRows_apply, if_neg outside]

theorem extractSectors_sameFrom {decode : Buffer → Buffer} {rounds srcOffset dstOffset n : Nat}
    {firstSecNr secCnt : UInt32} {tmp buf : Buffer} (inside : dstOffset + 2064 * rounds ≤ n) :
    buf.SameFrom n (extractSectors decode rounds srcOffset dstOffset firstSecNr secCnt tmp buf).2 := by
  induction rounds generalizing srcOffset dstOffset firstSecNr secCnt tmp buf with
  | zero => exact .refl n buf
  | succ rounds ih =>
      have here : dstOffset + 2064 ≤ n :=
        Nat.le_trans (Nat.add_le_add_left (Nat.le_mul_of_pos_right 2064 rounds.succ_pos) _) inside
      have later : dstOffset + 12 * 172 + 2064 * rounds ≤ n := by omega
      rw [extractSectors]
      split
      · exact .refl n buf
      · exact (copyRows_sameFrom buf _ _ here).trans (ih later)

theorem rawDump_within {decode : Buffer → Buffer} {sub1 sub2 : UInt8} {limit offset size : UInt32}
    (head : memdump.head = [0x3C, sub1, sub2]) (bound : limit ≤ 65535) (buf : Buffer) :
    DumpedWithin env memdump size.toNat drive buf
      (rawDumpMemblock env drive decode sub1 sub2 limit offset size buf) := by
  unfold rawDumpMemblock
  dsimp only
  split
  · exact .refused ..
  · rename_i accepted
    have small : (size / 2064 * 0x950).toNat ≤ 65535 := by
      refine Nat.not_lt.mp fun large => accepted (.inr (UInt32.lt_iff_toNat_lt.mpr ?_))
      exact Nat.lt_of_le_of_lt (UInt32.le_iff_toNat_le.mp bound) large
    refine ⟨issued [0x3C, sub1, sub2] (head ▸ memdump.head_listed) ⟨_, rfl⟩ rfl
      (Nat.le_trans small (by decide)), ?_⟩
    have sectors : (size / 2064 * 0x950).toNat ≤ size.toNat / 2064 * 2384 := by
      rw [UInt32.toNat_mul, UInt32.toNat_div]
      exact Nat.mod_le _ _
    exact extractSectors_sameFrom (by omega)

/-- No way to dump memory writes more than it is asked for. -/
theorem dvdMemdump_within (memdump : MemdumpFunc) (offset : UInt32) {size : UInt32}
    (whole : WholeOrPart size) (buf : Buffer) :
    DumpedWithin env memdump size.toNat drive buf (dvdMemdump env memdump drive offset 1 size buf) := by
  rw [dvdMemdump_one]
  cases memdump with
  | vanilla2064 => exact sequencedDump_within whole ⟨_, rfl⟩ rfl buf
  | vanilla2384 => exact rawDump_within rfl (by decide) buf
  | hitachi =>
      dsimp only [MemdumpFunc.memblock]
      unfold hitachiDvdDumpMemblock
      split
      · exact .refused ..
      · rename_i accepted
        have small : size.toNat ≤ 65535 :=
          Nat.not_lt.mp fun large => accepted (.inr (UInt32.lt_iff_toNat_lt.mpr large))
        have filled := dvdExecuteCmd_sameFrom env drive ([0xE7, 0x48, 0x49, 0x54, 0x01, 0] ++
          msbToLsb (MemdumpFunc.hitachi.base + offset) ++ (msbToLsb size).drop 2) buf size.toNat false
        exact ⟨issued _ MemdumpFunc.hitachi.head_listed ⟨_, rfl⟩ rfl
          (Nat.le_trans small (by decide)), filled⟩
  | liteon => exact rawDump_within rfl (by decide) buf
  | renesas => exact sequencedDump_within whole ⟨_, rfl⟩ rfl buf

end Commands

/-! ## The state of the program -/

section Reading

variable {σ : Type}

/-- What the program has sent to the drive, and the memory behind its arrays, which it has not
written: the global buffers, the cached blocks, the map of the cache and the seeds. -/
structure Confined (env : Env σ) (w w' : World σ) : Prop where
  commands : ReflTransGen (Issued env w.disc.dvd.memdump) w.drive w'.drive
  dvd : w'.disc.dvd = w.disc.dvd
  buf : w.buf.SameFrom 4194304 w'.buf
  bufUnscrambled : w.bufUnscrambled.SameFrom 4194304 w'.bufUnscrambled
  cacheSize : w'.disc.cacheSize = w.disc.cacheSize
  cache : ∀ p, (w.disc.cache p).SameFrom (if p < w.disc.cacheSize.toNat then 32768 else 0)
    (w'.disc.cache p)
  rawCache : ∀ p, (w.disc.rawCache p).SameFrom (if p < w.disc.cacheSize.toNat then 33024 else 0)
    (w'.disc.rawCache p)
  cacheMap : ∀ p, w.disc.cacheSize.toNat ≤ p → w'.disc.cacheMap p = w.disc.cacheMap p
  seeds : ∀ i, 64 ≤ i → w'.disc.u.seeds i = w.disc.u.seeds i
  streams : ∀ i, (w.disc.u.seeds i).streamcipher.SameFrom 2048 (w'.disc.u.seeds i).streamcipher

variable {env : Env σ} {w w' w'' : World σ}

theorem Confined.trans (first : Confined env w w') (second : Confined env w' w'') :
    Confined env w w'' where
  commands := first.commands.trans (first.dvd ▸ second.commands)
  dvd := second.dvd.trans first.dvd
  buf := first.buf.trans second.buf
  bufUnscrambled := first.bufUnscrambled.trans second.bufUnscrambled
  cacheSize := second.cacheSize.trans first.cacheSize
  cache p := (first.cache p).trans (first.cacheSize ▸ second.cache p)
  rawCache p := (first.rawCache p).trans (first.cacheSize ▸ second.rawCache p)
  cacheMap p behind := (second.cacheMap p (first.cacheSize.symm ▸ behind)).trans (first.cacheMap p behind)
  seeds i behind := (second.seeds i behind).trans (first.seeds i behind)
  streams i := (first.streams i).trans (second.streams i)

/-- A change of the drive, the global buffers and the settings of the disc. -/
theorem Confined.of_arrays (commands : ReflTransGen (Issued env w.disc.dvd.memdump) w.drive w'.drive)
    (buf : w.buf.SameFrom 4194304 w'.buf)
    (bufUnscrambled : w.bufUnscrambled.SameFrom 4194304 w'.bufUnscrambled)
    (disc : w'.disc = { w'.disc with
      dvd := w.disc.dvd
      u := { w'.disc.u with seeds := w.disc.u.seeds }
      cacheSize := w.disc.cacheSize
      rawCache := w.disc.rawCache
      cache := w.disc.cache
      cacheMap := w.disc.cacheMap }) : Confined env w w' := by
  have seeds : w'.disc.u.seeds = w.disc.u.seeds := by
    rw [disc]
  have cache : w'.disc.cache = w.disc.cache := by
    rw [disc]
  have rawCache : w'.disc.rawCache = w.disc.rawCache := by
    rw [disc]
  have cacheMap : w'.disc.cacheMap = w.disc.cacheMap := by
    rw [disc]
  refine ⟨commands, by rw [disc], buf, bufUnscrambled, by rw [disc], fun p => ?_, fun p => ?_, fun p _ => ?_,
    fun i _ => ?_, fun i => ?_⟩
  · rw [cache]
    exact .refl _ _
  · rw [rawCache]
    exact .refl _ _
  · rw [cacheMap]
  · rw [seeds]
  · rw [seeds]
    exact .refl _ _

theorem Confined.refl (w : World σ) : Confined env w w :=
  .of_arrays .refl (.refl _ _) (.refl _ _) rfl

theorem Confined.withDrive {drive : σ} (commands : ReflTransGen (Issued env w.disc.dvd.memdump) w.drive drive) :
    Confined env w (w.withDrive drive) :=
  .of_arrays commands (.refl _ _) (.refl _ _) rfl

/-- What the arrays have to be for a read: the steps are in range, and the seed cache ends where
the initialisation has put its end. -/
structure Sized (w : World σ) : Prop where
  ranged : Ranged w.disc
  formed : SeedsWellFormed w.disc.u
  positive : 0 < w.disc.cacheSize

theorem Sized.extends {P : CachedBlock → Prop} (sized : Sized w) (kept : Extends P w w') : Sized w' where
  ranged := kept.ranged sized.ranged
  formed := kept.formed sized.formed
  positive := by
    rw [kept.disc]
    exact sized.positive

theorem Sized.quiet (sized : Sized w) (quiet : Quiet w w') : Sized w' :=
  sized.extends (P := fun _ => True) quiet.extends

/-- A part of a read that keeps to the arrays, and leaves them as the next part needs them. -/
def Confines (env : Env σ) (w w' : World σ) : Prop := Sized w → Confined env w w' ∧ Sized w'

theorem Confines.refl (w : World σ) : Confines env w w := fun sized => ⟨.refl w, sized⟩

theorem Confines.trans (first : Confines env w w') (second : Confines env w' w'') :
    Confines env w w'' := by
  intro sized
  obtain ⟨before, sized'⟩ := first sized
  obtain ⟨after, sized''⟩ := second sized'
  exact ⟨before.trans after, sized''⟩

theorem Confines.of_quiet (quiet : Quiet w w') (confined : Sized w → Confined env w w') :
    Confines env w w' :=
  fun sized => ⟨confined sized, sized.quiet quiet⟩

theorem Confines.withDrive {drive : σ} (commands : ReflTransGen (Issued env w.disc.dvd.memdump) w.drive drive) :
    Confines env w (w.withDrive drive) :=
  .of_quiet (.withDrive w drive) fun _ => .withDrive commands

/-! ## Methods 0 to 6 -/

theorem readDistant_confines (w : World σ) (sectorNo : UInt32) :
    Confines env w (readDistant env w sectorNo) := by
  unfold readDistant
  split
  · exact .withDrive (dvdReadSectorDummy_issued _ _ none nofun)
  · split
    · exact .withDrive (dvdReadSectorDummy_issued _ _ none nofun)
    · exact .withDrive (dvdFlushCacheRead12_issued _)

theorem flushCache_confines (w : World σ) (sectorNo : UInt32) :
    Confines env w (flushCache env w sectorNo) :=
  .withDrive (dvdFlushCacheRead12_issued _)

/-- The READ of a step puts its data into the buffer of the unscrambled blocks. -/
theorem dvdRead_confines (method : Nat) (w : World σ) (sectorNo : UInt32) :
    let extbuf := some (w.bufUnscrambled, (2064 * w.disc.secMem).toNat)
    let executed :=
      if method = 4 ∨ method = 5 ∨ method = 6 then
        dvdReadStreaming env w.drive sectorNo w.disc.secDisc extbuf
      else dvdReadSectorDummy env w.drive sectorNo w.disc.secDisc extbuf
    Confines env w ((w.withDrive executed.drive).withBufUnscrambled executed.buffer) := by
  intro extbuf executed
  refine .of_quiet ((Quiet.withDrive _ _).trans (.withBufUnscrambled _ _)) fun sized => ?_
  have length : (2064 * w.disc.secMem).toNat ≤ 100 * 2064 := by
    have upper := Nat.mul_le_mul_left 2064 sized.ranged.upper
    rw [UInt32.toNat_mul]
    exact Nat.le_trans (Nat.mod_le _ _) upper
  have short : ∀ given ∈ extbuf, given.2 ≤ 100 * 2064 := by
    intro given is
    cases Option.mem_some.mp is
    exact length
  have sent : ReflTransGen (Issued env w.disc.dvd.memdump) w.drive executed.drive ∧
      w.bufUnscrambled.SameFrom (2064 * w.disc.secMem).toNat executed.buffer := by
    dsimp only [executed]
    split
    · exact ⟨dvdReadStreaming_issued _ _ extbuf short, dvdExecuteCmd_sameFrom env _ _ _ _ _⟩
    · exact ⟨dvdReadSectorDummy_issued _ _ extbuf short, dvdExecuteCmd_sameFrom env _ _ _ _ _⟩
  exact .of_arrays sent.1 (.refl _ _) (sent.2.mono (Nat.le_trans length (by decide))) rfl

theorem readStep_confines (method : Nat) (w : World σ) (sectorNo : UInt32) :
    Confines env w (readStep env method w sectorNo).1 := by
  have displaced : Confines env w
      (if method = 0 ∨ method = 1 ∨ method = 4 then readDistant env w sectorNo else w) := by
    split
    · exact readDistant_confines w sectorNo
    · exact .refl w
  have flushed : ∀ w₁, Confines env w₁
      (if method = 0 ∨ method = 2 ∨ method = 5 then flushCache env w₁ sectorNo else w₁) := by
    intro w₁
    split
    · exact flushCache_confines w₁ sectorNo
    · exact .refl w₁
  exact (displaced.trans (flushed _)).trans (dvdRead_confines method _ sectorNo)

theorem dumpChunks_confines {chunks : Chunks} {position blockCnt size : UInt32} {left : Nat}
    (whole : WholeOrPart size) (small : size.toNat ≤ 55728) (few : chunks.blockLen.toNat ≤ 4)
    (early : position.toNat ≤ 15 * 206400) (rest : blockCnt.toNat + left = chunks.blockLen.toNat)
    (w : World σ) : Confines env w (dumpChunks env chunks position left blockCnt size w).1 := by
  induction left generalizing blockCnt w with
  | zero => exact .refl w
  | succ left ih =>
      have offset := chunkOffset (by omega : blockCnt.toNat ≤ 4)
      have target : (position + blockCnt * 27 * 2064).toNat =
          position.toNat + blockCnt.toNat * 55728 := by
        rw [UInt32.toNat_add, offset]
        omega
      have next : (blockCnt + 1).toNat = blockCnt.toNat + 1 := toNat_add_one (by omega)
      have dumped := @dvdMemdump_within _ env w.drive w.disc.dvd.memdump (blockCnt * 27 * 2064) _ whole
        (w.buf.advance (position + blockCnt * 27 * 2064).toNat)
      have here : Confines env w (dumpedWorld env w position blockCnt size) := by
        refine .of_quiet ((Quiet.withDrive _ _).trans (.withBuf _ _)) fun _ => ?_
        exact .of_arrays dumped.commands (dumped.buf.splice (by omega)) (.refl _ _) rfl
      rw [dumpChunks_succ rest]
      split
      · exact here
      · exact here.trans (ih (by omega) _)

theorem streamStep_confines {method : Nat} {sectorNo cnt : UInt32} (early : cnt.toNat ≤ 15)
    (w : World σ) : Confines env w (streamStep env method sectorNo cnt w).1 := by
  intro sized
  have position := stepPosition early sized.ranged.upper
  have before : cnt.toNat * (2064 * w.disc.secMem.toNat) ≤ 15 * 206400 :=
    Nat.mul_le_mul early (Nat.mul_le_mul_left 2064 sized.ranged.upper)
  have chunk : WholeOrPart (chunksOf w.disc.secMem).blockSize ∧
      (chunksOf w.disc.secMem).blockSize.toNat ≤ 55728 ∧ (chunksOf w.disc.secMem).blockLen.toNat ≤ 4 := by
    obtain ⟨one, single, size⟩ | ⟨_, few, _, size, _⟩ :=
      chunksOf_cases sized.ranged.lower sized.ranged.upper
    · exact ⟨.inl ⟨_, size⟩, by omega, by omega⟩
    · exact ⟨.inl ⟨27, size⟩, by omega, few⟩
  obtain ⟨whole, small, few⟩ := chunk
  have read : Confines env w _ := readStep_confines method w (sectorNo + cnt * w.disc.secMem)
  unfold streamStep
  dsimp only
  rw [readStep_out, if_pos (Int.le_refl 0)]
  have dumped := @dumpChunks_confines _ env (chunksOf w.disc.secMem) (cnt * (2064 * w.disc.secMem)) 0
    (chunksOf w.disc.secMem).blockSize (chunksOf w.disc.secMem).blockLen.toNat whole small few
    (position ▸ before) (Nat.zero_add _) (readStep env method w (sectorNo + cnt * w.disc.secMem)).1
  have both := read.trans dumped
  split
  · exact both sized
  · split <;> exact both sized

theorem streamLoop_confines {method : Nat} {sectorNo cnt : UInt32} {left : Nat}
    (early : cnt.toNat + left ≤ 16) (w : World σ) :
    Confines env w (streamLoop env method sectorNo left cnt w).1 := by
  induction left generalizing cnt w with
  | zero => exact .refl w
  | succ left ih =>
      have step : Confines env w (streamStep env method sectorNo cnt w).1 :=
        streamStep_confines (by omega) w
      have next : (cnt + 1).toNat = cnt.toNat + 1 := toNat_add_one (by omega)
      rw [streamLoop]
      rcases result : streamStep env method sectorNo cnt w with ⟨w₁, done⟩
      rw [result] at step
      cases done with
      | true => exact step.trans (ih (by omega) w₁)
      | false => exact step

/-! ## Unscrambling and caching -/

theorem addSeed_stream {entry added : TSeed} {seed : UInt16} (stored : addSeed entry seed = some added) :
    entry.streamcipher.SameFrom 2048 added.streamcipher := by
  unfold addSeed at stored
  split at stored
  · cases stored
  · cases stored
    exact .memcpy _ _ (Nat.le_of_eq (Nat.zero_add 2048))

theorem bruteforceSeed_stream {inbuf : Buffer} {entry added : TSeed} {count j : Nat}
    (found : bruteforceSeed inbuf entry count j = some added) :
    entry.streamcipher.SameFrom 2048 added.streamcipher := by
  induction count generalizing j with
  | zero => cases found
  | succ count ih =>
      rw [bruteforceSeed] at found
      split at found
      · split at found
        · rename_i stored
          cases found
          exact addSeed_stream stored
        · exact ih found
      · exact ih found

theorem unscramble_streams (disctype : UInt8) (u : Unscrambler) (sectorNo : UInt32)
    (inbuf outbuf : Buffer) (k : Nat) : (u.seeds k).streamcipher.SameFrom 2048
      ((unscramblerUnscramble16sectors disctype u sectorNo inbuf outbuf).u.seeds k).streamcipher := by
  unfold unscramblerUnscramble16sectors
  split
  · exact .refl _ _
  · rename_i i _
    split
    · split
      · rename_i found
        rw [unscrambleWith_u]
        by_cases here : k = i
        · rw [here, Unscrambler.setSeed_here]
          exact bruteforceSeed_stream found
        · rw [Unscrambler.setSeed_elsewhere _ _ here]
          exact .refl _ _
      · exact .refl _ _
    · exact .refl _ _

theorem unscramble_seeds {u : Unscrambler} (formed : SeedsWellFormed u) (disctype : UInt8)
    (sectorNo : UInt32) (inbuf outbuf : Buffer) {k : Nat} (behind : 64 ≤ k) :
    (unscramblerUnscramble16sectors disctype u sectorNo inbuf outbuf).u.seeds k = u.seeds k := by
  have called : Outcome disctype u (seedZone sectorNo) inbuf outbuf
      (unscramblerUnscramble16sectors disctype u sectorNo inbuf outbuf) := outcome formed
  generalize unscramblerUnscramble16sectors disctype u sectorNo inbuf outbuf = result at called
  cases called with
  | cached => rw [unscrambleWith_u]
  | added _ _ upper =>
      rw [unscrambleWith_u]
      exact Unscrambler.setSeed_elsewhere _ _ (Nat.ne_of_gt (Nat.lt_of_lt_of_le upper behind))
  | rejected => rfl

theorem unscrambleAt_confines (w : World σ) (sectorNo : UInt32) (cnt : Nat) (buf bufUnscrambled : Buffer) :
    Confines env w (w.unscrambleAt sectorNo cnt buf bufUnscrambled).world :=
  .of_quiet (.unscrambleAt w _ _ _ _) fun sized =>
    { Confined.refl w with
      seeds := fun _ behind => unscramble_seeds sized.formed _ _ _ _ behind
      streams := unscramble_streams _ _ _ _ _ }

/-- A block of an array ends where the next one begins. -/
theorem unscrambleAt_sameFrom {sectorNo : UInt32} {cnt : Nat} {buf bufUnscrambled : Buffer}
    (formed : SeedsWellFormed w.disc.u) :
    buf.SameFrom ((cnt + 1) * 33024) (w.unscrambleAt sectorNo cnt buf bufUnscrambled).buf ∧
      bufUnscrambled.SameFrom ((cnt + 1) * 32768)
        (w.unscrambleAt sectorNo cnt buf bufUnscrambled).bufUnscrambled :=
  ⟨fun _ behind => unscrambleAt_buf_outside formed (.inr behind),
    fun _ behind => unscrambleAt_bufUnscrambled_outside formed (.inr behind)⟩

theorem unscrambleBuf_confines (w : World σ) (sectorNo : UInt32) {cnt : Nat} (early : cnt < 100) :
    Confines env w (w.unscrambleBuf sectorNo cnt).1 := by
  refine .of_quiet (unscrambleBuf_quiet w sectorNo cnt) fun sized => ?_
  have called : Confined env w _ := (unscrambleAt_confines w sectorNo cnt w.buf w.bufUnscrambled sized).1
  have written := @unscrambleAt_sameFrom _ w sectorNo cnt w.buf w.bufUnscrambled sized.formed
  exact called.trans (.of_arrays .refl (written.1.mono (by omega)) (written.2.mono (by omega)) rfl)

theorem cacheBlock_confined (positive : 0 < w.disc.cacheSize) (block : UInt32) (data rawdata : Buffer) :
    Confined env w (w.cacheBlock block data rawdata).1 := by
  have inside : w.disc.cachePos block < w.disc.cacheSize.toNat := by
    rw [Disc.cachePos, UInt32.toNat_mod]
    exact Nat.mod_lt _ (UInt32.lt_iff_toNat_lt.mp positive)
  refine { Confined.refl w with cache := fun p => ?_, rawCache := fun p => ?_, cacheMap := fun p behind => ?_ }
  · by_cases here : p = w.disc.cachePos block
    · have stored : (w.cacheBlock block data rawdata).1.disc.cache p =
          (w.disc.cache p).memcpy 0 data 32768 := if_pos here
      rw [stored, here, if_pos inside]
      exact .memcpy _ _ (Nat.le_of_eq (Nat.zero_add _))
    · have kept : (w.cacheBlock block data rawdata).1.disc.cache p = w.disc.cache p := if_neg here
      rw [kept]
      exact .refl _ _
  · by_cases here : p = w.disc.cachePos block
    · have stored : (w.cacheBlock block data rawdata).1.disc.rawCache p =
          (w.disc.rawCache p).memcpy 0 _ 33024 := if_pos here
      rw [stored, here, if_pos inside]
      exact .memcpy _ _ (Nat.le_of_eq (Nat.zero_add _))
    · have kept : (w.cacheBlock block data rawdata).1.disc.rawCache p = w.disc.rawCache p := if_neg here
      rw [kept]
      exact .refl _ _
  · refine if_neg fun here => ?_
    rw [here] at behind
    exact absurd inside (Nat.not_lt.mpr behind)

theorem cacheBlock_confines (w : World σ) (block : UInt32) (data rawdata : Buffer) :
    Confines env w (w.cacheBlock block data rawdata).1 := fun sized =>
  ⟨cacheBlock_confined sized.positive block data rawdata,
    sized.extends (P := fun _ => True) (.cacheBlock w trivial)⟩

theorem cacheBuf_confines (w : World σ) (block : UInt32) {cnt : Nat} (early : cnt < 100) :
    Confines env w (w.cacheBuf block cnt) := by
  refine (cacheBlock_confines w block _ _).trans (.of_quiet (.withBuf _ _) fun _ => ?_)
  have written : w.buf.SameFrom ((cnt + 1) * 33024)
      (w.cacheBlockAt block cnt w.buf w.bufUnscrambled).2 :=
    fun _ behind => cacheBlockAt_beyond w block cnt _ _ behind
  exact .of_arrays .refl (written.mono (by omega)) (.refl _ _) rfl

theorem unscrambleBlocks_confines (sectorNo : UInt32) {n : Nat} (few : n ≤ 100) (w : World σ) (out : Bool) :
    Confines env w (unscrambleBlocks sectorNo n w out).1 := by
  induction n generalizing w out with
  | zero => exact .refl w
  | succ n ih =>
      rw [unscrambleBlocks_succ]
      exact (unscrambleBuf_confines w _ few).trans (ih (Nat.le_of_succ_le few) _ _)

theorem cacheBlocks_confines (startBlock : UInt32) {n : Nat} (few : n ≤ 100) (w : World σ) :
    Confines env w (cacheBlocks startBlock n w) := by
  induction n generalizing w with
  | zero => exact .refl w
  | succ n ih => exact (cacheBuf_confines w _ few).trans (ih (Nat.le_of_succ_le few) _)

/-! ## A read with methods 0 to 6 -/

theorem streamingRead_confines (method : Nat) (sectorNo : UInt32) (w : World σ) :
    Confines env w (streamingRead env method sectorNo w).1 := by
  intro sized
  have few : w.disc.maxBlk.toNat ≤ 100 := by
    have rounds := Nat.mul_le_mul sized.ranged.upper (Nat.add_le_add_right sized.ranged.rounds 1)
    have blocks := sized.ranged.blocks
    omega
  have early : (0 : UInt32).toNat + (w.disc.maxCnt.toNat + 1) ≤ 16 := by
    have rounds := sized.ranged.rounds
    simp only [UInt32.reduceToNat]
    omega
  have streamed : Confines env w (streamLoop env method sectorNo (w.disc.maxCnt.toNat + 1) 0 w).1 :=
    streamLoop_confines early w
  unfold streamingRead
  dsimp only
  generalize streamLoop env method sectorNo (w.disc.maxCnt.toNat + 1) 0 w = done at streamed
  obtain ⟨w₁, out, cnt⟩ := done
  split
  · exact streamed sized
  · have unscrambled := streamed.trans (unscrambleBlocks_confines sectorNo few w₁ out)
    split
    · exact unscrambled.trans (cacheBlocks_confines _ few _) sized
    · exact unscrambled sized

theorem simpleDump_confines (sectorNo : UInt32) (w : World σ) :
    Confines env w (simpleDump env sectorNo w).1 := by
  have displaced : Confines env w _ :=
    (readDistant_confines w sectorNo).trans (flushCache_confines _ sectorNo)
  unfold simpleDump
  extract_lets displacedWorld flushed executed read dumped dumpedWorld
  have here : Confines env w read :=
    displaced.trans (.withDrive (dvdReadSectorDummy_issued _ _ none nofun))
  have within : DumpedWithin env read.disc.dvd.memdump (33024 : UInt32).toNat read.drive read.buf dumped :=
    dvdMemdump_within _ _ (.inl ⟨16, rfl⟩) _
  clear_value dumped read
  have whole : Confines env w dumpedWorld := by
    refine here.trans (.of_quiet ((Quiet.withDrive _ _).trans (.withBuf _ _)) fun _ => ?_)
    exact .of_arrays within.commands (within.buf.mono (by decide)) (.refl _ _) rfl
  split
  · split
    · exact whole
    · split <;> exact whole
  · exact here

theorem simpleRead_confines (sectorNo : UInt32) (w : World σ) :
    Confines env w (simpleRead env sectorNo w).1 := by
  have dumped : Confines env w _ := simpleDump_confines sectorNo w
  unfold simpleRead
  rcases result : simpleDump env sectorNo w with ⟨w₁, out⟩
  rw [result] at dumped
  cases out with
  | false => exact dumped
  | true =>
      have unscrambled := dumped.trans (unscrambleBuf_confines w₁ sectorNo (by decide : 0 < 100))
      dsimp only
      rcases called : w₁.unscrambleBuf sectorNo 0 with ⟨w₂, success⟩
      rw [called] at unscrambled
      cases success with
      | false => exact unscrambled
      | true => exact unscrambled.trans (cacheBuf_confines w₂ _ (by decide))

/-- What each try keeps, all of them keep. -/
theorem retryLoop_frame {α : Type} {R : α → α → Prop} (refl : ∀ state, R state state)
    (trans : ∀ {state state' state''}, R state state' → R state' state'' → R state state'')
    {attempt : Nat → α → α × Bool × Bool} (tried : ∀ retry state, R state (attempt retry state).1)
    (state : α) : R state (retryLoop attempt 5 0 state).1 := by
  refine retryLoop_rule (R state) (fun state' _ => R state state') (fun _ => id) ?_ 5 0 rfl state
    (refl state)
  intro retry _ state' kept
  have here := trans kept (tried retry state')
  exact ⟨fun _ => here, fun _ => here⟩

theorem discReadSectorGeneric_confines (method : Nat) (sectorNo : UInt32) (w : World σ) :
    Confines env w (discReadSectorGeneric env method sectorNo w).1 := by
  refine retryLoop_frame .refl .trans (fun retry state => ?_) w
  dsimp only
  split
  · exact streamingRead_confines method sectorNo state
  · exact simpleRead_confines sectorNo state

end Reading

end Friidump
