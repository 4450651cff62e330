import Friidump.CacheAssertion
import Friidump.CountingDrive

/-!
# Which sector a read returns

A request is read from its own sector on, but filed under the block it lies in.
On a drive that carries an image, this decides what a call returns.
-/

set_option autoImplicit false

namespace Friidump

/-! ## Disc images -/

/-- Numbered sectors on layer 0, and the seed that scrambles each block of 16. -/
structure DiscImage where
  blocks : Nat
  plain : Nat → Buffer
  seed : Nat → BitVec 15
  searched : ∀ block < blocks, (seed block).toNat < 0x7FFF
  layer : ∀ i < 16 * blocks, plain i 0 &&& 1 = 0
  number : ∀ i < 16 * blocks, (sectorNumber (plain i)).toNat = 0x30000 + i

namespace DiscImage

variable (image : DiscImage)

def sector (i : Nat) : Buffer := plainSector (image.plain i)

def scrambled (i : Nat) : Buffer :=
  (image.sector i).xor (cipherPad (seedOf (image.seed (i / 16))))

/-- After a READ the memory holds the sectors from there on, as far as the image goes. -/
def Byte (lba : UInt32) (offset a : Nat) (byte : UInt8) : Prop :=
  offset % 2064 = 0 → lba.toNat + (offset + a) / 2064 < 16 * image.blocks →
    byte = image.scrambled (lba.toNat + (offset + a) / 2064) ((offset + a) % 2064)

/-- The next block is there, and has another seed. -/
def Parted (block : Nat) : Prop :=
  block + 1 < image.blocks ∧ image.seed block ≠ image.seed (block + 1)

/-- The sectors of a cached block are those its number says. -/
def Filed (offset : Nat) (entry : CachedBlock) : Prop :=
  entry.block.toNat < image.blocks → ∀ k < 16,
    (∀ i < 2064, entry.rawdata (2064 * k + i) = image.sector (16 * entry.block.toNat + k) i) ∧
      ∀ i < 2048, entry.data (2048 * k + i) = image.sector (16 * entry.block.toNat + k) (offset + i)

theorem bound {i : Nat} (inside : i < 16 * image.blocks) : 16 * image.blocks ≤ 2 ^ 24 := by
  have last := image.number (16 * image.blocks - 1) (by omega)
  have small := sectorNumber_lt (image.plain (16 * image.blocks - 1))
  omega

end DiscImage

section Blocks

variable {image : DiscImage} {disctype : UInt8} {inbuf raw data : Buffer} {j : Nat}

theorem Handed.sector (handed : Handed disctype inbuf raw data j) {x k : Nat} (inside : k < 16)
    (same : ∀ i < 2064, inbuf (2064 * k + i) = image.scrambled x i) :
    BitVec.ofNat 15 j = image.seed (x / 16) ∧
      ∀ i < 2064, decodedSector inbuf j.toUInt16 k i = image.sector x i := by
  have wide : j < 0x8000 := Nat.lt_succ_of_lt handed.accepted.1
  have block : ∀ i < 2064, decodedSector inbuf j.toUInt16 k i =
      decodedSector (scrambledBlock (fun _ => image.plain x) (image.seed (x / 16))) j.toUInt16 k i := by
    intro i below
    have place : (2064 * k + i) % 2064 = i := by omega
    rw [decodedSector, decodedSector, Buffer.xor, Buffer.xor, Buffer.advance_apply,
      Buffer.advance_apply, same i below, scrambledBlock, place]
    rfl
  have seed := handed.passes k inside
  rw [sectorSyndrome_congr block, toUInt16_eq_seedOf wide, decodedSector_passes_iff] at seed
  refine ⟨seed, fun i below => ?_⟩
  rw [block i below, toUInt16_eq_seedOf wide, seed]
  exact decodedSector_whole _ _ k below

theorem Handed.filed (handed : Handed disctype inbuf raw data j) {block : UInt32}
    (same : block.toNat < image.blocks → ∀ k < 16, ∀ i < 2064,
      inbuf (2064 * k + i) = image.scrambled (16 * block.toNat + k) i) :
    image.Filed (dataOffset disctype) ⟨block, data, copyUserData raw data (dataOffset disctype)⟩ := by
  intro within k inside
  obtain ⟨_, decoded⟩ := handed.sector inside (same within k inside)
  have offset := dataOffset_le disctype
  constructor
  · intro i below
    exact (handed.apart.whole (by omega) inside below).trans (decoded i below)
  · intro i below
    exact (handed.apart.inside k inside i below).trans (decoded _ (by omega))

/-- Sectors of two blocks with different seeds are never handed over together. -/
theorem Handed.not_parted (handed : Handed disctype inbuf raw data j) {n : Nat}
    (straddling : n % 16 ≠ 0) (same : ∀ k < 16, ∀ i < 2064,
      inbuf (2064 * k + i) = image.scrambled (n + k) i) : ¬ image.Parted (n / 16) := by
  rintro ⟨_, other⟩
  have first := (handed.sector (by decide : 0 < 16) (same 0 (by decide))).1
  have next := (handed.sector (by omega : 16 - n % 16 < 16) (same _ (by omega))).1
  have block : (n + (16 - n % 16)) / 16 = n / 16 + 1 := by omega
  rw [block] at next
  exact other (first.symm.trans next)

end Blocks

/-! ## Reads from a drive with an image -/

section Reading

variable {σ : Type} {env : Env σ} {lba : σ → UInt32} {image : DiscImage} {w w' : World σ}
  {method : Nat} {sectorNo : UInt32}

/-- The drive goes where it is sent, and dumps the image from there on. -/
structure Carries (env : Env σ) (lba : σ → UInt32) (memdump : MemdumpFunc) (image : DiscImage) :
    Prop where
  seeks : Seeks env lba id
  promises : Promises env memdump lba (Bytewise image.Byte)

theorem streamLoop_image (carries : Carries env lba w.disc.dvd.memdump image)
    (ranged : Ranged w.disc) {cnt : UInt32}
    (loop : streamLoop env method sectorNo (w.disc.maxCnt.toNat + 1) 0 w = (w', true, cnt))
    {q a : Nat} (inside : q < w.disc.secMem.toNat * (w.disc.maxCnt.toNat + 1)) (below : a < 2064)
    (within : sectorNo.toNat + q < 16 * image.blocks) :
    w'.buf (2064 * q + a) = image.scrambled (sectorNo.toNat + q) a := by
  have byte := streamLoop_byte ranged carries.promises carries.seeks loop inside below
  have bound := image.bound within
  have split := Nat.div_add_mod q w.disc.secMem.toNat
  have whole : q / w.disc.secMem.toNat * w.disc.secMem.toNat ≤ q := Nat.div_mul_le_self _ _
  have address : (sectorNo + (q / w.disc.secMem.toNat).toUInt32 * w.disc.secMem).toNat =
      sectorNo.toNat + q / w.disc.secMem.toNat * w.disc.secMem.toNat := by
    have quotient := Nat.div_le_self q w.disc.secMem.toNat
    have value : (q / w.disc.secMem.toNat).toUInt32.toNat = q / w.disc.secMem.toNat :=
      Nat.mod_eq_of_lt (by omega)
    rw [UInt32.toNat_add, UInt32.toNat_mul, value]
    omega
  have chunk : (q % w.disc.secMem.toNat / 27 * 55728 +
      (2064 * (q % w.disc.secMem.toNat % 27) + a)) / 2064 = q % w.disc.secMem.toNat := by omega
  have place : (q % w.disc.secMem.toNat / 27 * 55728 +
      (2064 * (q % w.disc.secMem.toNat % 27) + a)) % 2064 = a := by omega
  have sum : sectorNo.toNat + q / w.disc.secMem.toNat * w.disc.secMem.toNat +
      q % w.disc.secMem.toNat = sectorNo.toNat + q := by
    rw [Nat.mul_comm] at split
    omega
  have start : q % w.disc.secMem.toNat / 27 * 55728 % 2064 = 0 :=
    Nat.mod_eq_zero_of_dvd (Nat.dvd_mul_left_of_dvd (by decide) _)
  rw [DiscImage.Byte, id, address, chunk, place, sum] at byte
  exact byte start within

theorem simpleDump_image (carries : Carries env lba w.disc.dvd.memdump image)
    (dump : simpleDump env sectorNo w = (w', true)) {q a : Nat} (inside : q < 16) (below : a < 2064)
    (within : sectorNo.toNat + q < 16 * image.blocks) :
    w'.buf (2064 * q + a) = image.scrambled (sectorNo.toNat + q) a := by
  obtain ⟨_, shown⟩ := simpleDump_dumped carries.promises carries.seeks dump
  have byte := shown (2064 * q + a) (by omega)
  have sector : (0 + (2064 * q + a)) / 2064 = q := by omega
  have place : (0 + (2064 * q + a)) % 2064 = a := by omega
  rw [DiscImage.Byte, id, sector, place] at byte
  exact byte rfl within

/-- What the passes of a read rely on. -/
structure Opened (env : Env σ) (lba : σ → UInt32) (image : DiscImage) (disctype : UInt8)
    (w : World σ) : Prop where
  formed : SeedsWellFormed w.disc.u
  agree : Agree w
  ranged : Ranged w.disc
  carries : Carries env lba w.disc.dvd.memdump image
  mode : w.disctype = disctype

theorem Extends.opened {P : CachedBlock → Prop} {disctype : UInt8} (kept : Extends P w w')
    (opened : Opened env lba image disctype w) : Opened env lba image disctype w' where
  formed := kept.formed opened.formed
  agree := kept.agree opened.agree
  ranged := kept.ranged opened.ranged
  carries := by
    rw [kept.disc]
    exact opened.carries
  mode := kept.disctype.trans opened.mode

/-- The request starts a block, or it reaches into a block with another seed. -/
def DiscImage.Readable (image : DiscImage) (sectorNo : UInt32) : Prop :=
  sectorNo % 16 = 0 ∨ image.Parted (sectorNo / 16).toNat

/-- Blocks read from the sector asked for on are filed right, if anything is. -/
private theorem filed_of_readable {disctype : UInt8} {buf : Buffer} {blocks : Nat} (positive : 0 < blocks)
    (readable : image.Readable sectorNo) (inside : sectorNo.toNat < 16 * image.blocks)
    (few : blocks ≤ 100)
    (shown : ∀ q < 16 * blocks, ∀ a < 2064, sectorNo.toNat + q < 16 * image.blocks →
      buf (2064 * q + a) = image.scrambled (sectorNo.toNat + q) a)
    (all : ∀ c < blocks, ∃ raw data j, Handed disctype (buf.advance (c * 33024)) raw data j) {c : Nat}
    (below : c < blocks) {raw data : Buffer} {j : Nat}
    (handed : Handed disctype (buf.advance (c * 33024)) raw data j) :
    image.Filed (dataOffset disctype)
      ⟨sectorNo / 16 + c.toUInt32, data, copyUserData raw data (dataOffset disctype)⟩ := by
  have bound := image.bound inside
  have value : c.toUInt32.toNat = c := Nat.mod_eq_of_lt (by omega)
  have block : (sectorNo / 16 + c.toUInt32).toNat = sectorNo.toNat / 16 + c := by
    rw [UInt32.toNat_add, UInt32.toNat_div, value]
    simp only [UInt32.reduceToNat]
    omega
  have remainder : (sectorNo % 16).toNat = sectorNo.toNat % 16 := UInt32.toNat_mod ..
  by_cases aligned : sectorNo % 16 = 0
  · refine handed.filed fun within k insideBlock a insideSector => ?_
    rw [aligned] at remainder
    simp only [UInt32.reduceToNat] at remainder
    have position : c * 33024 + (2064 * k + a) = 2064 * (16 * c + k) + a := by omega
    have number : 16 * (sectorNo / 16 + c.toUInt32).toNat + k = sectorNo.toNat + (16 * c + k) := by
      omega
    rw [Buffer.advance_apply, position, number]
    exact shown _ (by omega) a insideSector (by omega)
  · obtain ⟨raw, data, j, first⟩ := all 0 positive
    have parted := readable.resolve_left aligned
    have straddling : sectorNo.toNat % 16 ≠ 0 := by
      rw [← remainder]
      exact fun zero => aligned (UInt32.toNat_inj.mp zero)
    have quotient : (sectorNo / 16).toNat = sectorNo.toNat / 16 := UInt32.toNat_div ..
    rw [quotient] at parted
    refine absurd parted (first.not_parted straddling fun k insideBlock a insideSector => ?_)
    have next := parted.1
    rw [Nat.zero_mul, Buffer.advance_zero]
    exact shown k (by omega) a insideSector (by omega)

theorem Ranged.maxBlk_le {d : Disc} (ranged : Ranged d) : d.maxBlk.toNat ≤ 100 := by
  have blocks := ranged.blocks
  have sectors : d.secMem.toNat * (d.maxCnt.toNat + 1) ≤ 100 * 16 :=
    Nat.mul_le_mul ranged.upper (Nat.succ_le_succ ranged.rounds)
  omega

theorem streamingRead_image {disctype : UInt8} (opened : Opened env lba image disctype w)
    (readable : image.Readable sectorNo) (inside : sectorNo.toNat < 16 * image.blocks) :
    Extends (image.Filed (dataOffset disctype)) w (streamingRead env method sectorNo w).1 := by
  obtain ⟨formed, agree, ranged, carries, rfl⟩ := opened
  refine streamingRead_extends env formed fun w' cnt loop all c below raw data j handed => ?_
  rw [agree.offset]
  refine filed_of_readable ranged.positive readable inside ranged.maxBlk_le
    (fun q near a insideSector within => ?_) all below handed
  have blocks := ranged.blocks
  exact streamLoop_image carries ranged loop (by omega) insideSector within

theorem simpleRead_image {disctype : UInt8} (opened : Opened env lba image disctype w)
    (readable : image.Readable sectorNo) (inside : sectorNo.toNat < 16 * image.blocks) :
    Extends (image.Filed (dataOffset disctype)) w (simpleRead env sectorNo w).1 := by
  obtain ⟨formed, agree, ranged, carries, rfl⟩ := opened
  refine simpleRead_extends env formed fun w' dump raw data j handed => ?_
  have first : Handed w.disctype (w'.buf.advance (0 * 33024)) raw data j := by
    rw [Nat.zero_mul, Buffer.advance_zero]
    exact handed
  have start : sectorNo / 16 + Nat.toUInt32 0 = sectorNo / 16 := UInt32.add_zero _
  rw [agree.offset, ← start]
  refine filed_of_readable Nat.one_pos readable inside (by decide)
    (fun q near a insideSector within => ?_) (fun c below => ?_) Nat.one_pos first
  · exact simpleDump_image carries dump (by omega) insideSector within
  · rw [Nat.lt_one_iff.mp below]
    exact ⟨raw, data, j, first⟩

theorem discReadSectorGeneric_image {disctype : UInt8} (opened : Opened env lba image disctype w)
    (readable : image.Readable sectorNo) (inside : sectorNo.toNat < 16 * image.blocks) :
    Extends (image.Filed (dataOffset disctype)) w (discReadSectorGeneric env method sectorNo w).1 := by
  refine (discReadSectorGeneric_extends env (Opened env lba image disctype) opened
    (fun w opened => ?_) fun w opened => ?_).1
  · have kept : Extends (image.Filed (dataOffset disctype)) w
        (streamingRead env method sectorNo w).1 := streamingRead_image opened readable inside
    exact ⟨kept, kept.opened opened⟩
  · have kept := simpleRead_image opened readable inside
    exact ⟨kept, kept.opened opened⟩

/-! ## Whole runs -/

/-- The cache holds blocks of the image in their places, and nothing else. -/
structure Addressed (env : Env σ) (lba : σ → UInt32) (image : DiscImage) (w : World σ) : Prop where
  opened : Opened env lba image w.disctype w
  known : 0 ≤ w.disc.readMethod ∧ w.disc.readMethod ≤ 6
  positive : 0 < w.disc.cacheSize
  backed : Backed w
  filed : ∀ entry ∈ w.added, image.Filed (dataOffset w.disctype) entry

theorem Extends.addressed (kept : Extends (image.Filed (dataOffset w.disctype)) w w')
    (addressed : Addressed env lba image w) : Addressed env lba image w' where
  opened := by
    rw [kept.disctype]
    exact kept.opened addressed.opened
  known := by
    rw [kept.disc]
    exact addressed.known
  positive := by
    rw [kept.disc]
    exact addressed.positive
  backed := kept.backed addressed.backed
  filed entry member := by
    obtain ⟨blocks, extended, filed⟩ := kept.added
    rw [extended] at member
    rw [kept.disctype]
    exact (List.mem_append.mp member).elim (filed entry) (addressed.filed entry)

/-- The bytes of the sector asked for, in both forms. -/
structure DiscImage.Returns (image : DiscImage) (offset : Nat) (request : Request)
    (read : SectorRead) : Prop where
  rawdata : request.wantRawdata = true → ∃ rawdata, read.rawdata = some rawdata ∧
    ∀ i < 2064, rawdata i = image.sector request.sectorNo.toNat i
  data : request.wantData = true → ∃ data, read.data = some data ∧
    ∀ i < 2048, data i = image.sector request.sectorNo.toNat (offset + i)

theorem lookup_returns (addressed : Addressed env lba image w) {request : Request}
    (inside : request.sectorNo.toNat < 16 * image.blocks) {data rawdata : Buffer}
    (found : discCacheLookupBlock w.disc (request.sectorNo / 16) = some (data, rawdata)) :
    image.Returns (dataOffset w.disctype) request (sectorOf request data rawdata) := by
  obtain ⟨entry, member, same, sameData, sameRaw⟩ := addressed.backed.lookup addressed.positive found
  have block : entry.block.toNat = request.sectorNo.toNat / 16 := by
    rw [same]
    exact UInt32.toNat_div ..
  have place : (request.sectorNo % 16).toNat = request.sectorNo.toNat % 16 := UInt32.toNat_mod ..
  have near : request.sectorNo.toNat % 16 < 16 := Nat.mod_lt _ (by decide)
  have number : 16 * entry.block.toNat + request.sectorNo.toNat % 16 = request.sectorNo.toNat := by
    rw [block]
    exact Nat.div_add_mod _ 16
  obtain ⟨raw, user⟩ := addressed.filed entry member (by omega) _ near
  rw [number] at raw user
  constructor
  · intro wanted
    refine ⟨_, by rw [sectorOf, if_pos wanted], fun i below => ?_⟩
    rw [Buffer.advance_apply, place, Nat.mul_comm, sameRaw _ (by omega)]
    exact raw i below
  · intro wanted
    refine ⟨_, by rw [sectorOf, if_pos wanted], fun i below => ?_⟩
    rw [Buffer.advance_apply, place, Nat.mul_comm, sameData _ (by omega)]
    exact user i below

/-- A request that starts a block, finds its block in the cache, or reaches into a block
with another seed. -/
def DiscImage.Answers (image : DiscImage) (w : World σ) (sectorNo : UInt32) : Prop :=
  Present w (sectorNo / 16) ∨ image.Readable sectorNo

theorem discReadSector_addressed (addressed : Addressed env lba image w) {request : Request}
    (inside : request.sectorNo.toNat < 16 * image.blocks)
    (answers : image.Answers w request.sectorNo) {read : SectorRead}
    (returned : discReadSector env request w = .ok (w', read)) :
    Addressed env lba image w' ∧
      (read.out = true → image.Returns (dataOffset w.disctype) request read) := by
  have ended := discReadSector_returned env w request
  have readable : discCacheLookupBlock w.disc (request.sectorNo / 16) = none →
      Extends (image.Filed (dataOffset w.disctype)) w (readSector env request.sectorNo w).1 := by
    intro missing
    rw [readSector_generic addressed.known]
    have absent : ¬ Present w (request.sectorNo / 16) := fun present =>
      (present_iff w _).mp present missing
    exact discReadSectorGeneric_image addressed.opened (answers.resolve_left absent) inside
  rw [returned] at ended
  cases ended with
  | cached found => exact ⟨addressed, fun _ => lookup_returns addressed inside found⟩
  | read missing success found =>
      have kept := readable missing
      rw [success] at kept
      refine ⟨kept.addressed addressed, fun _ => ?_⟩
      rw [← kept.disctype]
      exact lookup_returns (kept.addressed addressed) inside found
  | failed missing failure =>
      have kept := readable missing
      rw [failure] at kept
      exact ⟨kept.addressed addressed, nofun⟩

/-- The calls of a caller who keeps to such requests. -/
inductive ReadStep (env : Env σ) (image : DiscImage) : World σ → World σ → Prop
  | read {w w' : World σ} {request : Request} {read : SectorRead}
      (inside : request.sectorNo.toNat < 16 * image.blocks)
      (answers : image.Answers w request.sectorNo)
      (returned : discReadSector env request w = .ok (w', read)) : ReadStep env image w w'

theorem EmptyCache.addressed (start : EmptyCache w) (known : 0 ≤ w.disc.readMethod ∧ w.disc.readMethod ≤ 6)
    (ranged : Ranged w.disc) (carries : Carries env lba w.disc.dvd.memdump image) :
    Addressed env lba image w where
  opened := ⟨start.reachable.formed, start.agree, ranged, carries, rfl⟩
  known := known
  positive := start.positive
  backed := start.sound.backed
  filed entry member := by
    rw [start.recorded] at member
    cases member

/-- After any such calls on a disc just set up, a call that succeeds returns the sector
it was asked for. -/
theorem sector_returned {d : Disc} {secDisc secMem : UInt32} {method : Int} (start : EmptyCache w)
    (known : 0 ≤ method ∧ method ≤ 6)
    (opened : w.disc = discSetReadMethod (initRange d secDisc secMem) method)
    (carries : Carries env lba w.disc.dvd.memdump image)
    (run : Relation.ReflTransGen (ReadStep env image) w w') :
    ∀ request w'' read, request.sectorNo.toNat < 16 * image.blocks →
      image.Answers w' request.sectorNo → discReadSector env request w' = .ok (w'', read) →
      read.out = true → image.Returns (dataOffset w'.disctype) request read := by
  have addressed : Addressed env lba image w' := by
    induction run with
    | refl =>
        have within : 0 ≤ method ∧ method ≤ 9 := by omega
        have chosen : w.disc.readMethod = method := by
          rw [opened]
          exact if_pos within
        refine start.addressed (chosen ▸ known) ?_ carries
        rw [opened]
        exact discSetReadMethod_ranged d secDisc secMem _
    | tail _ step ih =>
        cases step with
        | read inside answers returned => exact (discReadSector_addressed ih inside answers returned).1
  exact fun request w'' read inside answers returned =>
    (discReadSector_addressed addressed inside answers returned).2

end Reading

/-! ## Two blocks on the counting drive -/

/-- Two blocks with nothing but sector numbers, and seed 0. -/
def countedImage : DiscImage where
  blocks := 2
  plain i := numberedHeader (0x30000 + i.toUInt32)
  seed _ := 0#15
  searched _ _ := by decide
  layer _ _ := UInt8.zero_and
  number i inside := by
    have value : (0x30000 + i.toUInt32).toNat = 0x30000 + i := by
      have small : i.toUInt32.toNat = i := Nat.mod_eq_of_lt (by omega)
      rw [UInt32.toNat_add, small]
      simp only [UInt32.reduceToNat]
      omega
    rw [sectorNumber_numberedHeader (by omega), value]

theorem countedImage_scrambled (i : Nat) :
    countedImage.scrambled i = numberedSector (0x30000 + i.toUInt32) := by
  have seedless : seedOf 0#15 = 0 := rfl
  funext a
  have silent : cipherPad (seedOf (countedImage.seed (i / 16))) a = 0 := by
    rw [countedImage, seedless]
    exact cipherPad_zero a
  rw [DiscImage.scrambled, Buffer.xor, silent]
  exact UInt8.xor_zero

theorem countingEnv_carries : Carries (countingEnv 0) id .vanilla2064 countedImage where
  seeks := countingEnv_seeks 0
  promises := by
    intro drive offset size buf succeeded
    obtain ⟨kept, counted⟩ := countingEnv_promises 0 drive offset size buf succeeded
    refine ⟨kept, fun a below whole within => ?_⟩
    have few : drive.toNat + (offset.toNat + a) / 2064 < 32 := within
    have fits : offset.toNat < 2 ^ 24 := by omega
    have quotient : (offset.toNat + a) / 2064 = offset.toNat / 2064 + a / 2064 := by omega
    have place : (offset.toNat + a) % 2064 = a % 2064 := by omega
    have unshifted : (if offset.toNat / 2064 = 0 then 0 else 0 : UInt32) = 0 := ite_self _
    have number : countedNumber 0 drive (offset.toNat / 2064) + (a / 2064).toUInt32 =
        0x30000 + (drive.toNat + (offset.toNat + a) / 2064).toUInt32 := by
      have sum : (drive.toNat + (offset.toNat / 2064 + a / 2064)).toUInt32 =
          drive + ((offset.toNat / 2064).toUInt32 + (a / 2064).toUInt32) := by
        rw [Nat.toUInt32_eq, UInt32.ofNat_add, UInt32.ofNat_add, UInt32.ofNat_toNat]
      rw [countedNumber, unshifted, quotient, sum]
      grind
    rw [countedImage_scrambled, place, id, ← number]
    exact counted a below fits

/-- Once sector 0 has been read, sector 5 is returned from the cache as the image has it. -/
theorem sector_returned_fifth :
    ∃ d, discNew ⟨.vanilla2064, 2, 0, true⟩ (fun _ _ => 0) (fun _ _ => 0)
        ⟨fun _ => ⟨0, fun _ => 0⟩, false⟩ = some d ∧
      ∃ w first, discReadSector (countingEnv 0) ⟨0, true, true⟩
          (World.created 0 (discSetReadMethod (initRange d notGiven notGiven) 0) 0) = .ok (w, first) ∧
        ∃ read, discReadSector (countingEnv 0) ⟨5, true, true⟩ w = .ok (w, read) ∧ read.out = true ∧
          countedImage.Returns 6 ⟨5, true, true⟩ read := by
  obtain ⟨d, created⟩ : ∃ d, discNew ⟨.vanilla2064, 2, 0, true⟩ (fun _ _ => 0) (fun _ _ => 0)
      ⟨fun _ => ⟨0, fun _ => 0⟩, false⟩ = some d := ⟨_, rfl⟩
  obtain ⟨start, vanilla, -, enabled⟩ := counting_setUp created
  obtain ⟨w, data, rawdata, returned, found, kept⟩ :=
    countingEnv_firstRead created (by decide : (0 : UInt32).toNat ≤ 32768)
  have carries := countingEnv_carries
  rw [← vanilla] at carries
  have on : w.disc.unscrambling = true := by
    rw [kept.disc]
    exact enabled
  have offset : dataOffset w.disctype = 6 := by
    rw [kept.disctype]
    rfl
  have again : discReadSector (countingEnv 0) ⟨5, true, true⟩ w =
      .ok (w, sectorOf ⟨5, true, true⟩ data rawdata) :=
    discReadSector_hit _ (by rw [on]; rfl) found
  have present : Present w (5 / 16) := (present_iff w _).mpr (found ▸ nofun)
  refine ⟨d, created, w, _, returned, _, again, rfl, ?_⟩
  rw [← offset]
  exact sector_returned start ⟨by decide, by decide⟩ rfl carries
    (.single (.read (by decide) (.inr (.inl rfl)) returned)) ⟨5, true, true⟩ w _ (by decide)
    (.inl present) again rfl

/-- Sector 1, asked for first, comes back as sector 2. -/
theorem sector_returned_late :
    Carries (countingEnv 0) id .vanilla2064 countedImage ∧
      ∃ d, discNew ⟨.vanilla2064, 2, 0, true⟩ (fun _ _ => 0) (fun _ _ => 0)
          ⟨fun _ => ⟨0, fun _ => 0⟩, false⟩ = some d ∧
        ∃ w' read, discReadSector (countingEnv 0) ⟨1, true, true⟩
            (World.created 0 (discSetReadMethod (initRange d notGiven notGiven) 0) 0) =
              .ok (w', read) ∧
          read.out = true ∧ ¬ countedImage.Returns 6 ⟨1, true, true⟩ read := by
  obtain ⟨d, created⟩ : ∃ d, discNew ⟨.vanilla2064, 2, 0, true⟩ (fun _ _ => 0) (fun _ _ => 0)
      ⟨fun _ => ⟨0, fun _ => 0⟩, false⟩ = some d := ⟨_, rfl⟩
  obtain ⟨start, _⟩ := counting_setUp created
  obtain ⟨w', data, rawdata, returned, found, kept⟩ :=
    countingEnv_firstRead created (by decide : (1 : UInt32).toNat ≤ 32768)
  refine ⟨countingEnv_carries, d, created, w', _, returned, rfl, fun returns => ?_⟩
  have positive : 0 < w'.disc.cacheSize := by
    rw [kept.disc]
    exact start.positive
  obtain ⟨entry, member, block, _, sameRaw⟩ := (kept.backed start.sound.backed).lookup positive found
  obtain ⟨blocks, extended, shown⟩ := kept.added
  rw [extended, start.recorded, List.append_nil] at member
  obtain ⟨c, few, same, numbers⟩ := shown entry member
  have first : c = 0 := by
    have small : c.toUInt32.toNat = c := Nat.mod_eq_of_lt (by omega)
    rw [block] at same
    exact small.symm.trans (congrArg UInt32.toNat (UInt32.left_eq_add.mp same))
  obtain ⟨raw, pointer, bytes⟩ := returns.rawdata rfl
  cases pointer
  have late : sectorNumber (rawdata.advance 2064) = 0x30002 := by
    have number := numbers 1 (by decide)
    rw [first] at number
    refine (sectorNumber_congr fun i below => ?_).trans number
    exact sameRaw _ (by omega)
  have asked : sectorNumber (rawdata.advance 2064) = 0x30001 := by
    refine (sectorNumber_congr fun i below => bytes i (by omega)).trans ?_
    exact sectorNumber_numberedSector (by decide)
  exact absurd (late.symm.trans asked) (by decide)

end Friidump
