import Friidump.MemoryDump
import Friidump.Unscrambler

/-!
# Disc

The block cache, the ten read methods, and the set-up of a disc, as `disc.c`
has them without its debugging switches.
-/

set_option autoImplicit false

namespace Friidump

inductive DiscType
  | gamecube
  | wii
  | wiiDl
  | dvd
deriving DecidableEq, Repr

structure Disc where
  dvd : DvdDrive
  type : DiscType
  sectorsNo : UInt32
  layerbreak : UInt32
  secDisc : UInt32
  secMem : UInt32
  maxCnt : UInt32
  maxBlk : UInt32
  readMethod : Int
  unscrambling : Bool
  u : Unscrambler
  cacheSize : UInt32
  rawCache : Nat → Buffer
  cache : Nat → Buffer
  cacheMap : Nat → UInt32

structure CachedBlock where
  block : UInt32
  data : Buffer
  rawdata : Buffer

/-- The disc with the drive, the global buffers and the global disc type of the
unscrambler. `added` records the cached blocks, the last one first; no code reads it. -/
structure World (σ : Type) where
  drive : σ
  disc : Disc
  buf : Buffer
  bufUnscrambled : Buffer
  disctype : UInt8
  added : List CachedBlock

/-! ## Cache -/

/-- `CACHE_ENTRY_INVALID`. -/
def cacheEntryInvalid : UInt32 := 0xFFFFFFFF

def Disc.cachePos (d : Disc) (block : UInt32) : Nat := (block % d.cacheSize).toNat

/-- The 16 copies of user data over the raw block, from the given byte of each sector on. -/
def copyUserData (rawdata data : Buffer) (offset : Nat) : Buffer :=
  (List.range 16).foldl (fun rawdata cnt =>
    rawdata.memcpy (cnt * 2064 + offset) (data.advance (cnt * 2048)) 2048) rawdata

/-- Where the copies of user data go in a raw sector. -/
def Disc.copyOffset (d : Disc) : Nat := if d.type = .dvd then 12 else 6

/-- The disc with the block in its cache, and what became of `rawdata`. -/
def discCacheAddBlock (d : Disc) (block : UInt32) (data rawdata : Buffer) : Disc × Buffer :=
  let pos := d.cachePos block
  let rawdata := copyUserData rawdata data d.copyOffset
  ({ d with
      cache := fun p => if p = pos then (d.cache p).memcpy 0 data 32768 else d.cache p
      rawCache := fun p => if p = pos then (d.rawCache p).memcpy 0 rawdata 33024 else d.rawCache p
      cacheMap := fun p => if p = pos then block else d.cacheMap p },
    rawdata)

def discCacheLookupBlock (d : Disc) (block : UInt32) : Option (Buffer × Buffer) :=
  let pos := d.cachePos block
  if d.cacheMap pos = block then some (d.cache pos, d.rawCache pos) else none

section Reading

variable {σ : Type}

namespace World

def withDrive (w : World σ) (drive : σ) : World σ := { w with drive := drive }

def withBuf (w : World σ) (buf : Buffer) : World σ := { w with buf := buf }

def withBufUnscrambled (w : World σ) (buf : Buffer) : World σ := { w with bufUnscrambled := buf }

/-- `disc_cache_add_block`, and what became of `rawdata`. -/
def cacheBlock (w : World σ) (block : UInt32) (data rawdata : Buffer) : World σ × Buffer :=
  let (disc, rawdata) := discCacheAddBlock w.disc block data rawdata
  ({ w with disc := disc, added := ⟨block, data, rawdata⟩ :: w.added }, rawdata)

/-- The same for block `cnt` of two arrays, with what became of the raw one. -/
def cacheBlockAt (w : World σ) (block : UInt32) (cnt : Nat) (buf bufUnscrambled : Buffer) :
    World σ × Buffer :=
  let (w, rawdata) := w.cacheBlock block (bufUnscrambled.advance (cnt * 32768))
    (buf.advance (cnt * 33024))
  (w, buf.splice (cnt * 33024) rawdata)

end World

structure BlockUnscrambled (σ : Type) where
  world : World σ
  out : Bool
  buf : Buffer
  bufUnscrambled : Buffer

/-- A call of the unscrambler for block `cnt` of two arrays. -/
def World.unscrambleAt (w : World σ) (sectorNo : UInt32) (cnt : Nat)
    (buf bufUnscrambled : Buffer) : BlockUnscrambled σ :=
  let result := unscramblerUnscramble16sectors w.disctype w.disc.u sectorNo
    (buf.advance (cnt * 33024)) (bufUnscrambled.advance (cnt * 32768))
  { world := { w with disc := { w.disc with u := result.u } }
    out := result.out
    buf := buf.splice (cnt * 33024) result.inbuf
    bufUnscrambled := bufUnscrambled.splice (cnt * 32768) result.outbuf }

namespace World

/-- The same on block `cnt` of the global buffers. -/
def unscrambleBuf (w : World σ) (sectorNo : UInt32) (cnt : Nat) : World σ × Bool :=
  let block := w.unscrambleAt sectorNo cnt w.buf w.bufUnscrambled
  ((block.world.withBuf block.buf).withBufUnscrambled block.bufUnscrambled, block.out)

def cacheBuf (w : World σ) (block : UInt32) (cnt : Nat) : World σ :=
  let (w, buf) := w.cacheBlockAt block cnt w.buf w.bufUnscrambled
  w.withBuf buf

end World

variable (env : Env σ)

/-- The read of a distant sector that displaces the drive's cache. -/
def readDistant (w : World σ) (sectorNo : UInt32) : World σ :=
  if sectorNo + 992 + 16 ≤ w.disc.sectorsNo then
    w.withDrive (dvdReadSectorDummy env w.drive (sectorNo + 992) 16 none).drive
  else if 0 ≤ sectorNo - 992 then
    w.withDrive (dvdReadSectorDummy env w.drive (sectorNo - 992) 16 none).drive
  else w.withDrive (dvdFlushCacheRead12 env w.drive sectorNo).drive

def flushCache (w : World σ) (sectorNo : UInt32) : World σ :=
  w.withDrive (dvdFlushCacheRead12 env w.drive sectorNo).drive

/-- `(buf & 1) == 0` and the sector number is not the expected one. -/
def misplaced (header : Buffer) (sectorNo : UInt32) : Bool :=
  header 0 &&& 1 = 0 && sectorNumber header ≠ 0x30000 + sectorNo

/-- The loop `for (retry = 0; !out && retry < MAX_READ_RETRIES; retry++)`, with the
tries left. A try also says whether it set `retry` to its maximum. -/
def retryLoop {α : Type} (attempt : Nat → α → α × Bool × Bool) : Nat → Nat → α → α × Bool
  | 0, _, state => (state, false)
  | left + 1, retry, state =>
      match attempt retry state with
      | (state, true, _) => (state, true)
      | (state, false, true) => (state, false)
      | (state, false, false) => retryLoop attempt left (retry + 1) state

/-! ## Methods 0 to 6 -/

/-- How a step of `sec_mem` sectors is cut for the memory dump. -/
structure Chunks where
  blockLen : UInt32
  blockSize : UInt32
  lastBlockSize : UInt32

def chunksOf (step : UInt32) : Chunks :=
  let blockSize := step * 2064
  if 27 * 2064 < blockSize then
    let blockLen := blockSize / (27 * 2064)
    let blockLen := if blockSize % (27 * 2064) ≠ 0 then blockLen + 1 else blockLen
    { blockLen := blockLen
      blockSize := 27 * 2064
      lastBlockSize := step * 2064 - 27 * 2064 * (blockLen - 1) }
  else { blockLen := 1, blockSize := blockSize, lastBlockSize := blockSize }

/-- The loop over `block_cnt`, with the chunks left. `size` is `_block_size`. -/
def dumpChunks (chunks : Chunks) (position : UInt32) :
    Nat → UInt32 → UInt32 → World σ → World σ × Bool
  | 0, _, _, w => (w, true)
  | left + 1, blockCnt, size, w =>
      let target := (position + blockCnt * 27 * 2064).toNat
      let dumped := dvdMemdump env w.disc.dvd.memdump w.drive (blockCnt * 27 * 2064) 1 size
        (w.buf.advance target)
      let w := (w.withDrive dumped.drive).withBuf (w.buf.splice target dumped.buf)
      if dumped.out < 0 then (w, false)
      else dumpChunks chunks position left (blockCnt + 1)
        (if blockCnt = chunks.blockLen - 1 then chunks.lastBlockSize else size) w

/-- The READ of a step, with the commands that go before it. -/
def readStep (method : Nat) (w : World σ) (sectorNo : UInt32) : World σ × Int :=
  let w := if method = 0 ∨ method = 1 ∨ method = 4 then readDistant env w sectorNo else w
  let w := if method = 0 ∨ method = 2 ∨ method = 5 then flushCache env w sectorNo else w
  let extbuf := some (w.bufUnscrambled, (2064 * w.disc.secMem).toNat)
  let executed :=
    if method = 4 ∨ method = 5 ∨ method = 6 then
      dvdReadStreaming env w.drive sectorNo w.disc.secDisc extbuf
    else dvdReadSectorDummy env w.drive sectorNo w.disc.secDisc extbuf
  ((w.withDrive executed.drive).withBufUnscrambled executed.buffer, executed.out)

/-- The body of the loop over `cnt`. -/
def streamStep (method : Nat) (sectorNo cnt : UInt32) (w : World σ) : World σ × Bool :=
  let step := w.disc.secMem
  let chunks := chunksOf step
  let position := cnt * (2064 * step)
  let (w, ret) := readStep env method w (sectorNo + cnt * step)
  if 0 ≤ ret then
    let (w, out) := dumpChunks env chunks position chunks.blockLen.toNat 0 chunks.blockSize w
    if !out then (w, false)
    else if misplaced (w.buf.advance position.toNat) (sectorNo + cnt * step) then (w, false)
    else (w, true)
  else (w, false)

/-- The loop over `cnt`, with the rounds left; at its end, `out` and `cnt`. -/
def streamLoop (method : Nat) (sectorNo : UInt32) : Nat → UInt32 → World σ → World σ × Bool × UInt32
  | 0, cnt, w => (w, true, cnt)
  | left + 1, cnt, w =>
      match streamStep env method sectorNo cnt w with
      | (w, true) => streamLoop method sectorNo left (cnt + 1) w
      | (w, false) => (w, false, cnt)

/-- `for (cnt = max_blk; cnt--;)` over the blocks to unscramble. -/
def unscrambleBlocks (sectorNo : UInt32) : Nat → World σ → Bool → World σ × Bool
  | 0, w, out => (w, out)
  | cnt + 1, w, out =>
      let (w, success) := w.unscrambleBuf (sectorNo + cnt.toUInt32 * 16) cnt
      unscrambleBlocks sectorNo cnt w (if success then out else false)

/-- `for (cnt = max_blk; cnt--;)` over the blocks to cache. -/
def cacheBlocks (startBlock : UInt32) : Nat → World σ → World σ
  | 0, w => w
  | cnt + 1, w => cacheBlocks startBlock cnt (w.cacheBuf (startBlock + cnt.toUInt32) cnt)

def streamingRead (method : Nat) (sectorNo : UInt32) (w : World σ) : World σ × Bool :=
  let maxCnt := w.disc.maxCnt
  let maxBlk := w.disc.maxBlk
  let (w, out, cnt) := streamLoop env method sectorNo (maxCnt.toNat + 1) 0 w
  if cnt < maxCnt then (w, false)
  else
    let (w, out) := unscrambleBlocks sectorNo maxBlk.toNat w out
    if out then (cacheBlocks (sectorNo / 16) maxBlk.toNat w, true) else (w, false)

/-- The read of one block, without streaming, up to the check of its position. -/
def simpleDump (sectorNo : UInt32) (w : World σ) : World σ × Bool :=
  let w := readDistant env w sectorNo
  let w := flushCache env w sectorNo
  let executed := dvdReadSectorDummy env w.drive sectorNo 16 none
  let w := w.withDrive executed.drive
  if 0 ≤ executed.out then
    let dumped := dvdMemdump env w.disc.dvd.memdump w.drive 0 1 33024 w.buf
    let w := (w.withDrive dumped.drive).withBuf dumped.buf
    if dumped.out < 0 then (w, false)
    else if misplaced w.buf sectorNo then (w, false)
    else (w, true)
  else (w, false)

def simpleRead (sectorNo : UInt32) (w : World σ) : World σ × Bool :=
  let (w, out) := simpleDump env sectorNo w
  if out then
    let (w, success) := w.unscrambleBuf sectorNo 0
    if success then (w.cacheBuf (sectorNo / 16) 0, true) else (w, false)
  else (w, false)

def discReadSectorGeneric (method : Nat) (sectorNo : UInt32) (w : World σ) : World σ × Bool :=
  retryLoop (fun retry w =>
    let (w, out) :=
      if retry < 3 then streamingRead env method sectorNo w else simpleRead env sectorNo w
    (w, out, false)) 5 0 w

end Reading

end Friidump
