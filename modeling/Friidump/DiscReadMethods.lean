import Friidump.Disc

/-!
# Read methods 7 to 9, and reading through the cache
-/

set_option autoImplicit false

namespace Friidump

/-- The automatic arrays of methods 7 to 9, all five blocks in a row. -/
structure Locals where
  buf : Buffer
  bufUnscrambled : Buffer
  readbuf : Buffer
  tmp : Buffer

structure Request where
  sectorNo : UInt32
  wantData : Bool
  wantRawdata : Bool

/-- What `disc_read_sector` returns, with the two pointers it sets. -/
structure SectorRead where
  out : Bool
  data : Option Buffer
  rawdata : Option Buffer

/-- The two assertions of `disc_read_sector`. -/
inductive Abort
  | unscramblingDisabled
  | blockNotCached
deriving DecidableEq, Repr

section Reading

variable {σ : Type} (env : Env σ)

def Locals.ofStack (drive : σ) : Locals :=
  { buf := env.stack drive 0, bufUnscrambled := env.stack drive 1, readbuf := env.stack drive 2
    tmp := env.stack drive 3 }

/-- `sector_no + j * 16 < d -> sectors_no`. -/
def beforeEnd (w : World σ) (sectorNo : UInt32) (j : Nat) : Bool :=
  sectorNo + j.toUInt32 * 16 < w.disc.sectorsNo

def unscrambleLocal (sectorNo : UInt32) (j : Nat) (w : World σ) (arrays : Locals) :
    World σ × Locals × Bool :=
  let block := w.unscrambleAt (sectorNo + j.toUInt32 * 16) j arrays.buf arrays.bufUnscrambled
  (block.world, { arrays with buf := block.buf, bufUnscrambled := block.bufUnscrambled }, block.out)

/-- The loop that caches the blocks read, with the rounds left. -/
def cacheLocals (sectorNo : UInt32) : Nat → Nat → World σ → Locals → World σ × Locals
  | 0, _, w, arrays => (w, arrays)
  | left + 1, j, w, arrays =>
      if beforeEnd w sectorNo j then
        let (w, buf) := w.cacheBlockAt (sectorNo / 16 + j.toUInt32) j arrays.buf
          arrays.bufUnscrambled
        cacheLocals sectorNo left (j + 1) w { arrays with buf := buf }
      else (w, arrays)

/-! ## Method 7 -/

/-- The loop over `j`, with the rounds left. At its end: `out`, and whether `retry` was set. -/
def dumpBlocks (sectorNo : UInt32) : Nat → Nat → World σ → Locals → (World σ × Locals) × Bool × Bool
  | 0, _, w, arrays => ((w, arrays), true, false)
  | left + 1, j, w, arrays =>
      if beforeEnd w sectorNo j then
        let dumped := dvdMemdump env w.disc.dvd.memdump w.drive (j * 33024).toUInt32 1 33024
          (arrays.buf.advance (j * 33024))
        let w := w.withDrive dumped.drive
        let arrays := { arrays with buf := arrays.buf.splice (j * 33024) dumped.buf }
        if dumped.out < 0 then ((w, arrays), false, true)
        else
          match unscrambleLocal sectorNo j w arrays with
          | (w, arrays, true) => dumpBlocks sectorNo left (j + 1) w arrays
          | (w, arrays, false) => ((w, arrays), false, false)
      else ((w, arrays), true, false)

def attempt7 (sectorNo : UInt32) (retry : Nat) (state : World σ × Locals) :
    (World σ × Locals) × Bool × Bool :=
  let w := if 0 < retry then readDistant env state.1 sectorNo else state.1
  let executed := dvdReadSectorStreaming env w.drive sectorNo none
  let w := w.withDrive executed.drive
  if 0 ≤ executed.out then
    match dumpBlocks env sectorNo 5 0 w state.2 with
    | ((w, arrays), true, stop) => (cacheLocals sectorNo 5 0 w arrays, true, stop)
    | (state, false, stop) => (state, false, stop)
  else ((w, state.2), false, false)

def discReadSector7 (sectorNo : UInt32) (w : World σ) : World σ × Bool :=
  let ((w, _), out) := retryLoop (attempt7 env sectorNo) 5 0 (w, .ofStack env w.drive)
  (w, out)

/-! ## Methods 8 and 9 -/

/-- Headers and check fields of the 16 sectors of a block. The loop goes on after a failure. -/
def dumpHeaders8 (j : Nat) : Nat → Nat → World σ → Locals → Bool → Bool → (World σ × Locals) × Bool × Bool
  | 0, _, w, arrays, out, stop => ((w, arrays), out, stop)
  | left + 1, k, w, arrays, out, stop =>
      let sect := j * 33024 + k * 2064
      let ramOffset := sect.toUInt32
      let dumped := dvdMemdump env w.disc.dvd.memdump w.drive ramOffset 1 12
        (arrays.buf.advance sect)
      let w := w.withDrive dumped.drive
      let arrays := { arrays with buf := arrays.buf.splice sect dumped.buf }
      if dumped.out < 0 then dumpHeaders8 j left (k + 1) w arrays false true
      else
        let dumped := dvdMemdump env w.disc.dvd.memdump w.drive (ramOffset + 2060) 1 4
          (arrays.buf.advance (sect + 2060))
        let w := w.withDrive dumped.drive
        let arrays := { arrays with buf := arrays.buf.splice (sect + 2060) dumped.buf }
        dumpHeaders8 j left (k + 1) w arrays (if dumped.out < 0 then false else out) stop

/-- The header of a sector: dumped for the first one, else found behind the last check field. -/
def dumpHeader9 (j k : Nat) (w : World σ) (arrays : Locals) (out stop : Bool) :
    World σ × Locals × Bool × Bool :=
  let sect := j * 33024 + k * 2064
  if j = 0 ∧ k = 0 then
    let dumped := dvdMemdump env w.disc.dvd.memdump w.drive sect.toUInt32 1 12
      (arrays.buf.advance sect)
    let w := w.withDrive dumped.drive
    let arrays := { arrays with buf := arrays.buf.splice sect dumped.buf }
    if dumped.out < 0 then (w, arrays, false, true) else (w, arrays, out, stop)
  else (w, { arrays with buf := arrays.buf.memcpy sect (arrays.tmp.advance 4) 12 }, out, stop)

/-- As `dumpHeaders8`, but the check field of a sector comes with the header of the next one. -/
def dumpHeaders9 (j : Nat) : Nat → Nat → World σ → Locals → Bool → Bool → (World σ × Locals) × Bool × Bool
  | 0, _, w, arrays, out, stop => ((w, arrays), out, stop)
  | left + 1, k, w, arrays, out, stop =>
      let sect := j * 33024 + k * 2064
      let ramOffset := sect.toUInt32
      let (w, arrays, out, stop) := dumpHeader9 env j k w arrays out stop
      if out then
        let dumped := dvdMemdump env w.disc.dvd.memdump w.drive (ramOffset + 2060) 1 16 arrays.tmp
        let w := w.withDrive dumped.drive
        let arrays := { arrays with tmp := dumped.buf }
        if dumped.out < 0 then dumpHeaders9 j left (k + 1) w arrays false stop
        else
          let arrays := { arrays with buf := arrays.buf.memcpy (sect + 2060) arrays.tmp 4 }
          dumpHeaders9 j left (k + 1) w arrays out stop
      else
        let arrays := { arrays with buf := arrays.buf.memcpy (sect + 2060) arrays.tmp 4 }
        dumpHeaders9 j left (k + 1) w arrays out stop

/-- The loop over `j` around the headers, with the rounds left. -/
def reconstructBlocks (headers : Nat → World σ → Locals → (World σ × Locals) × Bool × Bool)
    (sectorNo : UInt32) : Nat → Nat → World σ → Locals → (World σ × Locals) × Bool × Bool
  | 0, _, w, arrays => ((w, arrays), true, false)
  | left + 1, j, w, arrays =>
      if beforeEnd w sectorNo j then
        match headers j w arrays with
        | ((w, arrays), true, _) => reconstructBlocks headers sectorNo left (j + 1) w arrays
        | (state, false, stop) => (state, false, stop)
      else ((w, arrays), true, false)

/-- The user data read go between the headers and check fields of block `j`. -/
def Locals.fill (arrays : Locals) (j : Nat) : Locals :=
  { arrays with
    buf := arrays.buf.splice (j * 33024)
      (copyUserData (arrays.buf.advance (j * 33024)) arrays.readbuf 12) }

/-- The READ for block `j`; the data of the first one are there already. -/
def readBlock (sectorNo : UInt32) (j : Nat) (w : World σ) (arrays : Locals) :
    World σ × Locals × Int :=
  if j = 0 then (w, arrays, 0)
  else
    let executed := dvdReadSectorStreaming env w.drive (sectorNo + j.toUInt32 * 16)
      (some (arrays.readbuf, 32768))
    (w.withDrive executed.drive, { arrays with readbuf := executed.buffer }, executed.out)

/-- The loop that fills in the user data of each block and unscrambles it. -/
def fillBlocks (sectorNo : UInt32) : Nat → Nat → World σ → Locals → (World σ × Locals) × Bool
  | 0, _, w, arrays => ((w, arrays), true)
  | left + 1, j, w, arrays =>
      if beforeEnd w sectorNo j then
        let (w, arrays, ret) := readBlock env sectorNo j w arrays
        if 0 ≤ ret then
          match unscrambleLocal sectorNo j w (arrays.fill j) with
          | (w, arrays, true) => fillBlocks sectorNo left (j + 1) w arrays
          | (w, arrays, false) => ((w, arrays), false)
        else ((w, arrays), false)
      else ((w, arrays), true)

/-- A try of method 8 or 9, which differ in how they read the headers. -/
def attempt89 (headers : Nat → World σ → Locals → (World σ × Locals) × Bool × Bool)
    (sectorNo : UInt32) (retry : Nat) (state : World σ × Locals) :
    (World σ × Locals) × Bool × Bool :=
  let w := if 0 < retry then readDistant env state.1 sectorNo else state.1
  let ahead :=
    if w.disc.sectorsNo - 1000 < sectorNo then sectorNo - 16 * 5 * 2 else sectorNo + 16 * 5
  let w := w.withDrive (dvdReadSectorStreaming env w.drive ahead none).drive
  let executed := dvdReadSectorStreaming env w.drive sectorNo (some (state.2.readbuf, 32768))
  let w := w.withDrive executed.drive
  let arrays := { state.2 with readbuf := executed.buffer }
  if 0 ≤ executed.out then
    match reconstructBlocks headers sectorNo 5 0 w arrays with
    | ((w, arrays), true, stop) =>
        match fillBlocks env sectorNo 5 0 w arrays with
        | ((w, arrays), true) => (cacheLocals sectorNo 5 0 w arrays, true, stop)
        | (state, false) => (state, false, stop)
    | (state, false, stop) => (state, false, stop)
  else ((w, arrays), false, false)

def discReadSector8 (sectorNo : UInt32) (w : World σ) : World σ × Bool :=
  let headers := fun j w arrays => dumpHeaders8 env j 16 0 w arrays true false
  let ((w, _), out) := retryLoop (attempt89 env headers sectorNo) 5 0 (w, .ofStack env w.drive)
  (w, out)

def discReadSector9 (sectorNo : UInt32) (w : World σ) : World σ × Bool :=
  let headers := fun j w arrays => dumpHeaders9 env j 16 0 w arrays true false
  let ((w, _), out) := retryLoop (attempt89 env headers sectorNo) 5 0 (w, .ofStack env w.drive)
  (w, out)

/-! ## Reading through the cache -/

/-- The function `d -> read_sector` points to. -/
def readSector (sectorNo : UInt32) (w : World σ) : World σ × Bool :=
  match w.disc.readMethod with
  | 7 => discReadSector7 env sectorNo w
  | 8 => discReadSector8 env sectorNo w
  | 9 => discReadSector9 env sectorNo w
  | method => discReadSectorGeneric env method.toNat sectorNo w

def sectorOf (request : Request) (data rawdata : Buffer) : SectorRead :=
  let inBlock := (request.sectorNo % 16).toNat
  { out := true
    data := if request.wantData then some (data.advance (inBlock * 2048)) else none
    rawdata := if request.wantRawdata then some (rawdata.advance (inBlock * 2064)) else none }

def discReadSector (request : Request) (w : World σ) : Except Abort (World σ × SectorRead) :=
  if request.wantData && !w.disc.unscrambling then .error .unscramblingDisabled
  else
    let block := request.sectorNo / 16
    match discCacheLookupBlock w.disc block with
    | some (data, rawdata) => .ok (w, sectorOf request data rawdata)
    | none =>
        match readSector env request.sectorNo w with
        | (w, true) =>
            match discCacheLookupBlock w.disc block with
            | some (data, rawdata) => .ok (w, sectorOf request data rawdata)
            | none => .error .blockNotCached
        | (w, false) => .ok (w, { out := false, data := none, rawdata := none })

end Reading

end Friidump
