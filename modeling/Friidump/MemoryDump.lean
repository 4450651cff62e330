import Friidump.DvdDrive

/-!
# Memory dump functions

The five ways to read the sector cache of a drive. Where the sources differ
only in a command byte or a bound, so do the definitions.
-/

set_option autoImplicit false

namespace Friidump

/-- `*(buf+1)<<16 + *(buf+2)<<8 + *(buf+3)`, the physical sector number in a header. -/
def sectorNumber (buf : Buffer) : UInt32 :=
  ((buf 1).toUInt32 <<< 16) + ((buf 2).toUInt32 <<< 8) + (buf 3).toUInt32

def Buffer.splice (dst : Buffer) (offset : Nat) (src : Buffer) : Buffer := fun i =>
  if i < offset then dst i else src (i - offset)

structure Dumped (σ : Type) where
  drive : σ
  out : Int
  buf : Buffer

section Dump

variable {σ : Type} (env : Env σ) (drive : σ)

/-! ## Sectors of 2064 bytes -/

/-- The loop over the dumped sectors, with the rounds left. A sector out of
sequence is marked, and the loop ends there. -/
def checkSequence : Nat → Nat → UInt32 → UInt32 → Buffer → Bool × Buffer
  | 0, _, _, _, buf => (true, buf)
  | rounds + 1, srcOffset, firstSecNr, secCnt, buf =>
      let secNr := sectorNumber (buf.advance srcOffset)
      if firstSecNr = 0x55555555 then
        checkSequence rounds (srcOffset + 2064) secNr (secCnt + 1) buf
      else if secNr ≠ firstSecNr + secCnt then (false, buf.memset srcOffset 0xff 4)
      else checkSequence rounds (srcOffset + 2064) firstSecNr (secCnt + 1) buf

/-- `vanilla_2064` and `renesas` differ in the command alone. -/
def sequencedDumpMemblock (cmd : List UInt8) (blockSize : UInt32) (buf : Buffer) : Dumped σ :=
  if blockSize = 0 ∨ 65535 < blockSize then { drive := drive, out := -2, buf := buf }
  else
    let executed := dvdExecuteCmd env drive (dvdInitCommand cmd buf blockSize.toNat) false
    let (inSequence, buf) :=
      checkSequence ((blockSize.toNat + 2063) / 2064) 0 0x55555555 0 executed.buffer
    { drive := executed.drive, out := if inSequence then executed.out else -3, buf := buf }

def vanilla2064DvdDumpMemblock (offset blockSize : UInt32) (buf : Buffer) : Dumped σ :=
  sequencedDumpMemblock env drive
    ([0x3C, 0x02, 0x00] ++ (msbToLsb offset).drop 1 ++ (msbToLsb blockSize).drop 1 ++ [0, 0, 0])
    blockSize buf

def renesasDvdDumpMemblock (offset blockSize : UInt32) (buf : Buffer) : Dumped σ :=
  sequencedDumpMemblock env drive
    ([0x3C, 0x05] ++ msbToLsb offset ++ [0] ++ (msbToLsb blockSize).drop 2 ++ [0x44, 0, 0])
    blockSize buf

def hitachiDvdDumpMemblock (offset blockSize : UInt32) (buf : Buffer) : Dumped σ :=
  if blockSize = 0 ∨ 65535 < blockSize then { drive := drive, out := -2, buf := buf }
  else
    let cmd := [0xE7, 0x48, 0x49, 0x54, 0x01, 0] ++ msbToLsb offset ++ (msbToLsb blockSize).drop 2
    let executed := dvdExecuteCmd env drive (dvdInitCommand cmd buf blockSize.toNat) false
    { drive := executed.drive, out := executed.out, buf := executed.buffer }

/-! ## Sectors of 2384 bytes -/

/-- Twelve rows of 182 bytes, of which 172 are kept. -/
def copyRows (buf tmp : Buffer) (dstOffset srcOffset : Nat) : Buffer :=
  (List.range 12).foldl (fun buf row =>
    buf.memcpy (dstOffset + 172 * row) (tmp.advance (srcOffset + 182 * row)) 172) buf

def extractSectors (decode : Buffer → Buffer) :
    Nat → Nat → Nat → UInt32 → UInt32 → Buffer → Buffer → Bool × Buffer
  | 0, _, _, _, _, _, buf => (true, buf)
  | rounds + 1, srcOffset, dstOffset, firstSecNr, secCnt, tmp, buf =>
      let secNr := sectorNumber (tmp.advance srcOffset)
      if firstSecNr ≠ 0x55555555 ∧ secNr ≠ firstSecNr + secCnt then (false, buf)
      else
        let tmp := tmp.splice srcOffset (decode (tmp.advance srcOffset))
        extractSectors decode rounds (srcOffset + 12 * 182 + 200) (dstOffset + 12 * 172)
          (if firstSecNr = 0x55555555 then secNr else firstSecNr) (secCnt + 1) tmp
          (copyRows buf tmp dstOffset srcOffset)

/-- `vanilla_2384` and `lite-on` differ in two command bytes, in the bound on
the raw size, and in the repair of each sector. -/
def rawDumpMemblock (decode : Buffer → Buffer) (sub1 sub2 : UInt8) (limit : UInt32)
    (offset blockSize : UInt32) (buf : Buffer) : Dumped σ :=
  let rawBlockSize := (blockSize / 2064) * 0x950
  let rawOffset := (offset / 2064) * 0x950
  if blockSize = 0 ∨ limit < rawBlockSize then { drive := drive, out := -2, buf := buf }
  else
    let cmd := [0x3C, sub1, sub2] ++ (msbToLsb rawOffset).drop 1 ++ (msbToLsb rawBlockSize).drop 1 ++
      [0, 0, 0]
    let executed :=
      dvdExecuteCmd env drive (dvdInitCommand cmd (env.stack drive 0) rawBlockSize.toNat) false
    let (inSequence, buf) :=
      extractSectors decode ((rawBlockSize.toNat + 2383) / 2384) 0 0 0x55555555 0
        executed.buffer buf
    { drive := executed.drive, out := if inSequence then executed.out else -3, buf := buf }

def vanilla2384DvdDumpMemblock (offset blockSize : UInt32) (buf : Buffer) : Dumped σ :=
  rawDumpMemblock env drive id 0x02 0x00 65535 offset blockSize buf

def liteonDvdDumpMemblock (offset blockSize : UInt32) (buf : Buffer) : Dumped σ :=
  rawDumpMemblock env drive env.rsDecode 0x01 0x01 65534 offset blockSize buf

end Dump

/-! ## Runs of blocks -/

/-- A function that dumps one block, from its drive state, offset, size and target on. -/
abbrev DumpMemblock (σ : Type) := σ → UInt32 → UInt32 → Buffer → Dumped σ

/-- The loop over `block_len` blocks, with the blocks left and the result of the last one. -/
def dumpMemLoop {σ : Type} (memblock : DumpMemblock σ) (offset blockSize : UInt32) :
    Nat → UInt32 → Int → σ → Buffer → Dumped σ
  | 0, _, r, drive, buf => { drive := drive, out := r, buf := buf }
  | left + 1, i, _, drive, buf =>
      let position := (i * blockSize).toNat
      let dumped := memblock drive (offset + i * blockSize) blockSize (buf.advance position)
      let buf := buf.splice position dumped.buf
      if dumped.out < 0 then { drive := dumped.drive, out := dumped.out, buf := buf }
      else dumpMemLoop memblock offset blockSize left (i + 1) dumped.out dumped.drive buf

/-- The functions `memdump` may point to. -/
inductive MemdumpFunc
  | vanilla2064
  | vanilla2384
  | hitachi
  | liteon
  | renesas
deriving DecidableEq, Repr

def MemdumpFunc.memblock {σ : Type} (env : Env σ) : MemdumpFunc → DumpMemblock σ
  | .vanilla2064 => vanilla2064DvdDumpMemblock env
  | .vanilla2384 => vanilla2384DvdDumpMemblock env
  | .hitachi => hitachiDvdDumpMemblock env
  | .liteon => liteonDvdDumpMemblock env
  | .renesas => renesasDvdDumpMemblock env

/-- Where the sector cache of the drive is mapped. -/
def MemdumpFunc.base : MemdumpFunc → UInt32
  | .hitachi => 0x80000000
  | _ => 0

def dvdMemdump {σ : Type} (env : Env σ) (memdump : MemdumpFunc) (drive : σ)
    (blockOff blockLen blockSize : UInt32) (buf : Buffer) : Dumped σ :=
  dumpMemLoop (memdump.memblock env) (memdump.base + blockOff) blockSize blockLen.toNat 0 (-10)
    drive buf

/-! ## Choice of the function -/

structure DvdDrive where
  memdump : MemdumpFunc
  command : UInt32
  defMethod : UInt32
  supported : Bool

def hitachiModels : List String :=
  ["DVD-ROM GDR8082N", "DVD-ROM GDR8161B", "DVD-ROM GDR8162B", "DVD-ROM GDR8163B",
    "DVD-ROM GDR8164B"]

def liteonModels : List String :=
  ["DVDRW LH-18A1H", "DVDRW LH-18A1P", "DVDRW LH-20A1H", "DVDRW LH-20A1P"]

def toshibaSamsungModels : List String :=
  ["DVD-ROM SH-D162A", "DVD-ROM SH-D162B", "DVD-ROM SH-D162C", "DVD-ROM SH-D162D"]

/-- `command` is `0xFFFFFFFF` where the user does not force one. -/
def dvdAssignFunctions (vendor prodId : String) (command : UInt32) : DvdDrive :=
  let dvd : DvdDrive :=
    if vendor = "HL-DT-ST" ∧ prodId ∈ hitachiModels then
      { memdump := .hitachi, command := 2, supported := true, defMethod := 9 }
    else if vendor = "LITE-ON" ∧ prodId ∈ liteonModels then
      { memdump := .liteon, command := 3, supported := true, defMethod := 5 }
    else if vendor = "TSSTcorp" ∧ prodId ∈ toshibaSamsungModels then
      { memdump := .vanilla2384, command := 1, supported := true, defMethod := 0 }
    else if vendor = "PLEXTOR" then
      { memdump := .vanilla2064, command := 0, supported := true, defMethod := 2 }
    else { memdump := .vanilla2064, command := 0, supported := false, defMethod := 0 }
  if command ≠ 0xFFFFFFFF then
    { dvd with
      command := command
      memdump :=
        if command = 0 then .vanilla2064
        else if command = 1 then .vanilla2384
        else if command = 2 then .hitachi
        else if command = 3 then .liteon
        else if command = 4 then .renesas
        else dvd.memdump }
  else dvd

end Friidump
