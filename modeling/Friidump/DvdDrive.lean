import Friidump.Memory

/-!
# DVD drive

MMC commands and the READ helpers of `dvd_drive.c`. What the drive does is the
business of an environment: it answers each command from a state of its own.
-/

set_option autoImplicit false

namespace Friidump

structure ReqSense where
  senseKey : UInt8
  asc : UInt8
  ascq : UInt8

structure MmcCommand where
  cmd : List UInt8
  buffer : Buffer
  buflen : Nat

structure Reply where
  failed : Bool
  transferred : Nat
  data : Buffer
  sense : ReqSense

/-- What the program cannot know: the drive behind `ioctl` and the contents of
automatic arrays before they are written. The sector repair of `rs.c` stands here too. -/
structure Env (σ : Type) where
  ioctl : σ → MmcCommand → σ × Reply
  stack : σ → Nat → Buffer
  rsDecode : Buffer → Buffer

structure Executed (σ : Type) where
  drive : σ
  out : Int
  buffer : Buffer
  sense : ReqSense

def dvdInitCommand (cmd : List UInt8) (buf : Buffer) (len : Nat) : MmcCommand :=
  { cmd := cmd, buffer := buf.memset 0 0 len, buflen := len }

section Commands

variable {σ : Type} (env : Env σ) (drive : σ)

def dvdExecuteCmd (mmc : MmcCommand) (ignoreErrors : Bool) : Executed σ :=
  let (drive, reply) := env.ioctl drive mmc
  { drive := drive
    out := if reply.failed && !ignoreErrors then -1 else 0
    buffer := mmc.buffer.memcpy 0 reply.data (min reply.transferred mmc.buflen)
    sense := reply.sense }

def msbToLsb (word : UInt32) : List UInt8 :=
  [((word &&& 0xFF000000) >>> 24).toUInt8, ((word &&& 0x00FF0000) >>> 16).toUInt8,
    ((word &&& 0x0000FF00) >>> 8).toUInt8, (word &&& 0x000000FF).toUInt8]

/-- `extbuf` comes with its size. Without it the data go to an internal buffer. -/
def dvdReadSectorDummy (sector sectors : UInt32) (extbuf : Option (Buffer × Nat)) : Executed σ :=
  let (buf, bufsize) := extbuf.getD (env.stack drive 0, 64 * 1024)
  let cmd := [0xA8, 0x08] ++ msbToLsb sector ++ msbToLsb sectors ++ [0, 0]
  dvdExecuteCmd env drive (dvdInitCommand cmd buf bufsize) true

def dvdReadSectorStreaming (sector : UInt32) (extbuf : Option (Buffer × Nat)) : Executed σ :=
  let (buf, bufsize) := extbuf.getD (env.stack drive 0, 2048 * 16)
  let cmd := [0xA8, 0] ++ msbToLsb sector ++ [0, 0, 0, 0x10, 0x80, 0]
  dvdExecuteCmd env drive (dvdInitCommand cmd buf bufsize) true

def dvdReadStreaming (sector sectors : UInt32) (extbuf : Option (Buffer × Nat)) : Executed σ :=
  let (buf, bufsize) := extbuf.getD (env.stack drive 0, 64 * 1024)
  let cmd := [0xA8, 0] ++ msbToLsb sector ++ msbToLsb sectors ++ [0x80, 0]
  dvdExecuteCmd env drive (dvdInitCommand cmd buf bufsize) true

def dvdFlushCacheRead12 (sector : UInt32) : Executed σ :=
  let cmd := [0xA8, 0x08] ++ msbToLsb sector ++ [0, 0, 0, 0, 0, 0]
  dvdExecuteCmd env drive (dvdInitCommand cmd (env.stack drive 0) 0) true

/-- The size is shifted in behind what `size` held before. -/
def dvdGetSize (size : UInt32) : σ × UInt32 :=
  let cmd := [0x52, 0x01, 0, 0, 0, 0x01, 0, 0, 0x22, 0, 0, 0]
  let executed := dvdExecuteCmd env drive (dvdInitCommand cmd (env.stack drive 0) 0x22) true
  let size := (size <<< 8) ||| (executed.buffer 0x18).toUInt32
  let size := (size <<< 8) ||| (executed.buffer 0x19).toUInt32
  let size := (size <<< 8) ||| (executed.buffer 0x1a).toUInt32
  let size := (size <<< 8) ||| (executed.buffer 0x1b).toUInt32
  (executed.drive, size)

def dvdGetLayerbreak (layerbreak : UInt32) : σ × UInt32 :=
  let cmd := [0xad, 0, 0, 0, 0, 0, 0, 0, 0x08, 0x04, 0, 0]
  let executed := dvdExecuteCmd env drive (dvdInitCommand cmd (env.stack drive 0) 2052) true
  let layerbreak := layerbreak <<< 8
  let layerbreak := (layerbreak <<< 8) ||| (executed.buffer 0x11).toUInt32
  let layerbreak := (layerbreak <<< 8) ||| (executed.buffer 0x12).toUInt32
  let layerbreak := (layerbreak <<< 8) ||| (executed.buffer 0x13).toUInt32
  (executed.drive, if 0 < layerbreak then layerbreak - 0x30000 + 1 else layerbreak)

@[simp] theorem dvdExecuteCmd_ignored (mmc : MmcCommand) :
    (dvdExecuteCmd env drive mmc true).out = 0 := by
  simp [dvdExecuteCmd]

@[simp] theorem dvdReadSectorDummy_out (sector sectors : UInt32)
    (extbuf : Option (Buffer × Nat)) :
    (dvdReadSectorDummy env drive sector sectors extbuf).out = 0 :=
  dvdExecuteCmd_ignored ..

@[simp] theorem dvdReadSectorStreaming_out (sector : UInt32) (extbuf : Option (Buffer × Nat)) :
    (dvdReadSectorStreaming env drive sector extbuf).out = 0 :=
  dvdExecuteCmd_ignored ..

@[simp] theorem dvdReadStreaming_out (sector sectors : UInt32)
    (extbuf : Option (Buffer × Nat)) :
    (dvdReadStreaming env drive sector sectors extbuf).out = 0 :=
  dvdExecuteCmd_ignored ..

end Commands

end Friidump
