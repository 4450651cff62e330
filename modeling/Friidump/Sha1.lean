import Friidump.MemoryDump

/-!
# SHA-1

`sha1.c` on a little-endian host whose `unsigned long` has 32 bits. The
transform keeps its words in the block it is given, and leaves them there.
-/

set_option autoImplicit false

namespace Friidump

/-! ## Words -/

/-- `rotLeft`, for amounts between 1 and 31. -/
def rotLeft (value : UInt32) (bits : Nat) : UInt32 :=
  ⟨(value.toBitVec <<< bits) ||| (value.toBitVec >>> (32 - bits))⟩

/-- The macro `f`. -/
def sha1F (u v w : UInt32) : UInt32 := (u &&& v) ||| (~~~u &&& w)

/-- The macro `g`. -/
def sha1G (u v w : UInt32) : UInt32 := (u &&& v) ||| (u &&& w) ||| (v &&& w)

/-- The macro `h`. -/
def sha1H (u v w : UInt32) : UInt32 := u ^^^ v ^^^ w

/-- The bytes of a word in reverse order. -/
def reverseWord (word : UInt32) : UInt32 :=
  (rotLeft word 24 &&& 0xff00ff00) ||| (rotLeft word 8 &&& 0x00ff00ff)

/-- `block->l[i]`. -/
def Buffer.word (block : Buffer) (i : Nat) : UInt32 := (block.advance (4 * i)).loadWord

def Buffer.setWord (block : Buffer) (i : Nat) (word : UInt32) : Buffer := block.storeWord (4 * i) word

/-! ## The rounds -/

/-- What the macros `x` and `X` assign to `block->l[i % 16]`. -/
def sha1Word (block : Buffer) (i : Nat) : UInt32 :=
  if i < 16 then reverseWord (block.word i)
  else rotLeft (block.word ((i - 3) % 16) ^^^ block.word ((i - 8) % 16) ^^^
    block.word ((i - 14) % 16) ^^^ block.word ((i - 16) % 16)) 1

def sha1Store (block : Buffer) (i : Nat) : Buffer := block.setWord (i % 16) (sha1Word block i)

structure Sha1State where
  a : UInt32
  b : UInt32
  c : UInt32
  d : UInt32
  e : UInt32
deriving DecidableEq

/-- The macros `R0` to `R4`, with the registers in the order of the next round. -/
def Sha1State.round (r : Sha1State) (i : Nat) (word : UInt32) : Sha1State :=
  let mixed :=
    if i < 20 then sha1F r.b r.c r.d + word + 0x5A827999
    else if i < 40 then sha1H r.b r.c r.d + word + 0x6ED9EBA1
    else if i < 60 then sha1G r.b r.c r.d + word + 0x8F1BBCDC
    else sha1H r.b r.c r.d + word + 0xCA62C1D6
  { a := r.e + (mixed + rotLeft r.a 5), b := r.a, c := rotLeft r.b 30, d := r.c, e := r.d }

/-- Round `i` on the registers and the block. -/
def sha1Round (r : Sha1State × Buffer) (i : Nat) : Sha1State × Buffer :=
  (r.1.round i (sha1Word r.2 i), sha1Store r.2 i)

/-- The chaining value and what the block has become. -/
def sha1Transform (state : Sha1State) (buffer : Buffer) : Sha1State × Buffer :=
  let (r, block) := (List.range 80).foldl sha1Round (state, buffer)
  ({ a := state.a + r.a, b := state.b + r.b, c := state.c + r.c, d := state.d + r.d
     e := state.e + r.e }, block)

/-! ## Updates -/

structure Sha1Ctx where
  state : Sha1State
  count0 : UInt32
  count1 : UInt32
  buffer : Buffer

/-- `SHA1Init` does not touch the buffer. -/
def sha1Init (buffer : Buffer) : Sha1Ctx where
  state :=
    { a := 0x67452301, b := 0xEFCDAB89, c := 0x98BADCFE, d := 0x10325476, e := 0xC3D2E1F0 }
  count0 := 0
  count1 := 0
  buffer := buffer

/-- How many bytes wait in the buffer. -/
def Sha1Ctx.fill (context : Sha1Ctx) : Nat := ((context.count0 >>> 3) % 64).toNat

/-- The loop over the whole blocks of the data, with the blocks left. -/
def sha1Blocks : Nat → Nat → Sha1State → Buffer → Sha1State × Buffer
  | 0, _, state, data => (state, data)
  | left + 1, processed, state, data =>
      let (state, block) := sha1Transform state (data.advance processed)
      sha1Blocks left (processed + 64) state (data.splice processed block)

/-- The context and what the data have become. -/
def sha1Update (context : Sha1Ctx) (data : Buffer) (dataLen : Nat) : Sha1Ctx × Buffer :=
  let fill := context.fill
  let bits := dataLen.toUInt32 <<< 3
  let count0 := context.count0 + bits
  let count1 := (if count0 < bits then context.count1 + 1 else context.count1) +
    (dataLen.toUInt32 >>> 29)
  if 63 < fill + dataLen then
    let processed := 64 - fill
    let (state, buffer) := sha1Transform context.state (context.buffer.memcpy fill data processed)
    let left := (dataLen - processed) / 64
    let (state, data) := sha1Blocks left processed state data
    let rest := processed + 64 * left
    ({ state := state, count0 := count0, count1 := count1
       buffer := buffer.memcpy 0 (data.advance rest) (dataLen - rest) }, data)
  else
    ({ context with
        count0 := count0, count1 := count1, buffer := context.buffer.memcpy fill data dataLen }, data)

end Friidump
