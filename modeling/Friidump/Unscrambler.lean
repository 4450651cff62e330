import Friidump.Ecma267

/-!
# Unscrambler

The seed cache, the brute-force search and the unscrambling of one 16-sector
block. The sizes of `constants.h` stand as numerals: a raw sector has 2064
bytes, a sector 2048, a block 16 sectors.
-/

set_option autoImplicit false

namespace Friidump

structure TSeed where
  seed : Int
  streamcipher : Buffer

/-- The cache has `(MAX_SEEDS + 1) * 16 = 80` entries. -/
structure Unscrambler where
  seeds : Nat → TSeed
  bruteforceSeeds : Bool

def Unscrambler.setSeed (u : Unscrambler) (i : Nat) (entry : TSeed) : Unscrambler :=
  { u with seeds := fun k => if k = i then entry else u.seeds k }

def addSeed (entry : TSeed) (seed : UInt16) : Option TSeed :=
  if entry.seed = -2 then none
  else some { seed := seed.toNat, streamcipher := entry.streamcipher.memcpy 0 (lfsrStream seed) 2048 }

def testSeed (buf : Buffer) (j : Nat) : Bool :=
  let tmp : Buffer := fun i =>
    if 12 ≤ i ∧ i < 2060 then buf i ^^^ lfsrStream j.toUInt16 (i - 12) else buf i
  let edcCalculated := edcCalc 0x00000000 (tmp.bytes 2060)
  let edcCorrect := myNtohl (tmp.advance 2060).loadWord
  edcCalculated == edcCorrect

/-- The loop `_4bin[i] ^= _4cipher[i]` over 512 words, from byte 12 of the sector on. -/
def xorCipher (tmp cipher : Buffer) (words : Nat) : Buffer :=
  (List.range words).foldl (fun tmp i =>
    tmp.storeWord (12 + 4 * i)
      ((tmp.advance (12 + 4 * i)).loadWord ^^^ (cipher.advance (4 * i)).loadWord)) tmp

structure Frame where
  out : Bool
  bin : Buffer
  bout : Buffer

/-- One round of the loop of `unscramble_frame`. Disc type 3 is a regular DVD. -/
def unscrambleSector (disctype : UInt8) (seed : TSeed) (frame : Frame) (j : Nat) : Frame :=
  let tmp := xorCipher (frame.bin.advance (2064 * j)) seed.streamcipher 512
  let edcCalculated := edcCalc 0x00000000 (tmp.bytes 2060)
  let edcCorrect := myNtohl (tmp.advance 2060).loadWord
  { out := if edcCalculated != edcCorrect then false else frame.out
    bin := if disctype = 3 then frame.bin
      else frame.bin.memcpy (2064 * j + 2054) (tmp.advance 2054) 6
    bout := if disctype = 3 then frame.bout.memcpy (2048 * j) (tmp.advance 12) 2048
      else frame.bout.memcpy (2048 * j) (tmp.advance 6) 2048 }

def unscrambleFrame (disctype : UInt8) (seed : TSeed) (bin bout : Buffer) : Frame :=
  (List.range 16).foldl (unscrambleSector disctype seed) { out := true, bin := bin, bout := bout }

/-- The seed numbers written by `unscrambler_init_seeds` after `zones` rounds.
A round puts its sentinel where the next one starts. -/
def unscramblerInitSeeds (u : Unscrambler) : Nat → Unscrambler
  | 0 => u
  | zones + 1 =>
      let u := unscramblerInitSeeds u zones
      let u := (List.range 4).foldl (fun u j =>
        u.setSeed (zones * 4 + j) { u.seeds (zones * 4 + j) with seed := -1 }) u
      u.setSeed (zones * 4 + 4) { u.seeds (zones * 4 + 4) with seed := -2 }

/-- `memory` is what `malloc` returned. -/
def unscramblerNew (memory : Unscrambler) : Unscrambler :=
  { unscramblerInitSeeds memory 16 with bruteforceSeeds := true }

def unscramblerSetBruteforce (u : Unscrambler) (b : Bool) : Unscrambler :=
  { u with bruteforceSeeds := b }

/-- The walk over cached seeds, with the value of `current_seed` and the entry
`seeds` points to when it ends. It is cut at the end of the array. -/
def scanSeeds (seeds : Nat → TSeed) (inbuf : Buffer) : Nat → Nat → Bool × Nat
  | 0, i => (false, i)
  | entries + 1, i =>
      if 0 ≤ (seeds i).seed then
        if testSeed inbuf (seeds i).seed.toNat then (true, i)
        else scanSeeds seeds inbuf entries (i + 1)
      else (false, i)

/-- The search from seed `j` on over `count` seeds. It goes on when the cache is full. -/
def bruteforceSeed (inbuf : Buffer) (entry : TSeed) : Nat → Nat → Option TSeed
  | 0, _ => none
  | count + 1, j =>
      if testSeed inbuf j then
        match addSeed entry j.toUInt16 with
        | some added => some added
        | none => bruteforceSeed inbuf entry count (j + 1)
      else bruteforceSeed inbuf entry count (j + 1)

structure Unscrambled where
  out : Bool
  u : Unscrambler
  inbuf : Buffer
  outbuf : Buffer

def seedZone (sectorNo : UInt32) : Nat := ((sectorNo / 16) &&& 0x0F).toNat

/-- The call ends this way once it has a seed. -/
def unscrambleWith (disctype : UInt8) (u : Unscrambler) (currentSeed : TSeed)
    (inbuf outbuf : Buffer) : Unscrambled :=
  let frame := unscrambleFrame disctype currentSeed inbuf outbuf
  { out := frame.out, u := u, inbuf := frame.bin, outbuf := frame.bout }

def unscramblerUnscramble16sectors (disctype : UInt8) (u : Unscrambler) (sectorNo : UInt32)
    (inbuf outbuf : Buffer) : Unscrambled :=
  match scanSeeds u.seeds inbuf (80 - seedZone sectorNo * 4) (seedZone sectorNo * 4) with
  | (true, i) => unscrambleWith disctype u (u.seeds i) inbuf outbuf
  | (false, i) =>
      if u.bruteforceSeeds then
        match bruteforceSeed inbuf (u.seeds i) 0x7FFF 0 with
        | some entry => unscrambleWith disctype (u.setSeed i entry) entry inbuf outbuf
        | none => { out := false, u := u, inbuf := inbuf, outbuf := outbuf }
      else { out := false, u := u, inbuf := inbuf, outbuf := outbuf }

end Friidump
