import Friidump.Theory.BlockStream
import Friidump.Memory

/-!
# Message digests

What `md5.c` and `sha1.c` have in common: blocks of 64 bytes, a count of bits in two
words, and the padding with the length at its end.
-/

set_option autoImplicit false

namespace Friidump

open Theory (BlockStream fullChunks partialChunk)

/-! ## The count -/

/-- Two words that count the bits of some bytes. -/
structure CountsBits (low high : UInt32) (bytes : Nat) : Prop where
  low : low = (8 * bytes).toUInt32
  high : high = (8 * bytes / 2 ^ 32).toUInt32

section Count

variable {low high : UInt32} {bytes : Nat}

theorem toNat_toUInt32 (n : Nat) : n.toUInt32.toNat = n % 2 ^ 32 := rfl

/-- A sum of words is less than one of them when it is less than the other. -/
theorem UInt32.add_lt_left_iff (a b : UInt32) : a + b < a ↔ a + b < b := by
  have first := a.toNat_lt
  have second := b.toNat_lt
  rw [UInt32.lt_iff_toNat_lt, UInt32.lt_iff_toNat_lt, UInt32.toNat_add]
  omega

theorem CountsBits.add (counts : CountsBits low high bytes) {more : Nat} (small : more < 2 ^ 32) :
    CountsBits (low + (more.toUInt32 <<< 3))
      ((if low + (more.toUInt32 <<< 3) < low then high + 1 else high) + (more.toUInt32 >>> 29))
      (bytes + more) := by
  have bits : (more.toUInt32 <<< 3).toNat = 8 * more % 2 ^ 32 := by
    simp only [UInt32.toNat_shiftLeft, toNat_toUInt32, Nat.shiftLeft_eq, UInt32.reduceToNat,
      Nat.reduceMod, Nat.reducePow]
    omega
  have top : (more.toUInt32 >>> 29).toNat = 8 * more / 2 ^ 32 := by
    simp only [UInt32.toNat_shiftRight, toNat_toUInt32, Nat.shiftRight_eq_div_pow, UInt32.reduceToNat,
      Nat.reduceMod, Nat.reducePow]
    omega
  have lowNat : low.toNat = 8 * bytes % 2 ^ 32 := by rw [counts.low, toNat_toUInt32]
  have highNat : high.toNat = 8 * bytes / 2 ^ 32 % 2 ^ 32 := by rw [counts.high, toNat_toUInt32]
  constructor
  · apply UInt32.toNat_inj.mp
    rw [UInt32.toNat_add, bits, lowNat, toNat_toUInt32]
    omega
  · apply UInt32.toNat_inj.mp
    have carry : low + (more.toUInt32 <<< 3) < low ↔
        2 ^ 32 ≤ 8 * bytes % 2 ^ 32 + 8 * more % 2 ^ 32 := by
      rw [UInt32.lt_iff_toNat_lt, UInt32.toNat_add, bits, lowNat]
      omega
    rw [UInt32.toNat_add, top, toNat_toUInt32]
    split
    · rename_i carried
      have wrapped := carry.mp carried
      rw [UInt32.toNat_add, highNat]
      simp only [UInt32.reduceToNat]
      omega
    · rename_i kept
      have within := mt carry.mpr kept
      rw [highNat]
      omega

theorem CountsBits.fill (counts : CountsBits low high bytes) :
    ((low >>> 3) % 64).toNat = bytes % 64 := by
  simp only [UInt32.toNat_mod, UInt32.toNat_shiftRight, counts.low, toNat_toUInt32,
    UInt32.reduceToNat, Nat.shiftRight_eq_div_pow, Nat.reduceMod, Nat.reducePow]
  omega

end Count

/-- A word is put together from its bytes. -/
theorem bytes_together (word : UInt32) :
    ((word >>> 24).toUInt8.toUInt32 <<< 24) ||| ((word >>> 16).toUInt8.toUInt32 <<< 16) |||
      ((word >>> 8).toUInt8.toUInt32 <<< 8) ||| word.toUInt8.toUInt32 = word := by
  apply UInt32.toBitVec_inj.mp
  apply BitVec.eq_of_getLsbD_eq
  intro i inside
  have spread : ∀ n, n < i + 1 → n + (i - n) = i := by omega
  simp only [UInt32.toBitVec_or, UInt32.toBitVec_shiftLeft, UInt32.toBitVec_shiftRight,
    UInt8.toBitVec_toUInt32, UInt32.toBitVec_toUInt8]
  by_cases first : i < 8
  · have lower : i < 16 ∧ i < 24 := by omega
    simp [inside, first, lower]
  · by_cases second : i < 16
    · have place : i < 24 ∧ i - 8 < 8 := by omega
      simp [inside, first, second, place, spread 8 (by omega)]
    · by_cases third : i < 24
      · have place : ¬ i - 8 < 8 ∧ i - 16 < 8 := by omega
        simp [inside, first, second, third, place, spread 16 (by omega)]
      · have place : ¬ i - 8 < 8 ∧ ¬ i - 16 < 8 ∧ i - 24 < 8 := by omega
        simp [inside, first, second, third, place, spread 24 (by omega)]

/-! ## The padding -/

/-- One bit, and zeros up to eight bytes before the end of a block. -/
def digestPadding (length : Nat) : List UInt8 :=
  0x80 :: List.replicate ((119 - length % 64) % 64) 0

theorem length_digestPadding (length : Nat) :
    (digestPadding length).length = (119 - length % 64) % 64 + 1 := by
  simp [digestPadding]

theorem digestPadding_aligned (length : Nat) : (length + (digestPadding length).length) % 64 = 56 := by
  rw [length_digestPadding]
  omega

/-! ## Digests block by block -/

section Stream

variable {S : Type} (compress : S → List UInt8 → S) (init : S)

/-- The stream of some data from the beginning. -/
def digestStream (data : List UInt8) : BlockStream S UInt8 64 :=
  (BlockStream.start init (by decide)).feed compress data

/-- The chaining value after some data and their padding. -/
def digestState (lengthField : Nat → List UInt8) (data : List UInt8) : S :=
  (fullChunks 64 (data ++ digestPadding data.length ++ lengthField data.length)).foldl compress init

theorem digestStream_state (data : List UInt8) :
    (digestStream compress init data).state = (fullChunks 64 data).foldl compress init :=
  (BlockStream.feed_start compress init (by decide) data).1

theorem length_digestStream (data : List UInt8) :
    (digestStream compress init data).waiting.length = data.length % 64 := by
  rw [digestStream, (BlockStream.feed_start compress init (by decide) data).2,
    Theory.length_partialChunk]

theorem digestStream_append (data more : List UInt8) :
    digestStream compress init (data ++ more) = (digestStream compress init data).feed compress more :=
  BlockStream.feed_append compress _ data more

end Stream

/-- The length field completes the last block. -/
theorem digestState_last {S : Type} (compress : S → List UInt8 → S) (init : S)
    {lengthField : Nat → List UInt8} {data : List UInt8} (eight : (lengthField data.length).length = 8) :
    digestState compress init lengthField data =
      compress (digestStream compress init (data ++ digestPadding data.length)).state
        ((digestStream compress init (data ++ digestPadding data.length)).waiting ++
          lengthField data.length) := by
  have waits := length_digestStream compress init (data ++ digestPadding data.length)
  rw [List.length_append, digestPadding_aligned] at waits
  rw [digestState, ← digestStream_state, digestStream_append]
  exact (BlockStream.feed_full compress _ _ (by rw [waits, eight])).1

/-- A state in memory, with a buffer for the block begun. -/
structure Follows {S : Type} (stream : BlockStream S UInt8 64) (state : S) (buffer : Buffer) : Prop where
  state : state = stream.state
  buffer : buffer.bytes stream.waiting.length = stream.waiting

theorem Buffer.bytes_ofBytes (bytes : List UInt8) :
    (Buffer.ofBytes bytes).bytes bytes.length = bytes := by
  refine List.ext_getElem (by simp) fun i inside inside' => ?_
  simp [Buffer.bytes, Buffer.ofBytes, inside']

theorem Buffer.bytes_memcpy_append (dst src : Buffer) (offset length : Nat) :
    (dst.memcpy offset src length).bytes (offset + length) = dst.bytes offset ++ src.bytes length := by
  rw [Buffer.bytes_add]
  congr 1
  · exact Buffer.bytes_congr fun i below => Buffer.memcpy_outside dst src (.inl below)
  · refine Buffer.bytes_congr fun i inside => ?_
    rw [Buffer.advance_apply, Buffer.memcpy_inside dst src (Nat.le_add_right _ _) (by omega),
      Nat.add_sub_cancel_left]

end Friidump
