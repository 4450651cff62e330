import Friidump.MessageDigest
import Friidump.Sha1InPlace

/-!
# SHA-1 digests

The contexts of `sha1.c` follow the hash standard, although the transform spoils what it
reads: an update has taken a block in before anything reads it again.
-/

set_option autoImplicit false

namespace Friidump

open Theory (BlockStream)

/-! ## The end of a hash -/

/-- The bytes of a word, the highest one first. -/
def bigEndian (word : UInt32) : List UInt8 :=
  [(word >>> 24).toUInt8, (word >>> 16).toUInt8, (word >>> 8).toUInt8, word.toUInt8]

def Sha1State.digest (state : Sha1State) : List UInt8 :=
  bigEndian state.a ++ bigEndian state.b ++ bigEndian state.c ++ bigEndian state.d ++
    bigEndian state.e

theorem and_fill (n : Nat) : n &&& 504 = ((n >>> 3) % 64) <<< 3 := by
  apply Nat.eq_of_testBit_eq
  intro i
  have mask : (504 : Nat) = (2 ^ 6 - 1) <<< 3 := rfl
  have size : (64 : Nat) = 2 ^ 6 := rfl
  rw [mask, size]
  simp only [Nat.testBit_and, Nat.testBit_shiftLeft, Nat.testBit_two_pow_sub_one,
    Nat.testBit_mod_two_pow, Nat.testBit_shiftRight]
  by_cases above : 3 ≤ i
  · simp [above, Nat.add_sub_cancel' above, Bool.and_comm]
  · simp [above]

/-- `(context->count[0] & 504) != 448` is a look at the bytes that wait. -/
theorem Sha1Ctx.padded_iff (context : Sha1Ctx) : context.count0 &&& 504 = 448 ↔ context.fill = 56 := by
  have fill : context.fill = context.count0.toNat >>> 3 % 64 := by
    rw [Sha1Ctx.fill, UInt32.toNat_mod, UInt32.toNat_shiftRight]
    rfl
  rw [fill, ← UInt32.toNat_inj, UInt32.toNat_and]
  simp only [UInt32.reduceToNat, and_fill, Nat.shiftLeft_eq]
  omega

theorem sha1Update_fill (context : Sha1Ctx) (data : Buffer) :
    (sha1Update context data 1).1.fill = (context.fill + 1) % 64 := by
  have count : (sha1Update context data 1).1.count0 = context.count0 + 8 := by
    rw [sha1Update]
    dsimp only
    split <;> rfl
  simp only [Sha1Ctx.fill, count, UInt32.toNat_mod, UInt32.toNat_shiftRight, UInt32.toNat_add,
    UInt32.reduceToNat, Nat.shiftRight_eq_div_pow, Nat.reduceMod, Nat.reducePow]
  omega

/-- The loop that adds zeros until eight bytes are left in the block. -/
def sha1Pad (context : Sha1Ctx) : Sha1Ctx :=
  if context.count0 &&& 504 = 448 then context else sha1Pad (sha1Update context (fun _ => 0) 1).1
termination_by (120 - context.fill) % 64
decreasing_by
  have below := context.fill_lt
  have open_ := mt context.padded_iff.mpr ‹_›
  rw [sha1Update_fill]
  omega

/-- The digest. What `SHA1Final` leaves of the context is all zero. -/
def sha1Final (context : Sha1Ctx) : List UInt8 :=
  let numBits := bigEndian context.count1 ++ bigEndian context.count0
  let context := (sha1Update context (fun _ => 0x80) 1).1
  let context := sha1Pad context
  let context := (sha1Update context (.ofBytes numBits) 8).1
  context.state.digest

/-! ## The hash standard -/

/-- The words of a block. -/
def sha1BlockWords (block : List UInt8) : List UInt32 :=
  (List.range 16).map fun j =>
    ((block.getD (4 * j) 0).toUInt32 <<< 24) ||| ((block.getD (4 * j + 1) 0).toUInt32 <<< 16) |||
      ((block.getD (4 * j + 2) 0).toUInt32 <<< 8) ||| (block.getD (4 * j + 3) 0).toUInt32

/-- Sixteen words of the schedule in a row, moved on by one. -/
def sha1NextWords (words : List UInt32) : List UInt32 :=
  words.tail ++
    [rotLeft (words.getD 13 0 ^^^ words.getD 8 0 ^^^ words.getD 2 0 ^^^ words.getD 0 0) 1]

def sha1Compress (state : Sha1State) (block : List UInt8) : Sha1State :=
  let r := ((List.range 80).foldl (fun (r : Sha1State × List UInt32) i =>
    (r.1.round i (r.2.getD 0 0), sha1NextWords r.2)) (state, sha1BlockWords block)).1
  { a := state.a + r.a, b := state.b + r.b, c := state.c + r.c, d := state.d + r.d
    e := state.e + r.e }

def sha1Initial : Sha1State :=
  { a := 0x67452301, b := 0xEFCDAB89, c := 0x98BADCFE, d := 0x10325476, e := 0xC3D2E1F0 }

def sha1LengthField (length : Nat) : List UInt8 :=
  bigEndian (8 * length / 2 ^ 32).toUInt32 ++ bigEndian (8 * length).toUInt32

def sha1 (data : List UInt8) : List UInt8 :=
  (digestState sha1Compress sha1Initial sha1LengthField data).digest

example : sha1 [0x61, 0x62, 0x63] =
    [0xA9, 0x99, 0x3E, 0x36, 0x47, 0x06, 0x81, 0x6A, 0xBA, 0x3E, 0x25, 0x71, 0x78, 0x50, 0xC2, 0x6C,
      0x9C, 0xD0, 0xD8, 0x9D] := by
  decide +kernel

/-! ## The transform -/

/-- On a little-endian host, the word with its bytes in reverse order. -/
theorem reverseWord_word (block : Buffer) (j : Nat) :
    reverseWord (block.word j) =
      ((block (4 * j)).toUInt32 <<< 24) ||| ((block (4 * j + 1)).toUInt32 <<< 16) |||
        ((block (4 * j + 2)).toUInt32 <<< 8) ||| (block (4 * j + 3)).toUInt32 := by
  have byte : ∀ k < 4, ∀ i < 8, (block.word j).toBitVec.getLsbD (8 * k + i) =
      (block (4 * j + k)).toBitVec.getLsbD i := by
    intro k inside i below
    have loaded := congrArg (BitVec.getLsbD · i) (Buffer.loadWord_byte (block.advance (4 * j)) inside)
    simp only [BitVec.getLsbD_setWidth, BitVec.getLsbD_ushiftRight, below, decide_true,
      Bool.true_and] at loaded
    exact loaded
  have beyond : ∀ n i, 8 ≤ i → (block n).toBitVec.getLsbD i = false := fun _ _ above =>
    BitVec.getLsbD_of_ge _ _ above
  refine word_ext fun i inside => ?_
  rw [reverseWord_bit _ inside, byte _ (by omega) _ (by omega)]
  simp only [UInt32.toBitVec_or, UInt32.toBitVec_shiftLeft, UInt8.toBitVec_toUInt32]
  by_cases first : i < 8
  · have place : 3 - i / 8 = 3 ∧ i % 8 = i ∧ i < 16 ∧ i < 24 := by omega
    simp [inside, first, place]
  · by_cases second : i < 16
    · have place : 3 - i / 8 = 2 ∧ i % 8 = i - 8 ∧ i < 24 ∧ i - 8 < 8 := by omega
      simp [inside, first, second, place, beyond _ i (by omega)]
    · by_cases third : i < 24
      · have place : 3 - i / 8 = 1 ∧ i % 8 = i - 16 ∧ ¬ i - 8 < 8 ∧ i - 16 < 8 := by omega
        simp [inside, first, second, third, place, beyond _ i (by omega), beyond _ (i - 8) (by omega)]
      · have place : 3 - i / 8 = 0 ∧ i % 8 = i - 24 ∧ i - 24 < 8 := by omega
        simp [inside, first, second, third, place, beyond _ i (by omega), beyond _ (i - 8) (by omega),
          beyond _ (i - 16) (by omega)]

theorem sha1BlockWords_bytes (block : Buffer) :
    sha1BlockWords (block.bytes 64) = (List.range 16).map (sha1Schedule block) := by
  refine List.map_congr_left fun j member => ?_
  have slot := List.mem_range.mp member
  have byte : ∀ k < 4, (block.bytes 64).getD (4 * j + k) 0 = block (4 * j + k) := by
    intro k inside
    have within : 4 * j + k < 64 := by omega
    simp [Buffer.bytes, within]
  have first : (block.bytes 64).getD (4 * j) 0 = block (4 * j) := byte 0 (by decide)
  rw [sha1Schedule_first block slot, reverseWord_word, first, byte 1 (by decide), byte 2 (by decide),
    byte 3 (by decide)]

theorem sha1NextWords_schedule (block : Buffer) (n : Nat) :
    sha1NextWords ((List.range 16).map fun j => sha1Schedule block (n + j)) =
      (List.range 16).map fun j => sha1Schedule block (n + 1 + j) := by
  have later : ((List.range 16).map fun j => sha1Schedule block (n + j)).tail =
      (List.range 15).map fun j => sha1Schedule block (n + 1 + j) := by
    have shifted : (List.range 16).tail = (List.range 15).map (1 + ·) := by decide
    rw [← List.map_tail, shifted, List.map_map]
    exact List.map_congr_left fun j _ => congrArg _ (Nat.add_assoc n 1 j).symm
  have last : rotLeft (sha1Schedule block (n + 13) ^^^ sha1Schedule block (n + 8) ^^^
      sha1Schedule block (n + 2) ^^^ sha1Schedule block (n + 0)) 1 = sha1Schedule block (n + 1 + 15) :=
    (sha1Schedule_next block n).symm
  have sixteen : List.range 16 = List.range 15 ++ [15] := List.range_succ
  rw [sha1NextWords, later, sixteen, List.map_append]
  exact congrArg (fun next => _ ++ [next]) last

/-- The transform in place does the rounds of the standard. -/
theorem sha1Transform_state (state : Sha1State) (block : Buffer) :
    (sha1Transform state block).1 = sha1Compress state (block.bytes 64) := by
  have rounds : ∀ n, (List.range n).foldl (fun (r : Sha1State × List UInt32) i =>
      (r.1.round i (r.2.getD 0 0), sha1NextWords r.2)) (state, sha1BlockWords (block.bytes 64)) =
        (((List.range n).foldl sha1Round (state, block)).1,
          (List.range 16).map fun j => sha1Schedule block (n + j)) ∧
      ((List.range n).foldl sha1Round (state, block)).2 = sha1BlockAt block n := by
    intro n
    induction n with
    | zero =>
        refine ⟨?_, rfl⟩
        rw [sha1BlockWords_bytes]
        simp
    | succ n ih =>
        obtain ⟨standard, stored⟩ := ih
        have word : ((List.range 16).map fun j => sha1Schedule block (n + j)).getD 0 0 =
            sha1Word (sha1BlockAt block n) n := rfl
        rw [List.range_succ, List.foldl_append, List.foldl_append, standard]
        simp only [List.foldl_cons, List.foldl_nil, sha1Round, stored, word, sha1NextWords_schedule]
        exact ⟨trivial, (sha1BlockAt_succ block n).symm⟩
  unfold sha1Transform sha1Compress
  rw [(rounds 80).1]

/-! ## Data in pieces -/

section Update

variable {stream : BlockStream Sha1State UInt8 64} {context : Sha1Ctx} {absorbed : List UInt8}

/-- Every block is read before it is spoiled. -/
theorem sha1Blocks_feed (left processed : Nat) (data : Buffer) (aligned : stream.waiting = []) :
    (sha1Blocks left processed stream.state data).1 =
        (stream.feed sha1Compress ((data.advance processed).bytes (64 * left))).state ∧
      (stream.feed sha1Compress ((data.advance processed).bytes (64 * left))).waiting = [] := by
  induction left generalizing stream processed data with
  | zero => exact ⟨rfl, aligned⟩
  | succ left ih =>
      have whole : (data.advance processed).bytes (64 * (left + 1)) =
          (data.advance processed).bytes 64 ++ (data.advance (processed + 64)).bytes (64 * left) := by
        have sum : 64 * (left + 1) = 64 + 64 * left := by omega
        rw [sum, Buffer.bytes_add, Buffer.advance_advance]
      obtain ⟨state, waiting⟩ := stream.feed_full sha1Compress ((data.advance processed).bytes 64) (by
        rw [aligned, Buffer.length_bytes]
        rfl)
      rw [aligned, List.nil_append, ← sha1Transform_state] at state
      have behind : ((data.splice processed (sha1Transform stream.state (data.advance processed)).2).advance
          (processed + 64)).bytes (64 * left) = (data.advance (processed + 64)).bytes (64 * left) := by
        refine Buffer.bytes_congr fun i _ => ?_
        have above : processed ≤ processed + 64 + i := by omega
        have past : 64 ≤ processed + 64 + i - processed := by omega
        have position : processed + (processed + 64 + i - processed) = processed + 64 + i := by omega
        rw [Buffer.advance_apply, Buffer.splice_above _ _ above, sha1Transform_beyond _ _ past,
          Buffer.advance_apply, position, Buffer.advance_apply]
      have later := ih (processed + 64)
        (data.splice processed (sha1Transform stream.state (data.advance processed)).2) waiting
      rw [behind, state] at later
      rw [whole, BlockStream.feed_append]
      exact later

/-- An update that completes the block begun: that block, the blocks in the data, and the rest. -/
private theorem updated_blocks {buffer : Buffer} {state : Sha1State} (follows : Follows stream state buffer)
    {data : Buffer} {dataLen : Nat} (full : 63 < stream.waiting.length + dataLen) :
    let processed := 64 - stream.waiting.length
    let filled := sha1Transform state (buffer.memcpy stream.waiting.length data processed)
    let left := (dataLen - processed) / 64
    let blocks := sha1Blocks left processed filled.1 data
    Follows (stream.feed sha1Compress (data.bytes dataLen)) blocks.1
      (filled.2.memcpy 0 (blocks.2.advance (processed + 64 * left))
        (dataLen - (processed + 64 * left))) := by
  intro processed filled left blocks
  have short := stream.short
  have complete : stream.waiting.length + processed = 64 := by omega
  have enough : processed + 64 * left ≤ dataLen := by omega
  have few : dataLen - (processed + 64 * left) < 64 := by omega
  have cut : data.bytes dataLen = data.bytes processed ++ ((data.advance processed).bytes (64 * left) ++
      (data.advance (processed + 64 * left)).bytes (dataLen - (processed + 64 * left))) := by
    rw [← Buffer.advance_advance, ← Buffer.bytes_add, ← Buffer.bytes_add]
    congr 1
    omega
  have block := Buffer.bytes_memcpy_append buffer data stream.waiting.length processed
  rw [complete, follows.buffer] at block
  obtain ⟨firstState, firstWaiting⟩ := stream.feed_full sha1Compress (data.bytes processed) (by
    rw [Buffer.length_bytes, complete])
  have first : filled.1 = (stream.feed sha1Compress (data.bytes processed)).state := by
    rw [firstState, ← block, ← sha1Transform_state, ← follows.state]
  obtain ⟨blocksState, blocksWaiting⟩ := sha1Blocks_feed left processed data firstWaiting
  obtain ⟨lastState, lastWaiting⟩ := ((stream.feed sha1Compress (data.bytes processed)).feed sha1Compress
    ((data.advance processed).bytes (64 * left))).feed_short sha1Compress
    ((data.advance (processed + 64 * left)).bytes (dataLen - (processed + 64 * left))) (by
      rw [blocksWaiting, Buffer.length_bytes, List.length_nil, Nat.zero_add]
      exact few)
  rw [cut, BlockStream.feed_append, BlockStream.feed_append]
  constructor
  · rw [lastState, ← blocksState, ← first]
  · have behind : (blocks.2.advance (processed + 64 * left)).bytes (dataLen - (processed + 64 * left)) =
        (data.advance (processed + 64 * left)).bytes (dataLen - (processed + 64 * left)) :=
      Buffer.bytes_congr fun i _ => sha1Blocks_beyond _ _ _ _ (Nat.le_add_right _ i)
    have kept := Buffer.bytes_memcpy_append filled.2 (blocks.2.advance (processed + 64 * left)) 0
      (dataLen - (processed + 64 * left))
    rw [Nat.zero_add, behind] at kept
    rw [lastWaiting, blocksWaiting, List.nil_append, Buffer.length_bytes, kept]
    rfl

/-- What the context says of the data since `SHA1Init`. -/
structure Sha1Ctx.Absorbed (context : Sha1Ctx) (data : List UInt8) : Prop where
  count : CountsBits context.count0 context.count1 data.length
  follows : Follows (digestStream sha1Compress sha1Initial data) context.state context.buffer

theorem sha1Init_absorbed (buffer : Buffer) : (sha1Init buffer).Absorbed [] :=
  ⟨⟨rfl, rfl⟩, ⟨rfl, rfl⟩⟩

theorem Sha1Ctx.Absorbed.fill {context : Sha1Ctx} (taken : context.Absorbed absorbed) :
    context.fill = absorbed.length % 64 := taken.count.fill

theorem Sha1Ctx.Absorbed.update (taken : context.Absorbed absorbed) (data : Buffer) {dataLen : Nat}
    (small : dataLen < 2 ^ 32) :
    (sha1Update context data dataLen).1.Absorbed (absorbed ++ data.bytes dataLen) := by
  have fill := taken.fill
  rw [← length_digestStream sha1Compress sha1Initial absorbed] at fill
  have short := (digestStream sha1Compress sha1Initial absorbed).short
  have counted := taken.count.add small
  rw [if_congr (UInt32.add_lt_left_iff context.count0 (dataLen.toUInt32 <<< 3)) rfl rfl] at counted
  unfold sha1Update
  dsimp only
  rw [fill]
  split
  · rename_i full
    obtain ⟨state, waiting⟩ := updated_blocks taken.follows full
    refine ⟨?_, ?_, ?_⟩
    · rw [List.length_append, Buffer.length_bytes]
      exact counted
    · rw [digestStream_append]
      exact state
    · rw [digestStream_append]
      exact waiting
  · rename_i fits
    obtain ⟨state, waiting⟩ := (digestStream sha1Compress sha1Initial absorbed).feed_short sha1Compress
      (data.bytes dataLen) (by rw [Buffer.length_bytes]; omega)
    refine ⟨?_, ?_, ?_⟩
    · rw [List.length_append, Buffer.length_bytes]
      exact counted
    · rw [digestStream_append, state]
      exact taken.follows.state
    · rw [digestStream_append, waiting, List.length_append, Buffer.length_bytes,
        Buffer.bytes_memcpy_append, taken.follows.buffer]

theorem Sha1Ctx.Absorbed.pad (taken : context.Absorbed absorbed) :
    (sha1Pad context).Absorbed (absorbed ++ List.replicate ((120 - absorbed.length % 64) % 64) 0) := by
  generalize zeros : (120 - absorbed.length % 64) % 64 = left
  induction left generalizing context absorbed with
  | zero =>
      have padded : context.fill = 56 := by
        rw [taken.fill]
        omega
      rw [sha1Pad, if_pos (context.padded_iff.mpr padded), List.replicate_zero, List.append_nil]
      exact taken
  | succ left ih =>
      have open_ : context.fill ≠ 56 := by
        rw [taken.fill]
        omega
      have one : Buffer.bytes (fun _ => 0) 1 = [0] := rfl
      have next := taken.update (fun _ => 0) (by decide : 1 < 2 ^ 32)
      rw [one] at next
      rw [sha1Pad, if_neg (mt context.padded_iff.mp open_), List.replicate_succ, ← List.singleton_append,
        ← List.append_assoc]
      refine ih next ?_
      rw [List.length_append, List.length_singleton]
      omega

theorem sha1Final_digest (taken : context.Absorbed absorbed) : sha1Final context = sha1 absorbed := by
  have one : Buffer.bytes (fun _ => 0x80) 1 = [0x80] := rfl
  have first := taken.update (fun _ => 0x80) (by decide : 1 < 2 ^ 32)
  rw [one] at first
  have padded := first.pad
  have zeros : (120 - (absorbed ++ [0x80]).length % 64) % 64 = (119 - absorbed.length % 64) % 64 := by
    rw [List.length_append, List.length_singleton]
    omega
  rw [zeros, List.append_assoc, List.singleton_append, ← digestPadding] at padded
  have field : (Buffer.ofBytes (bigEndian context.count1 ++ bigEndian context.count0)).bytes 8 =
      sha1LengthField absorbed.length := by
    rw [taken.count.low, taken.count.high]
    rfl
  have last := (padded.update (.ofBytes (bigEndian context.count1 ++ bigEndian context.count0))
    (by decide : 8 < 2 ^ 32)).follows.state
  rw [field, digestStream_state] at last
  exact congrArg Sha1State.digest last

end Update

/-- The contexts after updates with pieces of data. Each update spoils its piece. -/
def sha1Updates (context : Sha1Ctx) (pieces : List (Buffer × Nat)) : Sha1Ctx :=
  pieces.foldl (fun context piece => (sha1Update context piece.1 piece.2).1) context

end Friidump
