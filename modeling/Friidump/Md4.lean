import Friidump.Theory.Chunks
import Mathlib.Algebra.Group.Nat.Defs

/-!
# MD4

`md4.c` on a little-endian host whose `unsigned long` has 64 bits, where the
registers carry more than 32 bits from round to round.
-/

set_option autoImplicit false

namespace Friidump

open Theory (fullChunks partialChunk)

/-! ## The rounds -/

/-- The macro `S`. -/
def md4Rotate (x n : UInt64) : UInt64 := (x <<< n) ||| ((x &&& 0xFFFFFFFF) >>> (32 - n))

/-- The macro `GET_UINT32_LE`. -/
def getUint32Le (b : List UInt8) (i : Nat) : UInt64 :=
  (b.getD i 0).toUInt64 ||| (b.getD (i + 1) 0).toUInt64 <<< 8 ||| (b.getD (i + 2) 0).toUInt64 <<< 16 |||
    (b.getD (i + 3) 0).toUInt64 <<< 24

/-- The macro `PUT_UINT32_LE`. -/
def putUint32Le (n : UInt64) : List UInt8 :=
  [n.toUInt8, (n >>> 8).toUInt8, (n >>> 16).toUInt8, (n >>> 24).toUInt8]

structure Md4State where
  a : UInt64
  b : UInt64
  c : UInt64
  d : UInt64
deriving DecidableEq, Repr

/-- The macro `P`, with the registers in the order of the next one. -/
def Md4State.step (F : UInt64 → UInt64 → UInt64 → UInt64) (r : Md4State) (x s : UInt64) : Md4State :=
  { a := r.d, b := md4Rotate (r.a + (F r.b r.c r.d + x)) s, c := r.b, d := r.c }

/-- Sixteen steps, with the words they take and the four amounts they rotate by. -/
def Md4State.round (F : UInt64 → UInt64 → UInt64 → UInt64) (constant : UInt64) (order : List Nat)
    (amounts : List UInt64) (data : List UInt8) (r : Md4State) : Md4State :=
  (order.zip (amounts ++ amounts ++ amounts ++ amounts)).foldl
    (fun r step => r.step F (getUint32Le data (4 * step.1) + constant) step.2) r

def md4Process (state : Md4State) (data : List UInt8) : Md4State :=
  let r := state.round (fun x y z => (x &&& y) ||| (~~~x &&& z)) 0
    [0, 1, 2, 3, 4, 5, 6, 7, 8, 9, 10, 11, 12, 13, 14, 15] [3, 7, 11, 19] data
  let r := r.round (fun x y z => (x &&& y) ||| (x &&& z) ||| (y &&& z)) 0x5A827999
    [0, 4, 8, 12, 1, 5, 9, 13, 2, 6, 10, 14, 3, 7, 11, 15] [3, 5, 9, 13] data
  let r := r.round (fun x y z => x ^^^ y ^^^ z) 0x6ED9EBA1
    [0, 8, 4, 12, 2, 10, 6, 14, 1, 9, 5, 13, 3, 11, 7, 15] [3, 9, 11, 15] data
  { a := state.a + r.a, b := state.b + r.b, c := state.c + r.c, d := state.d + r.d }

/-! ## Contexts -/

structure Md4Context where
  total0 : UInt64
  total1 : UInt64
  state : Md4State
  buffer : List UInt8

def md4Initial : Md4State := ⟨0x67452301, 0xEFCDAB89, 0x98BADCFE, 0x10325476⟩

/-- `md4_starts` leaves the buffer as it was. -/
def md4Starts (ctx : Md4Context) : Md4Context :=
  { ctx with total0 := 0, total1 := 0, state := md4Initial }

/-- `memcpy` to an index of an array. -/
def writeAt (buffer : List UInt8) (left : Nat) (input : List UInt8) : List UInt8 :=
  buffer.take left ++ input ++ buffer.drop (left + input.length)

/-- The block begun before, filled up if the input is long enough: the state, the buffer,
what waits in it, and the rest of the input. -/
def md4Fill (ctx : Md4Context) (left : Nat) (input : List UInt8) :
    Md4State × List UInt8 × Nat × List UInt8 :=
  let fill := 64 - left
  if left ≠ 0 ∧ fill ≤ input.length then
    let buffer := writeAt ctx.buffer left (input.take fill)
    (md4Process ctx.state (buffer.take 64), buffer, 0, input.drop fill)
  else (ctx.state, ctx.buffer, left, input)

/-- The loop over the whole blocks of the input, with the blocks left. -/
def md4Blocks : Nat → Md4State → List UInt8 → Md4State × List UInt8
  | 0, state, input => (state, input)
  | left + 1, state, input => md4Blocks left (md4Process state (input.take 64)) (input.drop 64)

def md4Update (ctx : Md4Context) (input : List UInt8) : Md4Context :=
  if input.length = 0 then ctx
  else
    let total0 := (ctx.total0 + input.length.toUInt64) &&& 0xFFFFFFFF
    let (state, buffer, left, rest) := md4Fill ctx (ctx.total0 &&& 0x3F).toNat input
    let (state, rest) := md4Blocks (rest.length / 64) state rest
    { total0 := total0
      total1 := if total0 < input.length.toUInt64 then ctx.total1 + 1 else ctx.total1
      state := state
      buffer := if 0 < rest.length then writeAt buffer left rest else buffer }

def md4Padding : List UInt8 := 0x80 :: List.replicate 63 0

/-- The length in bits, as `md4_finish` takes it from the two totals. -/
def md4Msglen (total0 total1 : UInt64) : List UInt8 :=
  let high := (total0 >>> 29) ||| (total1 <<< 3)
  let low := total0 <<< 3
  putUint32Le low ++ putUint32Le high

def Md4State.digest (state : Md4State) : List UInt8 :=
  putUint32Le state.a ++ putUint32Le state.b ++ putUint32Le state.c ++ putUint32Le state.d

/-- The context at the end, and the digest. -/
def md4Finish (ctx : Md4Context) : Md4Context × List UInt8 :=
  let msglen := md4Msglen ctx.total0 ctx.total1
  let last := (ctx.total0 &&& 0x3F).toNat
  let padn := if last < 56 then 56 - last else 120 - last
  let ctx := md4Update ctx (md4Padding.take padn)
  let ctx := md4Update ctx msglen
  (ctx, ctx.state.digest)

/-- The digest of some data, block by block. -/
def md4 (data : List UInt8) : List UInt8 :=
  let last := data.length % 64
  let padn := if last < 56 then 56 - last else 120 - last
  let msglen := md4Msglen (data.length % 2 ^ 32).toUInt64 (data.length / 2 ^ 32).toUInt64
  ((fullChunks 64 (data ++ md4Padding.take padn ++ msglen)).foldl md4Process md4Initial).digest

example : md4 [0x61, 0x62, 0x63] =
    [0xA4, 0x48, 0x01, 0x7A, 0xAF, 0x21, 0xD8, 0x52, 0x5F, 0xC1, 0x0A, 0xE8, 0x7A, 0xA6, 0x72, 0x9D] := by
  decide +kernel

@[simp] theorem length_md4 (data : List UInt8) : (md4 data).length = 16 := rfl

/-! ## Data in pieces -/

/-- The state has taken in the full blocks of the data. -/
def Md4State.Absorbed (state : Md4State) (data : List UInt8) : Prop :=
  state = (fullChunks 64 data).foldl md4Process md4Initial

theorem Md4State.Absorbed.full {state : Md4State} {data more : List UInt8} (absorbed : state.Absorbed data)
    (whole : (partialChunk 64 data).length + more.length = 64) :
    (md4Process state (partialChunk 64 data ++ more)).Absorbed (data ++ more) := by
  rw [Md4State.Absorbed, (Theory.chunks_append_full (by decide) whole).1, List.foldl_append, absorbed]
  rfl

/-- What the context says of the data since `md4_starts`. -/
structure Md4Context.Absorbed (ctx : Md4Context) (data : List UInt8) : Prop where
  total0 : ctx.total0.toNat = data.length % 2 ^ 32
  total1 : ctx.total1 = (data.length / 2 ^ 32).toUInt64
  state : ctx.state.Absorbed data
  buffer : ctx.buffer.take (data.length % 64) = partialChunk 64 data

theorem md4Starts_absorbed (ctx : Md4Context) : (md4Starts ctx).Absorbed [] :=
  ⟨rfl, rfl, rfl, rfl⟩

theorem take_writeAt {buffer input waiting : List UInt8} {left : Nat}
    (filled : buffer.take left = waiting) (count : waiting.length = left) :
    (writeAt buffer left input).take (left + input.length) = waiting ++ input := by
  have whole : (waiting ++ input).length = left + input.length := by simp [count]
  rw [writeAt, filled, List.take_append_of_le_length (Nat.le_of_eq whole.symm),
    List.take_of_length_le (Nat.le_of_eq whole)]

/-- The buffer holds what the state has not taken in. -/
structure Md4Waiting (state : Md4State) (buffer : List UInt8) (left : Nat) (data : List UInt8) : Prop where
  state : state.Absorbed data
  buffer : buffer.take left = partialChunk 64 data
  count : left = data.length % 64

section Update

variable {state : Md4State} {buffer data input : List UInt8} {left : Nat} {ctx : Md4Context}

theorem Md4Waiting.length (waiting : Md4Waiting state buffer left data) :
    (partialChunk 64 data).length = left :=
  (Theory.length_partialChunk 64 data).trans waiting.count.symm

theorem Md4Waiting.fill {ctx : Md4Context} (waiting : Md4Waiting ctx.state ctx.buffer left data)
    (input : List UInt8) :
    ∃ front, front ++ (md4Fill ctx left input).2.2.2 = data ++ input ∧
      Md4Waiting (md4Fill ctx left input).1 (md4Fill ctx left input).2.1 (md4Fill ctx left input).2.2.1
        front ∧
      ((md4Fill ctx left input).2.2.1 = 0 ∨
        (md4Fill ctx left input).2.2.1 + (md4Fill ctx left input).2.2.2.length < 64) := by
  have inside : left < 64 := waiting.count ▸ Nat.mod_lt _ (by decide)
  unfold md4Fill
  dsimp only
  split
  · rename_i complete
    have taken : (input.take (64 - left)).length = 64 - left := List.length_take_of_le complete.2
    have whole : (partialChunk 64 data).length + (input.take (64 - left)).length = 64 := by
      rw [waiting.length, taken]
      omega
    have block : (writeAt ctx.buffer left (input.take (64 - left))).take
        (left + (input.take (64 - left)).length) = partialChunk 64 data ++ input.take (64 - left) :=
      take_writeAt waiting.buffer waiting.length
    rw [taken, Nat.add_sub_cancel' (Nat.le_of_lt inside)] at block
    have none := (Theory.chunks_append_full (by decide) whole).2
    refine ⟨data ++ input.take (64 - left), ?_, ⟨?_, ?_, ?_⟩, .inl rfl⟩
    · rw [List.append_assoc, List.take_append_drop]
    · rw [block]
      exact waiting.state.full whole
    · rw [none, List.take_zero]
    · rw [← Theory.length_partialChunk, none]
      rfl
  · rename_i short
    have fits : left = 0 ∨ left + input.length < 64 := by omega
    exact ⟨data, rfl, waiting, fits⟩

theorem md4Blocks_absorbed (absorbed : state.Absorbed data) (aligned : partialChunk 64 data = []) (n : Nat)
    (enough : 64 * n ≤ input.length) :
    (md4Blocks n state input).1.Absorbed (data ++ input.take (64 * n)) ∧
      partialChunk 64 (data ++ input.take (64 * n)) = [] ∧
      (md4Blocks n state input).2 = input.drop (64 * n) := by
  induction n generalizing state data input with
  | zero =>
      rw [Nat.mul_zero, List.take_zero, List.append_nil]
      exact ⟨absorbed, aligned, rfl⟩
  | succ n ih =>
      have block : (partialChunk 64 data).length + (input.take 64).length = 64 := by
        rw [aligned, List.length_take]
        simp only [List.length_nil]
        omega
      have next := absorbed.full block
      rw [aligned, List.nil_append] at next
      have rest : 64 * n ≤ (input.drop 64).length := by
        rw [List.length_drop]
        omega
      have later := ih next (Theory.chunks_append_full (by decide) block).2 rest
      rw [List.append_assoc, ← List.take_add, List.drop_drop, Nat.add_comm 64, ← Nat.mul_succ] at later
      exact later

theorem Md4Waiting.blocks (waiting : Md4Waiting state buffer left data)
    (fits : left = 0 ∨ left + input.length < 64) :
    ∃ front, front ++ (md4Blocks (input.length / 64) state input).2 = data ++ input ∧
      Md4Waiting (md4Blocks (input.length / 64) state input).1 buffer left front ∧
      left + (md4Blocks (input.length / 64) state input).2.length < 64 := by
  by_cases begun : left = 0
  · subst begun
    have aligned : partialChunk 64 data = [] := List.eq_nil_of_length_eq_zero waiting.length
    obtain ⟨state', aligned', rest⟩ :=
      md4Blocks_absorbed waiting.state aligned (input.length / 64) (Nat.mul_div_le ..)
    refine ⟨data ++ input.take (64 * (input.length / 64)), ?_, ⟨state', ?_, ?_⟩, ?_⟩
    · rw [rest, List.append_assoc, List.take_append_drop]
    · rw [aligned', List.take_zero]
    · rw [← Theory.length_partialChunk, aligned']
      rfl
    · rw [rest, List.length_drop]
      omega
  · have few : input.length / 64 = 0 := by omega
    rw [few]
    exact ⟨data, rfl, waiting, by simpa [md4Blocks] using fits.resolve_left begun⟩

theorem Md4Context.Absorbed.waiting (absorbed : ctx.Absorbed data) :
    Md4Waiting ctx.state ctx.buffer (ctx.total0 &&& 0x3F).toNat data := by
  have left : (ctx.total0 &&& 0x3F).toNat = data.length % 64 := by
    have mask := Nat.and_two_pow_sub_one_eq_mod ctx.total0.toNat 6
    rw [UInt64.toNat_and]
    refine mask.trans ?_
    rw [absorbed.total0]
    omega
  refine ⟨absorbed.state, ?_, left⟩
  rw [left]
  exact absorbed.buffer

/-- The two totals count the bytes, as long as an update brings less than 4 GiB. -/
theorem Md4Context.Absorbed.totals (absorbed : ctx.Absorbed data) (small : input.length < 2 ^ 31) :
    ((ctx.total0 + input.length.toUInt64) &&& 0xFFFFFFFF).toNat = (data ++ input).length % 2 ^ 32 ∧
      (if (ctx.total0 + input.length.toUInt64) &&& 0xFFFFFFFF < input.length.toUInt64 then
        ctx.total1 + 1 else ctx.total1) = ((data ++ input).length / 2 ^ 32).toUInt64 := by
  have length : input.length.toUInt64.toNat = input.length := Nat.mod_eq_of_lt (by omega)
  have total0 : ((ctx.total0 + input.length.toUInt64) &&& 0xFFFFFFFF).toNat =
      (data ++ input).length % 2 ^ 32 := by
    have mask := Nat.and_two_pow_sub_one_eq_mod (ctx.total0 + input.length.toUInt64).toNat 32
    rw [UInt64.toNat_and]
    refine mask.trans ?_
    rw [UInt64.toNat_add, absorbed.total0, length, List.length_append]
    omega
  refine ⟨total0, ?_⟩
  simp only [UInt64.lt_iff_toNat_lt, total0, length, absorbed.total1, List.length_append]
  split
  · rename_i carry
    have next : (data.length + input.length) / 2 ^ 32 = data.length / 2 ^ 32 + 1 := by omega
    rw [next]
    exact (UInt64.ofNat_add _ 1).symm
  · rename_i kept
    have same : (data.length + input.length) / 2 ^ 32 = data.length / 2 ^ 32 := by omega
    rw [same]

theorem Md4Context.Absorbed.update (absorbed : ctx.Absorbed data) (small : input.length < 2 ^ 31) :
    (md4Update ctx input).Absorbed (data ++ input) := by
  unfold md4Update
  split
  · rename_i empty
    rw [List.eq_nil_of_length_eq_zero empty, List.append_nil]
    exact absorbed
  · obtain ⟨total0, total1⟩ := absorbed.totals small
    obtain ⟨front, filled, waiting, fits⟩ := absorbed.waiting.fill input
    generalize md4Fill ctx (ctx.total0 &&& 0x3F).toNat input = fill at filled waiting fits ⊢
    obtain ⟨state, buffer, left, rest⟩ := fill
    obtain ⟨front', taken, waiting', short⟩ := waiting.blocks fits
    dsimp only at taken waiting' short filled ⊢
    generalize md4Blocks (rest.length / 64) state rest = blocks at taken waiting' short ⊢
    obtain ⟨state', rest'⟩ := blocks
    dsimp only at taken waiting' short ⊢
    rw [← filled, ← taken] at total0 total1 ⊢
    have few : (partialChunk 64 front').length + rest'.length < 64 := waiting'.length.symm ▸ short
    obtain ⟨chunks, behind⟩ := Theory.chunks_append_short few
    refine ⟨total0, total1, ?_, ?_⟩
    · rw [Md4State.Absorbed, chunks]
      exact waiting'.state
    · have size : (front' ++ rest').length % 64 = left + rest'.length := by
        rw [← Theory.length_partialChunk, behind, List.length_append, waiting'.length]
      rw [size, behind]
      dsimp only
      by_cases some : 0 < rest'.length
      · rw [if_pos some]
        exact take_writeAt waiting'.buffer waiting'.length
      · have none : rest' = [] := List.eq_nil_of_length_eq_zero (by omega)
        simpa [none] using waiting'.buffer

theorem md4Finish_digest (absorbed : ctx.Absorbed data) : (md4Finish ctx).2 = md4 data := by
  have last : (ctx.total0 &&& 0x3F).toNat = data.length % 64 := absorbed.waiting.count
  have total0 : ctx.total0 = (data.length % 2 ^ 32).toUInt64 := by
    rw [← absorbed.total0]
    exact (UInt64.ofNat_toNat).symm
  have tail : ∀ pad msglen : List UInt8, pad.length < 2 ^ 31 → msglen.length < 2 ^ 31 →
      (md4Update (md4Update ctx pad) msglen).state =
        (fullChunks 64 (data ++ pad ++ msglen)).foldl md4Process md4Initial :=
    fun _ _ small small' => ((absorbed.update small).update small').state
  have short : ∀ padn, (md4Padding.take padn).length < 2 ^ 31 := fun padn =>
    Nat.lt_of_le_of_lt (List.length_take_le' padn md4Padding) (by decide)
  unfold md4Finish md4
  rw [last, total0, absorbed.total1]
  exact congrArg Md4State.digest (tail _ _ (short _) (by decide : 8 < 2 ^ 31))

end Update

end Friidump
