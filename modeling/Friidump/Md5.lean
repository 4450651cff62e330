import Friidump.MessageDigest

/-!
# MD5

`md5.c`, where the type `UINT4` has 32 bits.
-/

set_option autoImplicit false

namespace Friidump

open Theory (BlockStream)

/-! ## The rounds -/

/-- The macro `F`. -/
def md5F (x y z : UInt32) : UInt32 := (x &&& y) ||| (~~~x &&& z)

/-- The macro `G`. -/
def md5G (x y z : UInt32) : UInt32 := (x &&& z) ||| (y &&& ~~~z)

/-- The macro `H`. -/
def md5H (x y z : UInt32) : UInt32 := x ^^^ y ^^^ z

/-- The macro `I`. -/
def md5I (x y z : UInt32) : UInt32 := y ^^^ (x ||| ~~~z)

/-- The macro `ROTATE_LEFT`. -/
def rotateLeft (x n : UInt32) : UInt32 := (x <<< n) ||| (x >>> (32 - n))

structure Md5State where
  a : UInt32
  b : UInt32
  c : UInt32
  d : UInt32
deriving DecidableEq, Repr

/-- The macros `FF` to `II`, with the registers in the order of the next one. -/
def Md5State.step (F : UInt32 → UInt32 → UInt32 → UInt32) (r : Md5State) (x s ac : UInt32) : Md5State :=
  { a := r.d, b := rotateLeft (r.a + (F r.b r.c r.d + x + ac)) s + r.b, c := r.b, d := r.c }

/-- Sixteen steps, with the word and the constant of each and the four amounts they rotate by. -/
def Md5State.round (F : UInt32 → UInt32 → UInt32 → UInt32) (amounts : List UInt32)
    (steps : List (Nat × UInt32)) (words : Nat → UInt32) (r : Md5State) : Md5State :=
  (steps.zip (amounts ++ amounts ++ amounts ++ amounts)).foldl
    (fun r step => r.step F (words step.1.1) step.2 step.1.2) r

/-- `Transform`, with `in` as the words. -/
def md5Transform (buf : Md5State) (words : Nat → UInt32) : Md5State :=
  let r := buf.round md5F [7, 12, 17, 22]
    [(0, 3614090360), (1, 3905402710), (2, 606105819), (3, 3250441966),
     (4, 4118548399), (5, 1200080426), (6, 2821735955), (7, 4249261313),
     (8, 1770035416), (9, 2336552879), (10, 4294925233), (11, 2304563134),
     (12, 1804603682), (13, 4254626195), (14, 2792965006), (15, 1236535329)] words
  let r := r.round md5G [5, 9, 14, 20]
    [(1, 4129170786), (6, 3225465664), (11, 643717713), (0, 3921069994),
     (5, 3593408605), (10, 38016083), (15, 3634488961), (4, 3889429448),
     (9, 568446438), (14, 3275163606), (3, 4107603335), (8, 1163531501),
     (13, 2850285829), (2, 4243563512), (7, 1735328473), (12, 2368359562)] words
  let r := r.round md5H [4, 11, 16, 23]
    [(5, 4294588738), (8, 2272392833), (11, 1839030562), (14, 4259657740),
     (1, 2763975236), (4, 1272893353), (7, 4139469664), (10, 3200236656),
     (13, 681279174), (0, 3936430074), (3, 3572445317), (6, 76029189),
     (9, 3654602809), (12, 3873151461), (15, 530742520), (2, 3299628645)] words
  let r := r.round md5I [6, 10, 15, 21]
    [(0, 4096336452), (7, 1126891415), (14, 2878612391), (5, 4237533241),
     (12, 1700485571), (3, 2399980690), (10, 4293915773), (1, 2240044497),
     (8, 1873313359), (15, 4264355552), (6, 2734768916), (13, 1309151649),
     (4, 4149444226), (11, 3174756917), (2, 718787259), (9, 3951481745)] words
  { a := buf.a + r.a, b := buf.b + r.b, c := buf.c + r.c, d := buf.d + r.d }

/-! ## Contexts -/

/-- `input` is the array `in`. -/
structure Md5Ctx where
  i0 : UInt32
  i1 : UInt32
  buf : Md5State
  input : Buffer
  digest : List UInt8

def md5Initial : Md5State := ⟨0x67452301, 0xefcdab89, 0x98badcfe, 0x10325476⟩

/-- `MD5Init` leaves the arrays as they were. -/
def md5Init (mdContext : Md5Ctx) : Md5Ctx := { mdContext with i0 := 0, i1 := 0, buf := md5Initial }

/-- The word that the loops over `i` and `ii` put together. -/
def md5Word (input : Buffer) (ii : Nat) : UInt32 :=
  ((input (ii + 3)).toUInt32 <<< 24) ||| ((input (ii + 2)).toUInt32 <<< 16) |||
    ((input (ii + 1)).toUInt32 <<< 8) ||| (input ii).toUInt32

/-- The number of bytes in the block begun, `mdi` at the start. -/
def Md5Ctx.mdi (mdContext : Md5Ctx) : Nat := ((mdContext.i0 >>> 3) &&& 0x3F).toNat

/-- The loop over the bytes of the input. -/
def md5Loop : List UInt8 → Nat → Md5State → Buffer → Md5State × Buffer
  | [], _, buf, input => (buf, input)
  | byte :: inBuf, mdi, buf, input =>
      let input := input.memcpy mdi (fun _ => byte) 1
      if mdi + 1 = 0x40 then md5Loop inBuf 0 (md5Transform buf fun i => md5Word input (4 * i)) input
      else md5Loop inBuf (mdi + 1) buf input

def md5Update (mdContext : Md5Ctx) (inBuf : List UInt8) : Md5Ctx :=
  let bits := inBuf.length.toUInt32 <<< 3
  let (buf, input) := md5Loop inBuf mdContext.mdi mdContext.buf mdContext.input
  { mdContext with
    i0 := mdContext.i0 + bits
    i1 := (if mdContext.i0 + bits < mdContext.i0 then mdContext.i1 + 1 else mdContext.i1) +
      (inBuf.length.toUInt32 >>> 29)
    buf := buf
    input := input }

/-- `PADDING`. -/
def md5Padding : List UInt8 := 0x80 :: List.replicate 63 0

/-- The bytes of a word, the lowest one first. -/
def littleEndian (word : UInt32) : List UInt8 :=
  [word.toUInt8, (word >>> 8).toUInt8, (word >>> 16).toUInt8, (word >>> 24).toUInt8]

def Md5State.digest (buf : Md5State) : List UInt8 :=
  littleEndian buf.a ++ littleEndian buf.b ++ littleEndian buf.c ++ littleEndian buf.d

def md5Final (mdContext : Md5Ctx) : Md5Ctx :=
  let padLen := if mdContext.mdi < 56 then 56 - mdContext.mdi else 120 - mdContext.mdi
  let padded := md5Update mdContext (md5Padding.take padLen)
  let words := fun i =>
    if i = 14 then mdContext.i0 else if i = 15 then mdContext.i1 else md5Word padded.input (4 * i)
  let buf := md5Transform padded.buf words
  { padded with buf := buf, digest := buf.digest }

/-! ## The digest of some data -/

def md5Compress (buf : Md5State) (block : List UInt8) : Md5State :=
  md5Transform buf fun i => md5Word (.ofBytes block) (4 * i)

def md5LengthField (length : Nat) : List UInt8 :=
  littleEndian (8 * length).toUInt32 ++ littleEndian (8 * length / 2 ^ 32).toUInt32

def md5 (data : List UInt8) : List UInt8 :=
  (digestState md5Compress md5Initial md5LengthField data).digest

example : md5 [0x61, 0x62, 0x63] =
    [0x90, 0x01, 0x50, 0x98, 0x3C, 0xD2, 0x4F, 0xB0, 0xD6, 0x96, 0x3F, 0x7D, 0x28, 0xE1, 0x7F, 0x72] := by
  decide +kernel

/-! ## Data in pieces -/

section Update

variable {buf : Md5State} {input : Buffer} {stream : BlockStream Md5State UInt8 64}
  {mdContext : Md5Ctx} {data inBuf : List UInt8}

theorem Md5State.round_congr (F : UInt32 → UInt32 → UInt32 → UInt32) (amounts : List UInt32)
    {steps : List (Nat × UInt32)} (below : ∀ step ∈ steps, step.1 < 16) {words words' : Nat → UInt32}
    (same : ∀ i < 16, words i = words' i) (r : Md5State) :
    r.round F amounts steps words = r.round F amounts steps words' := by
  refine List.foldl_ext _ _ r fun r step member => ?_
  rw [same _ (below _ (List.of_mem_zip member).1)]

theorem md5Transform_congr (buf : Md5State) {words words' : Nat → UInt32}
    (same : ∀ i < 16, words i = words' i) : md5Transform buf words = md5Transform buf words' := by
  unfold md5Transform
  dsimp only
  rw [Md5State.round_congr md5F _ (by decide) same, Md5State.round_congr md5G _ (by decide) same,
    Md5State.round_congr md5H _ (by decide) same, Md5State.round_congr md5I _ (by decide) same]

theorem ofBytes_bytes (buffer : Buffer) {length i : Nat} (inside : i < length) :
    Buffer.ofBytes (buffer.bytes length) i = buffer i := by
  simp [Buffer.ofBytes, Buffer.bytes, inside]

theorem md5Compress_bytes (buf : Md5State) (input : Buffer) :
    md5Compress buf (input.bytes 64) = md5Transform buf fun i => md5Word input (4 * i) := by
  refine md5Transform_congr buf fun i below => ?_
  unfold md5Word
  rw [ofBytes_bytes input (by omega), ofBytes_bytes input (by omega), ofBytes_bytes input (by omega),
    ofBytes_bytes input (by omega)]

theorem md5Loop_follows (follows : Follows stream buf input) (inBuf : List UInt8) :
    Follows (stream.feed md5Compress inBuf) (md5Loop inBuf stream.waiting.length buf input).1
      (md5Loop inBuf stream.waiting.length buf input).2 := by
  induction inBuf generalizing stream buf input with
  | nil => exact follows
  | cons byte inBuf ih =>
      have filled := Buffer.bytes_memcpy_append input (fun _ => byte) stream.waiting.length 1
      have one : Buffer.bytes (fun _ => byte) 1 = [byte] := rfl
      rw [follows.buffer, one] at filled
      rw [BlockStream.feed_cons, md5Loop]
      split
      · rename_i full
        obtain ⟨state, waiting⟩ := stream.push_full md5Compress byte full
        have next : Follows (stream.push md5Compress byte)
            (md5Transform buf fun i => md5Word (input.memcpy stream.waiting.length (fun _ => byte) 1) (4 * i))
            (input.memcpy stream.waiting.length (fun _ => byte) 1) := by
          refine ⟨?_, by rw [waiting]; rfl⟩
          rw [state, ← filled, full, md5Compress_bytes, follows.state]
        have later := ih next
        rw [waiting] at later
        exact later
      · rename_i short
        have fits : stream.waiting.length + 1 < 64 := Nat.lt_of_le_of_ne stream.short short
        obtain ⟨state, waiting⟩ := stream.push_short md5Compress byte fits
        have count : (stream.push md5Compress byte).waiting.length = stream.waiting.length + 1 := by
          rw [waiting, List.length_append, List.length_singleton]
        have next : Follows (stream.push md5Compress byte) buf
            (input.memcpy stream.waiting.length (fun _ => byte) 1) :=
          ⟨follows.state.trans state.symm, by rw [count, filled, waiting]⟩
        have later := ih next
        rw [count] at later
        exact later

/-- What the context says of the data since `MD5Init`. -/
structure Md5Ctx.Absorbed (mdContext : Md5Ctx) (data : List UInt8) : Prop where
  count : CountsBits mdContext.i0 mdContext.i1 data.length
  follows : Follows (digestStream md5Compress md5Initial data) mdContext.buf mdContext.input

theorem md5Init_absorbed (mdContext : Md5Ctx) : (md5Init mdContext).Absorbed [] :=
  ⟨⟨rfl, rfl⟩, ⟨rfl, rfl⟩⟩

theorem Md5Ctx.Absorbed.mdi (absorbed : mdContext.Absorbed data) : mdContext.mdi = data.length % 64 := by
  have fill := absorbed.count.fill
  rw [← fill, Md5Ctx.mdi, UInt32.toNat_and, UInt32.toNat_mod]
  exact Nat.and_two_pow_sub_one_eq_mod _ 6

theorem Md5Ctx.Absorbed.update (absorbed : mdContext.Absorbed data) (small : inBuf.length < 2 ^ 32) :
    (md5Update mdContext inBuf).Absorbed (data ++ inBuf) := by
  have mdi := absorbed.mdi
  rw [← length_digestStream md5Compress md5Initial data] at mdi
  refine ⟨?_, ?_⟩
  · rw [List.length_append]
    exact absorbed.count.add small
  · rw [digestStream_append]
    unfold md5Update
    rw [mdi]
    exact md5Loop_follows absorbed.follows inBuf

theorem md5Word_littleEndian {input : Buffer} {ii : Nat} {word : UInt32}
    (bytes : (input.advance ii).bytes 4 = littleEndian word) : md5Word input ii = word := by
  simp only [Buffer.bytes, List.range_succ, List.range_zero, List.nil_append, List.cons_append,
    List.map_cons, List.map_nil, littleEndian, List.cons.injEq, and_true,
    Buffer.advance_apply, Nat.add_zero] at bytes
  rw [md5Word, bytes.1, bytes.2.1, bytes.2.2.1, bytes.2.2.2]
  exact bytes_together word

theorem md5Padding_take {mdi length : Nat} (count : mdi = length % 64) :
    md5Padding.take (if mdi < 56 then 56 - mdi else 120 - mdi) = digestPadding length := by
  have padLen : (if mdi < 56 then 56 - mdi else 120 - mdi) = (119 - length % 64) % 64 + 1 := by
    split <;> omega
  have short : (119 - length % 64) % 64 ≤ 63 := by omega
  rw [padLen, md5Padding, List.take_succ_cons, List.take_replicate, Nat.min_eq_left short, digestPadding]

/-- The last block, as `MD5Final` puts it together. -/
private theorem md5Final_block {padded : Md5Ctx} {waiting : List UInt8}
    (filled : padded.input.bytes 56 = waiting) (i0 i1 : UInt32) (buf : Md5State) :
    md5Transform buf (fun i => if i = 14 then i0 else if i = 15 then i1
      else md5Word padded.input (4 * i)) =
      md5Compress buf (waiting ++ (littleEndian i0 ++ littleEndian i1)) := by
  have last := Buffer.bytes_memcpy_append padded.input
    (.ofBytes (littleEndian i0 ++ littleEndian i1)) 56 8
  have field : (Buffer.ofBytes (littleEndian i0 ++ littleEndian i1)).bytes 8 =
      littleEndian i0 ++ littleEndian i1 := rfl
  rw [filled, field] at last
  rw [← last, md5Compress_bytes]
  refine md5Transform_congr buf fun i below => ?_
  split
  · rename_i first
    subst first
    exact (md5Word_littleEndian rfl).symm
  · split
    · rename_i second
      subst second
      exact (md5Word_littleEndian rfl).symm
    · have early : 4 * i + 3 < 56 := by omega
      unfold md5Word
      rw [Buffer.memcpy_outside _ _ (.inl early), Buffer.memcpy_outside _ _ (.inl (by omega)),
        Buffer.memcpy_outside _ _ (.inl (by omega)), Buffer.memcpy_outside _ _ (.inl (by omega))]

theorem md5Final_digest (absorbed : mdContext.Absorbed data) :
    (md5Final mdContext).digest = md5 data := by
  have short : (digestPadding data.length).length < 2 ^ 32 := by
    rw [length_digestPadding]
    omega
  have padded := absorbed.update short
  have filled := padded.follows.buffer
  rw [length_digestStream, List.length_append, digestPadding_aligned] at filled
  unfold md5Final md5
  dsimp only
  rw [md5Padding_take absorbed.mdi, digestState_last md5Compress md5Initial rfl]
  refine congrArg Md5State.digest ((md5Final_block filled _ _ _).trans ?_)
  rw [padded.follows.state, absorbed.count.low, absorbed.count.high]
  rfl

/-- However the data are cut into updates, `MD5Final` yields the digest of the data. -/
theorem md5_pieces (mdContext : Md5Ctx) (pieces : List (List UInt8))
    (small : ∀ piece ∈ pieces, piece.length < 2 ^ 32) :
    (md5Final (pieces.foldl md5Update (md5Init mdContext))).digest = md5 pieces.flatten := by
  have absorbed : ∀ data mdContext, Md5Ctx.Absorbed mdContext data →
      (pieces.foldl md5Update mdContext).Absorbed (data ++ pieces.flatten) := by
    induction pieces with
    | nil =>
        intro data mdContext absorbed
        rw [List.flatten_nil, List.append_nil]
        exact absorbed
    | cons piece pieces ih =>
        intro data mdContext absorbed
        rw [List.flatten_cons, ← List.append_assoc]
        exact ih (fun piece member => small piece (List.mem_cons_of_mem _ member)) _ _
          (absorbed.update (small piece List.mem_cons_self))
  exact md5Final_digest (absorbed [] _ (md5Init_absorbed mdContext))

end Update

/-- Three bytes in two updates. -/
theorem md5_pieces_two :
    (md5Final ([[0x61], [0x62, 0x63]].foldl md5Update
      (md5Init ⟨0, 0, md5Initial, fun _ => 0, []⟩))).digest = md5 [0x61, 0x62, 0x63] :=
  md5_pieces ⟨0, 0, md5Initial, fun _ => 0, []⟩ [[0x61], [0x62, 0x63]] (by decide)

end Friidump
