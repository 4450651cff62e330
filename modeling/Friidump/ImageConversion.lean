import Friidump.FileUnscrambling

/-!
# Converting a scrambled image

An image of any number of sectors: the whole blocks, and what the padding of a
short last block comes to.
-/

set_option autoImplicit false

namespace Friidump

/-- Sector after sector, each group of 16 scrambled with one seed. -/
def rawImage (plain : Nat → Buffer) (seeds : Nat → BitVec 15) : Buffer := fun a =>
  scrambledBlock (fun k => plain (16 * (a / 33024) + k)) (seeds (a / 33024)) (a % 33024)

def userImage (disctype : UInt8) (plain : Nat → Buffer) : Buffer := fun a =>
  plain (a / 2048) ((if disctype = 3 then 12 else 6) + a % 2048)

/-! ## Blocks whose last sectors are zero -/

/-- `count` scrambled sectors, with zeroes up to the end of the block. -/
structure ShortBlock (plain : Nat → Buffer) (seed : BitVec 15) (count : Nat) (inbuf : Buffer) :
    Prop where
  scrambled : ∀ a < 2064 * count, inbuf a = scrambledBlock plain seed a
  padded : ∀ a, 2064 * count ≤ a → a < 33024 → inbuf a = 0

namespace ShortBlock

variable {plain : Nat → Buffer} {seed : BitVec 15} {count : Nat} {inbuf : Buffer}

private theorem decoded_scrambled (block : ShortBlock plain seed count inbuf) {k : Nat}
    (inside : k < count) : ∀ i < 2064, decodedSector inbuf (seedOf seed) k i =
      decodedSector (scrambledBlock plain seed) (seedOf seed) k i := by
  intro i below
  simp only [decodedSector, Buffer.xor, Buffer.advance_apply]
  rw [block.scrambled (2064 * k + i) (by omega)]

private theorem decoded_padded (block : ShortBlock plain seed count inbuf) {k : Nat}
    (behind : count ≤ k) (inside : k < 16) :
    ∀ i < 2064, decodedSector inbuf (seedOf seed) k i = cipherPad (seedOf seed) i := by
  intro i below
  simp only [decodedSector, Buffer.xor, Buffer.advance_apply]
  rw [block.padded (2064 * k + i) (by omega) (by omega), UInt8.zero_xor]

private theorem passes_scrambled (block : ShortBlock plain seed count inbuf) {k : Nat}
    (inside : k < count) : sectorSyndrome (decodedSector inbuf (seedOf seed) k) = 0 := by
  rw [sectorSyndrome_congr (block.decoded_scrambled inside)]
  exact (decodedSector_passes_iff plain seed seed k).mpr rfl

private theorem passes_padded_iff (block : ShortBlock plain seed count inbuf) {k : Nat}
    (behind : count ≤ k) (inside : k < 16) :
    sectorSyndrome (decodedSector inbuf (seedOf seed) k) = 0 ↔ seed = 0#15 := by
  rw [sectorSyndrome_congr (block.decoded_padded behind inside),
    sectorSyndrome_cipherPad_eq_zero_iff]

private theorem seedOf_toNat (seed : BitVec 15) : seed.toNat.toUInt16 = seedOf seed := by
  rw [toUInt16_eq_seedOf seed.isLt, BitVec.ofNat_toNat, BitVec.setWidth_eq]

theorem accepts (block : ShortBlock plain seed count inbuf) (nonempty : 0 < count)
    (searched : seed.toNat < 0x7FFF) : Accepts inbuf seed.toNat := by
  have first := block.passes_scrambled nonempty
  rw [decodedSector, Nat.mul_zero, Buffer.advance_zero, ← seedOf_toNat] at first
  exact ⟨searched, (testSeed_iff inbuf _).mpr first⟩

/-- Padding passes the check only where nothing was scrambled. -/
theorem directFrame_out_iff (block : ShortBlock plain seed count inbuf) (nonempty : 0 < count)
    (short : count ≤ 16) (searched : seed.toNat < 0x7FFF) (disctype : UInt8) (outbuf : Buffer) :
    (directFrame disctype inbuf outbuf).out = true ↔ count = 16 ∨ seed = 0#15 := by
  rw [directFrame_of_accepts (block.accepts nonempty searched), decodedFrame_out_iff, seedOf_toNat]
  constructor
  · intro passes
    obtain padded | whole := Nat.lt_or_eq_of_le short
    · exact .inr ((block.passes_padded_iff (Nat.le_of_lt_succ padded) (by decide)).mp
        (passes 15 (by decide)))
    · exact .inl whole
  · intro sound k inside
    by_cases scrambled : k < count
    · exact block.passes_scrambled scrambled
    · have behind := Nat.not_lt.mp scrambled
      refine (block.passes_padded_iff behind inside).mpr (sound.resolve_left fun whole => ?_)
      exact scrambled (whole ▸ inside)

theorem directFrame_bout (block : ShortBlock plain seed count inbuf) (nonempty : 0 < count)
    (searched : seed.toNat < 0x7FFF) (sound : count = 16 ∨ seed = 0#15) (disctype : UInt8)
    (outbuf : Buffer) {a : Nat} (below : a < 32768) :
    (directFrame disctype inbuf outbuf).bout a =
      if a < 2048 * count then userImage disctype plain a else 0 := by
  have offset := dataOffset_le disctype
  have insideBlock : a / 2048 < 16 := by omega
  have insideSector : a % 2048 < 2048 := Nat.mod_lt a (by decide)
  have field : dataOffset disctype + a % 2048 < 2060 := by omega
  have sector : (directFrame disctype inbuf outbuf).bout a =
      decodedSector inbuf (seedOf seed) (a / 2048) (dataOffset disctype + a % 2048) := by
    rw [directFrame_of_accepts (block.accepts nonempty searched), seedOf_toNat]
    have written := decodedFrame_bout disctype (seedOf seed) inbuf outbuf insideBlock insideSector
    rwa [Nat.div_add_mod] at written
  rw [sector]
  by_cases scrambled : a / 2048 < count
  · rw [if_pos (by omega), block.decoded_scrambled scrambled _ (by omega),
      decodedSector_plain plain seed _ field, userImage, dataOffset]
  · have behind := Nat.not_lt.mp scrambled
    have silent : seed = 0#15 := sound.resolve_left (by omega)
    rw [if_neg (by omega), block.decoded_padded behind insideBlock _ (by omega), silent]
    exact cipherPad_zero _

end ShortBlock

/-! ## One round -/

theorem readPadded_apply (rest : List UInt8) (bIn : Buffer) {a : Nat} (below : a < 33024) :
    readPadded rest bIn a = rest.getD a 0 := by
  rw [readPadded, Buffer.memset]
  by_cases read : a < rest.length
  · have inside : a < min 33024 rest.length := Nat.lt_min.mpr ⟨below, read⟩
    rw [if_neg fun padding => Nat.not_lt.mpr padding.1 inside,
      Buffer.memcpy_inside _ _ (Nat.zero_le a) ((Nat.zero_add _).symm ▸ inside), Nat.sub_zero,
      Buffer.ofBytes]
  · have behind : min 33024 rest.length ≤ a :=
      Nat.le_trans (Nat.min_le_right _ _) (Nat.not_lt.mp read)
    rw [if_pos ⟨behind, by omega⟩, List.getD_eq_getElem?_getD,
      List.getElem?_eq_none (Nat.not_lt.mp read), Option.getD_none]

/-- A seed cache that has room for a list of seeds in each zone. -/
structure SeedsFit (known : Nat → List Nat) (u : Unscrambler) : Prop where
  formed : SeedsWellFormed u
  enabled : u.bruteforceSeeds = true
  roomy : ZonesRoomy u known
  short : ∀ zone < 16, (known zone).length ≤ 4

theorem SeedsFit.unscramble {known : Nat → List Nat} {u : Unscrambler} (fit : SeedsFit known u)
    (call : Call) (within : call.Within known) :
    (call.on u).frame = directFrame call.disctype call.inbuf call.outbuf ∧
      SeedsFit known (call.on u).u := by
  have ended := call.outcome fit.formed
  refine ⟨ended.direct fit.enabled (call.not_crowded fit.roomy fit.short within), ?_⟩
  exact ⟨ended.formed fit.formed, ended.bruteforceSeeds.trans fit.enabled,
    call.zonesRoomy fit.formed fit.roomy fit.short within, fit.short⟩

def Knows (u : Unscrambler) (zone j : Nat) : Prop :=
  ∃ i, zone * 4 ≤ i ∧ i < 64 ∧ (u.seeds i).seed = j

section Known

variable {disctype : UInt8} {u : Unscrambler} {zone : Nat} {inbuf outbuf : Buffer}
  {result : Unscrambled}

theorem Outcome.knows (ended : Outcome disctype u zone inbuf outbuf result)
    (success : result.out = true) {j : Nat} (accepted : Accepts inbuf j) : Knows result.u zone j := by
  cases ended with
  | @cached i met lower upper _ held accepted' =>
      rw [accepted.unique accepted', unscrambleWith_u]
      exact ⟨i, lower, upper, held.number⟩
  | @added i met entry _ lower upper _ _ held accepted' =>
      rw [accepted.unique accepted', unscrambleWith_u]
      exact ⟨i, lower, upper, (congrArg TSeed.seed (u.setSeed_here i entry)).trans held.number⟩
  | rejected => exact absurd success Bool.false_ne_true

theorem Outcome.keeps (ended : Outcome disctype u zone inbuf outbuf result) {zone' j : Nat}
    (known : Knows u zone' j) : Knows result.u zone' j := by
  cases ended with
  | cached => exact known
  | rejected => exact known
  | @added i met entry _ _ _ _ free =>
      obtain ⟨k, lower, upper, number⟩ := known
      have elsewhere : k ≠ i := by
        rintro rfl
        exact absurd (number.symm.trans free) (by omega)
      refine ⟨k, lower, upper, ?_⟩
      rw [unscrambleWith_u, u.setSeed_elsewhere entry elsewhere]
      exact number

end Known

/-- The sector number the loop passes for a group stands for the group's zone. -/
theorem seedZone_group (group : Nat) : seedZone (UInt32.ofNat (16 * group)) = group % 16 := by
  have word : (UInt32.ofNat (16 * group)).toNat = 16 * (group % 2 ^ 28) := by
    rw [UInt32.toNat_ofNat']
    exact Nat.mul_mod_mul_left 16 group (2 ^ 28)
  rw [seedZone_eq, word, Nat.mul_div_cancel_left _ (by decide)]
  exact Nat.mod_mod_of_dvd group (by decide)

/-- The call of the unscrambler in one round. -/
def Conversion.call (disctype : UInt8) (state : Conversion) : Call :=
  ⟨disctype, state.s, readPadded state.rest state.bIn, state.bOut⟩

theorem convertBlock_direct {disctype : UInt8} {files : ConversionFiles}
    (writes : ∀ content bytes, files.fwrite content bytes = (content ++ bytes, false))
    {known : Nat → List Nat} {state : Conversion} (fit : SeedsFit known state.u)
    (within : (state.call disctype).Within known) {frame : Frame}
    (shown : directFrame disctype (readPadded state.rest state.bIn) state.bOut = frame) :
    (convertBlock disctype files state).out = frame.out ∧
      (convertBlock disctype files state).outfile =
        (if frame.out then state.outfile ++ frame.bout.bytes 32768 else state.outfile) ∧
      SeedsFit known ((state.call disctype).on state.u).u := by
  obtain ⟨direct, fit'⟩ := fit.unscramble (state.call disctype) within
  have ended : ((state.call disctype).on state.u).frame = frame := direct.trans shown
  have written : (if ((state.call disctype).on state.u).out then
      files.fwrite state.outfile (((state.call disctype).on state.u).outbuf.bytes 32768)
      else (state.outfile, true)) =
      (if frame.out then state.outfile ++ frame.bout.bytes 32768 else state.outfile, !frame.out) := by
    rw [← ended, Unscrambled.frame_out, Unscrambled.frame_bout]
    cases ((state.call disctype).on state.u).out with
    | true => exact writes _ _
    | false => rfl
  refine ⟨?_, congrArg Prod.fst written, fit'⟩
  exact (congrArg (fun result : List UInt8 × Bool => !result.2) written).trans (Bool.not_not _)

/-! ## The whole image -/

/-- The loop of an image of `n` sectors before it reads the given group. -/
structure Converting (disctype : UInt8) (plain : Nat → Buffer) (seeds : Nat → BitVec 15) (n : Nat)
    (known : Nat → List Nat) (group : Nat) (state : Conversion) : Prop where
  rest : state.rest = ((rawImage plain seeds).advance (33024 * group)).bytes (2064 * (n - 16 * group))
  sector : state.s = UInt32.ofNat (16 * group)
  going : state.out = true
  outfile : state.outfile = (userImage disctype plain).bytes (32768 * group)
  fit : SeedsFit known state.u
  met : ∀ earlier < group, Knows state.u (earlier % 16) (seeds earlier).toNat

namespace Converting

variable {disctype : UInt8} {plain : Nat → Buffer} {seeds : Nat → BitVec 15} {n group : Nat}
  {known : Nat → List Nat} {state : Conversion}

private theorem block (converting : Converting disctype plain seeds n known group state)
    {count : Nat} (sectors : min 16 (n - 16 * group) = count) :
    ShortBlock (fun k => plain (16 * group + k)) (seeds group) count
      (readPadded state.rest state.bIn) := by
  have length : state.rest.length = 2064 * (n - 16 * group) := by
    rw [converting.rest, Buffer.length_bytes]
  constructor
  · intro a below
    have inside : a < 2064 * (n - 16 * group) := by omega
    have quotient : (33024 * group + a) / 33024 = group := by omega
    have offset : (33024 * group + a) % 33024 = a := by omega
    rw [readPadded_apply _ _ (by omega), converting.rest, Buffer.bytes, List.getD_eq_getElem?_getD,
      List.getElem?_map, List.getElem?_range inside, Option.map_some, Option.getD_some,
      Buffer.advance_apply, rawImage, quotient, offset]
  · intro a lower upper
    rw [readPadded_apply _ _ upper, List.getD_eq_getElem?_getD,
      List.getElem?_eq_none (by rw [length]; omega), Option.getD_none]

private theorem zone (converting : Converting disctype plain seeds n known group state) :
    (state.call disctype).zone = group % 16 := by
  rw [Call.zone, Conversion.call, converting.sector, seedZone_group]

private theorem accepted (converting : Converting disctype plain seeds n known group state)
    (left : 16 * group < n) (searched : (seeds group).toNat < 0x7FFF) :
    Accepts (state.call disctype).inbuf (seeds group).toNat :=
  (converting.block rfl).accepts (by omega) searched

private theorem within (converting : Converting disctype plain seeds n known group state)
    (left : 16 * group < n) (searched : (seeds group).toNat < 0x7FFF)
    (member : (seeds group).toNat ∈ known (group % 16)) :
    (state.call disctype).Within known := by
  intro j fits
  rw [fits.unique (converting.accepted left searched), converting.zone]
  exact member

private theorem rest_next (converting : Converting disctype plain seeds n known group state) :
    state.rest.drop 33024 =
      ((rawImage plain seeds).advance (33024 * (group + 1))).bytes (2064 * (n - 16 * (group + 1))) := by
  rw [converting.rest]
  by_cases more : 16 ≤ n - 16 * group
  · have split : 2064 * (n - 16 * group) = 33024 + 2064 * (n - 16 * (group + 1)) := by omega
    rw [split, Buffer.bytes_add, List.drop_left' (Buffer.length_bytes ..)]
    refine Buffer.bytes_congr fun a _ => ?_
    simp only [Buffer.advance_apply, Nat.mul_add, Nat.add_assoc, Nat.mul_one]
  · have ended : n - 16 * (group + 1) = 0 := by omega
    rw [ended, List.drop_eq_nil_of_le]
    · rfl
    · rw [Buffer.length_bytes]
      omega

private theorem userImage_group (disctype : UInt8) (plain : Nat → Buffer) (group : Nat) :
    userImage disctype (fun k => plain (16 * group + k)) =
      (userImage disctype plain).advance (32768 * group) := by
  funext a
  have quotient : (32768 * group + a) / 2048 = 16 * group + a / 2048 := by omega
  have offset : (32768 * group + a) % 2048 = a % 2048 := by omega
  rw [Buffer.advance_apply, userImage, userImage, quotient, offset]

private theorem bytes_zeroes {first second : Buffer} {length filled rest : Nat}
    (size : length = filled + rest) (same : ∀ a < filled, first a = second a)
    (zero : ∀ a, filled ≤ a → a < length → first a = 0) :
    first.bytes length = second.bytes filled ++ List.replicate rest 0 := by
  rw [size, Buffer.bytes_add, Buffer.bytes_congr same]
  congr 1
  refine List.eq_replicate_iff.mpr ⟨Buffer.length_bytes .., fun byte found => ?_⟩
  obtain ⟨a, member, rfl⟩ := List.mem_map.mp found
  have below := List.mem_range.mp member
  exact zero (filled + a) (Nat.le_add_right _ _) (size ▸ Nat.add_lt_add_left below filled)

/-- A whole block goes to the output file. -/
theorem next (converting : Converting disctype plain seeds n known group state)
    {files : ConversionFiles}
    (writes : ∀ content bytes, files.fwrite content bytes = (content ++ bytes, false))
    (whole : 16 * (group + 1) ≤ n) (searched : (seeds group).toNat < 0x7FFF)
    (member : (seeds group).toNat ∈ known (group % 16)) :
    Converting disctype plain seeds n known (group + 1) (convertBlock disctype files state) := by
  have block := converting.block (by omega : min 16 (n - 16 * group) = 16)
  have within := converting.within (by omega) searched member
  obtain ⟨out, outfile, fit⟩ := convertBlock_direct writes converting.fit within rfl
  have success := (block.directFrame_out_iff (by decide) (Nat.le_refl 16) searched disctype
    state.bOut).mpr (.inl rfl)
  have written : (directFrame disctype (readPadded state.rest state.bIn) state.bOut).bout.bytes 32768 =
      ((userImage disctype plain).advance (32768 * group)).bytes 32768 := by
    rw [← userImage_group]
    refine Buffer.bytes_congr fun a below => ?_
    rw [block.directFrame_bout (by decide) searched (.inl rfl) disctype state.bOut below, if_pos below]
  constructor
  · exact converting.rest_next
  · have sector : (convertBlock disctype files state).s = state.s + 16 := rfl
    rw [sector, converting.sector, Nat.mul_add, UInt32.ofNat_add]
    rfl
  · exact out.trans success
  · rw [outfile, if_pos success, written, converting.outfile, Nat.mul_add, Buffer.bytes_add]
  · exact fit
  · have ended := (state.call disctype).outcome converting.fit.formed
    intro earlier before
    obtain before | rfl := Nat.lt_succ_iff_lt_or_eq.mp before
    · exact ended.keeps (converting.met earlier before)
    · have accepted := converting.accepted (by omega) searched
      have direct := ended.direct converting.fit.enabled
        ((state.call disctype).not_crowded converting.fit.roomy converting.fit.short within)
      rw [← converting.zone]
      exact ended.knows ((congrArg Frame.out direct).trans success) accepted

/-- A short last block is padded and taken if its seed is 0, else it is refused. -/
theorem last (converting : Converting disctype plain seeds n known group state)
    {files : ConversionFiles}
    (writes : ∀ content bytes, files.fwrite content bytes = (content ++ bytes, false))
    (left : 16 * group < n) (short : n < 16 * (group + 1)) (searched : (seeds group).toNat < 0x7FFF)
    (member : (seeds group).toNat ∈ known (group % 16)) :
    (convertBlock disctype files state).rest = [] ∧
      (seeds group = 0#15 → (convertBlock disctype files state).out = true ∧
        (convertBlock disctype files state).outfile = (userImage disctype plain).bytes (2048 * n) ++
          List.replicate (2048 * (16 * (group + 1) - n)) 0) ∧
      (seeds group ≠ 0#15 → (convertBlock disctype files state).out = false ∧
        (convertBlock disctype files state).outfile =
          (userImage disctype plain).bytes (32768 * group)) := by
  have block := converting.block (by omega : min 16 (n - 16 * group) = n - 16 * group)
  have within := converting.within left searched member
  obtain ⟨out, outfile, -⟩ := convertBlock_direct writes converting.fit within rfl
  have success := block.directFrame_out_iff (by omega) (by omega) searched disctype state.bOut
  refine ⟨?_, fun silent => ?_, fun loud => ?_⟩
  · have ended : n - 16 * (group + 1) = 0 := by omega
    have rest := converting.rest_next
    rw [ended] at rest
    exact rest
  · have sound := success.mpr (.inr silent)
    refine ⟨out.trans sound, ?_⟩
    have written : (directFrame disctype (readPadded state.rest state.bIn) state.bOut).bout.bytes 32768 =
        ((userImage disctype plain).advance (32768 * group)).bytes (2048 * (n - 16 * group)) ++
          List.replicate (2048 * (16 * (group + 1) - n)) 0 := by
      rw [← userImage_group]
      refine bytes_zeroes (by omega) (fun a below => ?_) (fun a lower upper => ?_)
      · rw [block.directFrame_bout (by omega) searched (.inr silent) disctype state.bOut (by omega),
          if_pos below]
      · rw [block.directFrame_bout (by omega) searched (.inr silent) disctype state.bOut upper,
          if_neg (Nat.not_lt.mpr lower)]
    have whole : 2048 * n = 32768 * group + 2048 * (n - 16 * group) := by omega
    rw [outfile, if_pos sound, written, converting.outfile, whole, Buffer.bytes_add, List.append_assoc]
  · have refused : (directFrame disctype (readPadded state.rest state.bIn) state.bOut).out = false := by
      refine Bool.eq_false_iff.mpr fun sound => ?_
      obtain full | silent := success.mp sound
      · omega
      · exact loud silent
    refine ⟨out.trans refused, ?_⟩
    rw [outfile, refused, if_neg Bool.false_ne_true, converting.outfile]

end Converting

/-- The result for an image of `n` sectors: all whole blocks, and the last short one with
its padding unless its seed makes the padding fail the check. -/
structure Padded (disctype : UInt8) (plain : Nat → Buffer) (seeds : Nat → BitVec 15) (n : Nat)
    (out : Bool) (outfile : List UInt8) : Prop where
  converted : n % 16 = 0 ∨ seeds (n / 16) = 0#15 → out = true ∧
    outfile = (userImage disctype plain).bytes (2048 * n) ++
      List.replicate (2048 * ((16 - n % 16) % 16)) 0
  refused : n % 16 ≠ 0 → seeds (n / 16) ≠ 0#15 → out = false ∧
    outfile = (userImage disctype plain).bytes (32768 * (n / 16))

section Image

variable {disctype : UInt8} {plain : Nat → Buffer} {seeds : Nat → BitVec 15} {n : Nat}
  {known : Nat → List Nat} {files : ConversionFiles}

private theorem convertLoop_stopped (rounds : Nat) {state : Conversion}
    (stopped : state.rest = [] ∨ state.out = false) :
    convertLoop disctype files rounds state = state := by
  cases rounds with
  | zero => rfl
  | succ rounds => rw [convertLoop, if_pos stopped]

private theorem Converting.rounds_left {group rounds : Nat} {state : Conversion}
    (converting : Converting disctype plain seeds n known group state) (left : 16 * group < n)
    (enough : state.rest.length ≤ rounds) : ∃ more, rounds = more + 1 := by
  refine Nat.exists_eq_succ_of_ne_zero fun none => ?_
  rw [none, converting.rest, Buffer.length_bytes] at enough
  omega

private theorem Converting.goes_on {group rounds : Nat} {state : Conversion}
    (converting : Converting disctype plain seeds n known group state) (left : 16 * group < n)
    (enough : state.rest.length ≤ rounds + 1) :
    convertLoop disctype files (rounds + 1) state =
        convertLoop disctype files rounds (convertBlock disctype files state) ∧
      (convertBlock disctype files state).rest.length ≤ rounds := by
  have length : state.rest.length = 2064 * (n - 16 * group) := by
    rw [converting.rest, Buffer.length_bytes]
  constructor
  · rw [convertLoop, if_neg]
    rintro (empty | failed)
    · rw [empty, List.length_nil] at length
      omega
    · exact absurd (converting.going.symm.trans failed) (by decide)
  · have dropped : (convertBlock disctype files state).rest.length = state.rest.length - 33024 :=
      List.length_drop
    omega

/-- The loop comes to every group before which each zone has met at most four seeds. -/
private theorem convertLoop_reaches
    (writes : ∀ content bytes, files.fwrite content bytes = (content ++ bytes, false))
    (blocks : Nat) {group rounds : Nat} {state : Conversion}
    (searched : ∀ later < group + blocks, (seeds later).toNat < 0x7FFF)
    (member : ∀ later < group + blocks, (seeds later).toNat ∈ known (later % 16))
    (ahead : 16 * (group + blocks) ≤ n)
    (converting : Converting disctype plain seeds n known group state)
    (enough : state.rest.length ≤ rounds) :
    ∃ rounds' state', Converting disctype plain seeds n known (group + blocks) state' ∧
      state'.rest.length ≤ rounds' ∧
      convertLoop disctype files rounds state = convertLoop disctype files rounds' state' := by
  induction blocks generalizing group rounds state with
  | zero => exact ⟨rounds, state, converting, enough, rfl⟩
  | succ blocks ih =>
      have left : 16 * group < n := by omega
      obtain ⟨more, rfl⟩ := converting.rounds_left left enough
      obtain ⟨step, enough'⟩ := converting.goes_on left enough
      have next := converting.next writes (by omega) (searched group (by omega))
        (member group (by omega))
      have shift : group + 1 + blocks = group + (blocks + 1) := Nat.add_right_comm group 1 blocks
      rw [step, ← shift]
      exact ih (fun later below => searched later (shift ▸ below))
        (fun later below => member later (shift ▸ below)) (shift ▸ ahead) next enough'

theorem convertLoop_image
    (writes : ∀ content bytes, files.fwrite content bytes = (content ++ bytes, false))
    (searched : ∀ group, 16 * group < n → (seeds group).toNat < 0x7FFF)
    (member : ∀ group, 16 * group < n → (seeds group).toNat ∈ known (group % 16))
    {rounds : Nat} {state : Conversion}
    (converting : Converting disctype plain seeds n known 0 state)
    (enough : state.rest.length ≤ rounds) :
    Padded disctype plain seeds n (convertLoop disctype files rounds state).out
      (convertLoop disctype files rounds state).outfile := by
  obtain ⟨rounds', state', reached, enough', same⟩ := convertLoop_reaches writes
    (n / 16) (fun later below => searched later (by omega)) (fun later below => member later (by omega))
    (by omega) converting enough
  rw [Nat.zero_add] at reached
  rw [same]
  by_cases whole : n % 16 = 0
  · have ended : n - 16 * (n / 16) = 0 := by omega
    have rest := reached.rest
    rw [ended] at rest
    rw [convertLoop_stopped rounds' (.inl rest)]
    refine ⟨fun _ => ⟨reached.going, ?_⟩, fun part => absurd whole part⟩
    have size : 32768 * (n / 16) = 2048 * n := by omega
    rw [reached.outfile, size, whole]
    exact (List.append_nil _).symm
  · have left : 16 * (n / 16) < n := by omega
    obtain ⟨more, rfl⟩ := reached.rounds_left left enough'
    obtain ⟨ended, silent, loud⟩ := reached.last writes left (by omega) (searched _ left)
      (member _ left)
    rw [(reached.goes_on left enough').1, convertLoop_stopped more (.inl ended)]
    have padding : 16 * (n / 16 + 1) - n = (16 - n % 16) % 16 := by omega
    rw [padding] at silent
    exact ⟨fun sound => silent (sound.resolve_left whole), fun _ => loud⟩

private theorem converting_start (memory : Unscrambler) (currentSector : UInt32) (bIn bOut : Buffer)
    (short : ∀ zone < 16, (known zone).length ≤ 4) :
    Converting disctype plain seeds n known 0
      { rest := (rawImage plain seeds).bytes (2064 * n), u := unscramblerNew memory, s := 0
        out := true, bIn := bIn, bOut := bOut, outfile := [], currentSector := currentSector } where
  rest := by rw [Nat.mul_zero, Buffer.advance_zero, Nat.sub_zero]
  sector := rfl
  going := rfl
  outfile := rfl
  fit := ⟨unscramblerNew_formed memory, rfl, unscramblerNew_zonesRoomy memory known, short⟩
  met := nofun

end Image

private theorem unscrambleFile_opened (disctype : UInt8) (u : Unscrambler) {files : ConversionFiles}
    {bytes : List UInt8} (input : files.infile = some bytes) (opens : files.outfileOpens = true)
    (currentSector : UInt32) (bIn bOut : Buffer) {state : Conversion}
    (ended : convertLoop disctype files bytes.length
      { rest := bytes, u := u, s := 0, out := true, bIn := bIn, bOut := bOut, outfile := []
        currentSector := currentSector } = state) :
    (unscramblerUnscrambleFile disctype u files currentSector bIn bOut).out = state.out ∧
      (unscramblerUnscrambleFile disctype u files currentSector bIn bOut).outfile =
        some state.outfile := by
  rw [unscramblerUnscrambleFile, input]
  dsimp only
  rw [if_pos opens, ended]
  exact ⟨rfl, rfl⟩

private theorem unscrambleFile_padded {disctype : UInt8} {plain : Nat → Buffer}
    {seeds : Nat → BitVec 15} {n : Nat} {known : Nat → List Nat}
    (searched : ∀ group, 16 * group < n → (seeds group).toNat < 0x7FFF)
    (short : ∀ zone < 16, (known zone).length ≤ 4)
    (member : ∀ group, 16 * group < n → (seeds group).toNat ∈ known (group % 16))
    (memory : Unscrambler) {files : ConversionFiles}
    (input : files.infile = some ((rawImage plain seeds).bytes (2064 * n)))
    (opens : files.outfileOpens = true)
    (writes : ∀ content bytes, files.fwrite content bytes = (content ++ bytes, false))
    (currentSector : UInt32) (bIn bOut : Buffer) :
    ∃ content, (unscramblerUnscrambleFile disctype (unscramblerNew memory) files currentSector bIn
        bOut).outfile = some content ∧
      Padded disctype plain seeds n (unscramblerUnscrambleFile disctype (unscramblerNew memory)
        files currentSector bIn bOut).out content := by
  obtain ⟨out, outfile⟩ := unscrambleFile_opened disctype (unscramblerNew memory) input opens
    currentSector bIn bOut rfl
  rw [out, outfile]
  exact ⟨_, rfl, convertLoop_image writes searched member
    (converting_start memory currentSector bIn bOut short) (Nat.le_refl _)⟩

/-- With at most four seeds in each zone an image is converted block by block. -/
theorem unscrambleFile_image (disctype : UInt8) (plain : Nat → Buffer) (seeds : Nat → BitVec 15)
    (n : Nat) (searched : ∀ group, 16 * group < n → (seeds group).toNat < 0x7FFF)
    (few : ∀ zone < 16, ∃ known : List Nat, known.length ≤ 4 ∧
      ∀ group, 16 * group < n → group % 16 = zone → (seeds group).toNat ∈ known)
    (memory : Unscrambler) (files : ConversionFiles)
    (input : files.infile = some ((rawImage plain seeds).bytes (2064 * n)))
    (opens : files.outfileOpens = true)
    (writes : ∀ content bytes, files.fwrite content bytes = (content ++ bytes, false))
    (currentSector : UInt32) (bIn bOut : Buffer) :
    ∃ content, (unscramblerUnscrambleFile disctype (unscramblerNew memory) files currentSector bIn
        bOut).outfile = some content ∧
      Padded disctype plain seeds n (unscramblerUnscrambleFile disctype (unscramblerNew memory)
        files currentSector bIn bOut).out content := by
  choose! known short member using few
  exact unscrambleFile_padded searched short
    (fun group left => member _ (Nat.mod_lt _ (by decide)) group left rfl) memory input opens writes
    currentSector bIn bOut

/-- Five zero sectors scrambled with seed 0. -/
theorem unscrambleFile_image_five :
    ∃ content, (unscramblerUnscrambleFile 3 (unscramblerNew ⟨fun _ => ⟨0, fun _ => 0⟩, false⟩)
        ⟨some ((rawImage (fun _ _ => 0) fun _ => 0#15).bytes (2064 * 5)), true,
          fun content bytes => (content ++ bytes, false)⟩ 0 (fun _ => 0) (fun _ => 0)).outfile =
        some content ∧
      Padded 3 (fun _ _ => 0) (fun _ => 0#15) 5
        (unscramblerUnscrambleFile 3 (unscramblerNew ⟨fun _ => ⟨0, fun _ => 0⟩, false⟩)
          ⟨some ((rawImage (fun _ _ => 0) fun _ => 0#15).bytes (2064 * 5)), true,
            fun content bytes => (content ++ bytes, false)⟩ 0 (fun _ => 0) (fun _ => 0)).out
        content := by
  refine unscrambleFile_image 3 _ _ 5 (fun _ _ => by decide) (fun _ _ => ⟨[0], by decide, ?_⟩) _ _ rfl
    rfl (fun _ _ => rfl) 0 _ _
  exact fun _ _ _ => List.mem_singleton.mpr rfl

/-! ## Images whose sector count changes -/

/-- The conversion writes the user data of all sectors and nothing else. -/
def KeepsSectors (disctype : UInt8) (plain : Nat → Buffer) (n : Nat) (converted : Converted) :
    Prop :=
  converted.out = true ∧ converted.outfile = some ((userImage disctype plain).bytes (2048 * n))

/-- Every sixteenth group has a seed of its own. -/
def fiveSeeds (group : Nat) : BitVec 15 :=
  if group % 16 = 15 then BitVec.ofNat 15 (group / 16 + 1) else 0#15

def healthyFiles (image : List UInt8) : ConversionFiles :=
  ⟨some image, true, fun content bytes => (content ++ bytes, false)⟩

section FiveSeeds

variable {u : Unscrambler} {inbuf : Buffer}

/-- Zone 15 has no entry for a fifth seed. -/
private theorem crowded_of_knows (known : ∀ j, 1 ≤ j → j ≤ 4 → Knows u 15 j)
    (accepted : Accepts inbuf 5) : Crowded u 15 inbuf := by
  have apart : ∀ {i k : Nat}, (u.seeds i).seed ≠ (u.seeds k).seed → i ≠ k := by
    rintro i _ differ rfl
    exact differ rfl
  obtain ⟨i1, lower1, upper1, seed1⟩ := known 1 (by decide) (by decide)
  obtain ⟨i2, lower2, upper2, seed2⟩ := known 2 (by decide) (by decide)
  obtain ⟨i3, lower3, upper3, seed3⟩ := known 3 (by decide) (by decide)
  obtain ⟨i4, lower4, upper4, seed4⟩ := known 4 (by decide) (by decide)
  have apart12 := @apart i1 i2 (by rw [seed1, seed2]; decide)
  have apart13 := @apart i1 i3 (by rw [seed1, seed3]; decide)
  have apart14 := @apart i1 i4 (by rw [seed1, seed4]; decide)
  have apart23 := @apart i2 i3 (by rw [seed2, seed3]; decide)
  have apart24 := @apart i2 i4 (by rw [seed2, seed4]; decide)
  have apart34 := @apart i3 i4 (by rw [seed3, seed4]; decide)
  have other : ∀ j < 5, testSeed inbuf j = false := fun j below =>
    Bool.eq_false_iff.mpr fun passes => Nat.ne_of_lt below
      (Accepts.unique ⟨Nat.lt_trans below (by decide), passes⟩ accepted)
  intro i lower upper
  have here : i = i1 ∨ i = i2 ∨ i = i3 ∨ i = i4 := by omega
  rw [TSeed.Skipped]
  rcases here with rfl | rfl | rfl | rfl
  · exact ⟨by rw [seed1]; decide, by rw [seed1]; exact other 1 (by decide)⟩
  · exact ⟨by rw [seed2]; decide, by rw [seed2]; exact other 2 (by decide)⟩
  · exact ⟨by rw [seed3]; decide, by rw [seed3]; exact other 3 (by decide)⟩
  · exact ⟨by rw [seed4]; decide, by rw [seed4]; exact other 4 (by decide)⟩

private def fourKnown (zone : Nat) : List Nat := if zone = 15 then [1, 2, 3, 4] else [0]

private theorem fiveSeeds_toNat {group : Nat} (inside : group < 80) :
    (fiveSeeds group).toNat = if group % 16 = 15 then group / 16 + 1 else 0 := by
  rw [fiveSeeds]
  split
  · rw [BitVec.toNat_ofNat, Nat.mod_eq_of_lt (by omega)]
  · rfl

private theorem fiveSeeds_known {group : Nat} (inside : group < 79) :
    (fiveSeeds group).toNat ∈ fourKnown (group % 16) := by
  rw [fiveSeeds_toNat (by omega), fourKnown]
  split
  · have small : group / 16 < 4 := by omega
    generalize group / 16 = round at small
    have cases : round = 0 ∨ round = 1 ∨ round = 2 ∨ round = 3 := by omega
    rcases cases with rfl | rfl | rfl | rfl <;> decide
  · decide

private theorem fiveSeeds_refused (plain : Nat → Buffer) (memory : Unscrambler) {n : Nat}
    (size : n = 1280) (currentSector : UInt32) (bIn bOut : Buffer) :
    (unscramblerUnscrambleFile 3 (unscramblerNew memory)
      (healthyFiles ((rawImage plain fiveSeeds).bytes (2064 * n))) currentSector bIn bOut).out =
        false := by
  generalize opened : healthyFiles ((rawImage plain fiveSeeds).bytes (2064 * n)) = files
  have writes : ∀ content bytes, files.fwrite content bytes = (content ++ bytes, false) := by
    rintro _ _
    rw [← opened, healthyFiles]
  have searched : ∀ group < 80, (fiveSeeds group).toNat < 0x7FFF := by
    intro group inside
    rw [fiveSeeds_toNat inside]
    split <;> omega
  obtain ⟨rounds, state, reached, enough, same⟩ :=
    @convertLoop_reaches 3 plain fiveSeeds n fourKnown files writes 79 0 _ _
      (fun later below => searched later (by omega)) (fun later below => fiveSeeds_known (by omega))
      (by omega) (converting_start memory currentSector bIn bOut fun zone _ => by
        rw [fourKnown]; split <;> decide) (Nat.le_refl _)
  have ended : (convertLoop 3 files rounds state).out = false := by
    obtain ⟨more, rfl⟩ := reached.rounds_left (by omega) enough
    have accepted := reached.accepted (by omega) (searched 79 (by decide))
    have crowded : Crowded state.u (state.call 3).zone (state.call 3).inbuf := by
      rw [reached.zone]
      refine crowded_of_knows (fun j lower upper => ?_) accepted
      obtain ⟨round, rfl⟩ := Nat.exists_eq_add_of_le' lower
      have met := reached.met (16 * round + 15) (by omega)
      rw [fiveSeeds_toNat (by omega), if_pos (by omega)] at met
      have zone : (16 * round + 15) % 16 = 15 := by omega
      have number : (16 * round + 15) / 16 + 1 = round + 1 := by omega
      rwa [zone, number] at met
    have shown := ((state.call 3).outcome reached.fit.formed).crowded crowded
    have refused : (convertBlock 3 files state).out = false := by
      have out : ((state.call 3).on state.u).out = false := congrArg Frame.out shown
      have failed : (if ((state.call 3).on state.u).out then
          files.fwrite state.outfile (((state.call 3).on state.u).outbuf.bytes 32768)
          else (state.outfile, true)) = (state.outfile, true) := by
        rw [out, if_neg Bool.false_ne_true]
      exact congrArg (fun result : List UInt8 × Bool => !result.2) failed
    rw [(reached.goes_on (by omega) enough).1, convertLoop_stopped more (.inr refused), refused]
  have input : files.infile = some ((rawImage plain fiveSeeds).bytes (2064 * n)) := by
    rw [← opened, healthyFiles]
  have opens : files.outfileOpens = true := by rw [← opened, healthyFiles]
  obtain ⟨out, -⟩ := unscrambleFile_opened 3 (unscramblerNew memory) input opens currentSector bIn
    bOut same
  exact out.trans ended

end FiveSeeds

/-- One zero sector becomes 16, and an image of whole blocks fails at the fifth seed of
a zone. -/
theorem conversion_keeps_no_count :
    ¬ KeepsSectors 3 (fun _ _ => 0) 1
        (unscramblerUnscrambleFile 3 (unscramblerNew ⟨fun _ => ⟨0, fun _ => 0⟩, false⟩)
          (healthyFiles ((rawImage (fun _ _ => 0) fun _ => 0#15).bytes (2064 * 1))) 0 (fun _ => 0)
          (fun _ => 0)) ∧
      ¬ KeepsSectors 3 (fun _ _ => 0) 1280
        (unscramblerUnscrambleFile 3 (unscramblerNew ⟨fun _ => ⟨0, fun _ => 0⟩, false⟩)
          (healthyFiles ((rawImage (fun _ _ => 0) fiveSeeds).bytes (2064 * 1280))) 0 (fun _ => 0)
          (fun _ => 0)) := by
  constructor
  · rintro ⟨-, kept⟩
    obtain ⟨content, written, padded⟩ := @unscrambleFile_padded 3 (fun _ _ => 0) (fun _ => 0#15) 1
      (fun _ => [0]) (fun _ _ => by decide) (fun _ _ => by decide)
      (fun _ _ => List.mem_singleton.mpr rfl) ⟨fun _ => ⟨0, fun _ => 0⟩, false⟩
      (healthyFiles ((rawImage (fun _ _ => 0) fun _ => 0#15).bytes (2064 * 1))) rfl rfl
      (fun _ _ => rfl) 0 (fun _ => 0) (fun _ => 0)
    have same := (padded.converted (.inr rfl)).2.symm.trans
      (Option.some.inj (written.symm.trans kept))
    have size := congrArg List.length same
    rw [List.length_append, List.length_replicate, Buffer.length_bytes] at size
    omega
  · rintro ⟨success, -⟩
    have refused := fiveSeeds_refused (fun _ _ => 0) ⟨fun _ => ⟨0, fun _ => 0⟩, false⟩ rfl 0
      (fun _ => 0) (fun _ => 0)
    exact absurd (success.symm.trans refused) (by decide)

end Friidump
