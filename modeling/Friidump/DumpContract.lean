import Friidump.CacheAddressing
import Friidump.ReedSolomonCorrection

/-!
# The contract of the memory dump

The sector cache of a drive as a sequence of sectors of 2064 bytes, in either
of the two layouts, and requests for which a dump brings its bytes.
-/

set_option autoImplicit false

namespace Friidump

/-! ## Two layouts -/

def MemdumpFunc.stride : MemdumpFunc → Nat
  | .vanilla2384 | .liteon => 2384
  | _ => 2064

/-- Where byte `a` of the sectors lies in rows of 182 bytes, twelve to a sector. -/
def rowPlace (a : Nat) : Nat := 2384 * (a / 2064) + 182 * (a % 2064 / 172) + a % 2064 % 172

def MemdumpFunc.cached (f : MemdumpFunc) (memory : Buffer) : Buffer := fun a =>
  match f with
  | .vanilla2384 | .liteon => memory (rowPlace a)
  | _ => memory a

theorem MemdumpFunc.bytewise_or_raw (f : MemdumpFunc) : f.Bytewise ∨ f = .vanilla2384 ∨ f = .liteon := by
  cases f <;> simp [MemdumpFunc.Bytewise]

theorem MemdumpFunc.Bytewise.stride_eq {f : MemdumpFunc} (bytewise : f.Bytewise) : f.stride = 2064 := by
  rcases bytewise with rfl | rfl | rfl <;> rfl

theorem MemdumpFunc.Bytewise.cached_eq {f : MemdumpFunc} (bytewise : f.Bytewise) (memory : Buffer) :
    f.cached memory = memory := by
  rcases bytewise with rfl | rfl | rfl <;> rfl

theorem rowPlace_sector (s a : Nat) : rowPlace (2064 * s + a) = 2384 * s + rowPlace a := by
  rw [rowPlace, rowPlace, Nat.mul_add_div (by decide), Nat.mul_add_mod, Nat.mul_add, Nat.add_assoc,
    Nat.add_assoc, Nat.add_assoc]

theorem rowPlace_inside {n a : Nat} (inside : a < 2064 * n) : rowPlace a < 2384 * n := by
  have sector : a / 2064 < n := Nat.div_lt_of_lt_mul inside
  have within := Nat.mod_lt a (by decide : 0 < 2064)
  rw [rowPlace]
  omega

theorem rowPlace_head (s : Nat) {i : Nat} (head : i < 172) : rowPlace (2064 * s + i) = 2384 * s + i := by
  have within : i < 2064 := Nat.lt_trans head (by decide)
  rw [rowPlace_sector, rowPlace, Nat.div_eq_of_lt within, Nat.mod_eq_of_lt within,
    Nat.div_eq_of_lt head, Nat.mod_eq_of_lt head, Nat.mul_zero, Nat.zero_add]

/-! ## The rows of one sector -/

theorem copyRows_apply (buf tmp : Buffer) (dstOffset srcOffset a : Nat) :
    copyRows buf tmp dstOffset srcOffset a =
      if dstOffset ≤ a ∧ a < dstOffset + 2064 then
        tmp (srcOffset + 182 * ((a - dstOffset) / 172) + (a - dstOffset) % 172)
      else buf a := by
  have rows : ∀ n, (List.range n).foldl (fun buf row =>
      buf.memcpy (dstOffset + 172 * row) (tmp.advance (srcOffset + 182 * row)) 172) buf a =
      if dstOffset ≤ a ∧ a < dstOffset + 172 * n then
        tmp (srcOffset + 182 * ((a - dstOffset) / 172) + (a - dstOffset) % 172)
      else buf a := by
    intro n
    induction n with
    | zero =>
        rw [if_neg (by omega)]
        rfl
    | succ n ih =>
        rw [List.range_succ, List.foldl_append, List.foldl_cons, List.foldl_nil, Buffer.memcpy, ih]
        by_cases here : dstOffset + 172 * n ≤ a ∧ a < dstOffset + 172 * n + 172
        · have row : (a - dstOffset) / 172 = n := by omega
          rw [if_pos here, if_pos (by omega), row, Buffer.advance_apply]
          congr 1
          omega
        · rw [if_neg here]
          exact if_congr (by omega) rfl rfl
  exact rows 12

/-- A sector in sequence, in which `decode` finds nothing to repair, is taken out. -/
theorem extractSectors_round {decode : Buffer → Buffer} {tmp : Buffer} {srcOffset : Nat}
    {first cnt : UInt32} (sound : decode (tmp.advance srcOffset) = tmp.advance srcOffset)
    (next : first ≠ 0x55555555 → sectorNumber (tmp.advance srcOffset) = first + cnt)
    (left dstOffset : Nat) (buf : Buffer) :
    extractSectors decode (left + 1) srcOffset dstOffset first cnt tmp buf =
      extractSectors decode left (srcOffset + 2384) (dstOffset + 2064)
        (if first = 0x55555555 then sectorNumber (tmp.advance srcOffset) else first) (cnt + 1) tmp
        (copyRows buf tmp dstOffset srcOffset) := by
  have accepted : ¬ (first ≠ 0x55555555 ∧ sectorNumber (tmp.advance srcOffset) ≠ first + cnt) :=
    fun broken => broken.2 (next broken.1)
  rw [extractSectors]
  dsimp only
  rw [if_neg accepted, sound, Buffer.splice_self]

theorem copyRows_sector (buf tmp : Buffer) (s n : Nat) (inside : s < n) (a : Nat) :
    (if 2064 * (s + 1) ≤ a ∧ a < 2064 * n then tmp (rowPlace a)
      else copyRows buf tmp (2064 * s) (2384 * s) a) =
      if 2064 * s ≤ a ∧ a < 2064 * n then tmp (rowPlace a) else buf a := by
  rw [copyRows_apply]
  by_cases here : 2064 * s ≤ a ∧ a < 2064 * s + 2064
  · obtain ⟨i, rfl⟩ := Nat.exists_eq_add_of_le here.1
    have within : i < 2064 := Nat.lt_of_add_lt_add_left here.2
    rw [if_neg (by omega), if_pos here, if_pos (by omega), rowPlace_sector, rowPlace,
      Nat.div_eq_of_lt within, Nat.mod_eq_of_lt within, Nat.add_sub_cancel_left, Nat.mul_zero,
      Nat.zero_add, Nat.add_assoc]
  · rw [if_neg here]
    exact if_congr (by omega) rfl rfl

/-! ### A run over the sectors

The repair of a sector changes its first row alone, so that what a round sees is what the
drive sent. -/

section Rounds

variable {decode : Buffer → Buffer} {tmp sent : Buffer}

private theorem extractSectors_succ (left srcOffset dstOffset : Nat) (first cnt : UInt32) (buf : Buffer)
    (accepted : ¬ (first ≠ 0x55555555 ∧ sectorNumber (tmp.advance srcOffset) ≠ first + cnt)) :
    extractSectors decode (left + 1) srcOffset dstOffset first cnt tmp buf =
      extractSectors decode left (srcOffset + 2384) (dstOffset + 2064)
        (if first = 0x55555555 then sectorNumber (tmp.advance srcOffset) else first) (cnt + 1)
        (tmp.splice srcOffset (decode (tmp.advance srcOffset)))
        (copyRows buf (tmp.splice srcOffset (decode (tmp.advance srcOffset))) dstOffset srcOffset) := by
  rw [extractSectors]
  dsimp only
  rw [if_neg accepted]

private theorem splice_advance (behind : ∀ tmp m, 182 ≤ m → decode tmp m = tmp m) {s : Nat}
    (same : tmp.advance (2384 * s) = sent.advance (2384 * s)) :
    (tmp.splice (2384 * s) (decode (tmp.advance (2384 * s)))).advance (2384 * (s + 1)) =
      sent.advance (2384 * (s + 1)) := by
  funext i
  have place : 2384 * (s + 1) + i = 2384 * s + (2384 + i) := by omega
  rw [Buffer.advance_apply, Buffer.advance_apply, place, Buffer.splice_above _ _ (Nat.le_add_right _ _),
    Nat.add_sub_cancel_left, behind _ _ (by omega), same, Buffer.advance_apply]

/-- The sectors whose numbers follow each other pass. -/
theorem extractSectors_passes (behind : ∀ tmp m, 182 ≤ m → decode tmp m = tmp m) {n : Nat}
    (following : ∀ s < n, sectorNumber (sent.advance (2384 * s)) = sectorNumber sent + s.toUInt32)
    (left s : Nat) (count : s + left = n) (first : UInt32)
    (known : first = if s = 0 then 0x55555555 else sectorNumber sent)
    (same : tmp.advance (2384 * s) = sent.advance (2384 * s)) (buf : Buffer) :
    (extractSectors decode left (2384 * s) (2064 * s) first s.toUInt32 tmp buf).1 = true := by
  induction left generalizing s first tmp buf with
  | zero => rfl
  | succ left ih =>
      have number := following s (by omega)
      rw [← same] at number
      have accepted : ¬ (first ≠ 0x55555555 ∧
          sectorNumber (tmp.advance (2384 * s)) ≠ first + s.toUInt32) := by
        rintro ⟨later, broken⟩
        by_cases start : s = 0
        · exact later (known.trans (if_pos start))
        · rw [known, if_neg start] at broken
          exact broken number
      rw [extractSectors_succ _ _ _ _ _ _ accepted, ← toUInt32_succ, ← Nat.mul_succ, ← Nat.mul_succ]
      refine ih (s + 1) (by omega) _ ?_ (splice_advance behind same) _
      rw [if_neg (Nat.succ_ne_zero s)]
      by_cases start : s = 0
      · have zero : tmp.advance (2384 * s) = sent := by
          rw [same, start, Nat.mul_zero, Buffer.advance_zero]
        rw [known, if_pos start, if_pos rfl, zero]
      · rw [known, if_neg start, if_neg (sectorNumber_ne_mark sent)]

/-- What the rounds leave: the rows of the sectors, the first one as repaired. -/
theorem extractSectors_apply (behind : ∀ tmp m, 182 ≤ m → decode tmp m = tmp m) (left s : Nat)
    (first cnt : UInt32) (same : tmp.advance (2384 * s) = sent.advance (2384 * s)) (buf : Buffer)
    (passed : (extractSectors decode left (2384 * s) (2064 * s) first cnt tmp buf).1 = true) (a : Nat) :
    (extractSectors decode left (2384 * s) (2064 * s) first cnt tmp buf).2 a =
      if 2064 * s ≤ a ∧ a < 2064 * (s + left) then
        decode (sent.advance (2384 * (a / 2064))) (rowPlace (a % 2064))
      else buf a := by
  induction left generalizing s first cnt tmp buf with
  | zero => exact (if_neg (by omega)).symm
  | succ left ih =>
      have accepted : ¬ (first ≠ 0x55555555 ∧
          sectorNumber (tmp.advance (2384 * s)) ≠ first + cnt) := by
        intro broken
        rw [extractSectors] at passed
        dsimp only at passed
        rw [if_pos broken] at passed
        cases passed
      rw [extractSectors_succ _ _ _ _ _ _ accepted, ← Nat.mul_succ, ← Nat.mul_succ] at passed ⊢
      rw [ih (s + 1) _ _ (splice_advance behind same) _ passed, copyRows_apply]
      by_cases here : 2064 * s ≤ a ∧ a < 2064 * s + 2064
      · obtain ⟨i, rfl⟩ := Nat.exists_eq_add_of_le here.1
        have within : i < 2064 := Nat.lt_of_add_lt_add_left here.2
        have sector : (2064 * s + i) / 2064 = s := by omega
        have byte : (2064 * s + i) % 2064 = i := by omega
        rw [if_neg (by omega), if_pos here, if_pos (by omega), sector, byte, Nat.add_sub_cancel_left,
          Nat.add_assoc, Buffer.splice_above _ _ (Nat.le_add_right _ _), Nat.add_sub_cancel_left, same,
          rowPlace, Nat.div_eq_of_lt within, Nat.mod_eq_of_lt within, Nat.mul_zero, Nat.zero_add]
      · rw [if_neg here]
        exact if_congr (by omega) rfl rfl

end Rounds

/-! ## A drive with sectors in its cache -/

/-- An offset or a size in the units of the layout, as the function computes it. -/
def MemdumpFunc.scaled (f : MemdumpFunc) (word : UInt32) : UInt32 :=
  match f with
  | .vanilla2384 | .liteon => word / 2064 * 0x950
  | _ => word

/-- Where the cache is addressed for an offset. -/
def MemdumpFunc.place (f : MemdumpFunc) (offset : Nat) : Nat :=
  match f with
  | .vanilla2384 | .liteon => 2384 * (offset / 2064)
  | _ => offset

/-- The check of the size. -/
def MemdumpFunc.Refuses (f : MemdumpFunc) (size : UInt32) : Prop :=
  size = 0 ∨ (if f = .liteon then 65534 else 65535) < f.scaled size

/-- The place in the cache that a command names: what its address field holds of the offset.
The cache of a Hitachi drive is mapped into the upper half of its memory. -/
def MemdumpFunc.named (f : MemdumpFunc) (offset : UInt32) : Option Nat :=
  match f with
  | .hitachi => if offset.toNat < 2 ^ 31 then some offset.toNat else none
  | .renesas => some offset.toNat
  | _ => some (offset.toNat % 2 ^ 24)

/-- The drive answers what a command names of its cache of so many sectors, whose numbers
have 24 bits and follow each other. -/
structure SectorCache {σ : Type} (env : Env σ) (f : MemdumpFunc) (memory : Buffer) (drive : σ)
    (sectors : Nat) : Prop where
  brings : ∀ offset size place, f.named offset = some place → size.toNat ≤ 65535 →
    place + size.toNat ≤ sectors * f.stride →
    Brings env drive (f.command offset size) size.toNat (memory.advance place)
  repairs : ∀ tmp, env.rsDecode tmp = (rsDecode tmp).1
  numbered : ∀ s < sectors, (sectorNumber ((f.cached memory).advance (2064 * s))).toNat =
    ((sectorNumber (f.cached memory)).toNat + s) % 2 ^ 24
  codewords : ¬ f.Bytewise → ∀ s < sectors, Codeword (memory.advance (2384 * s))

theorem MemdumpFunc.named_of_lt {f : MemdumpFunc} {offset : UInt32} (reached : offset.toNat < f.reach) :
    f.named offset = some offset.toNat := by
  cases f with
  | hitachi => exact if_pos reached
  | renesas => rfl
  | vanilla2064 => exact congrArg some (Nat.mod_eq_of_lt reached)
  | vanilla2384 => exact congrArg some (Nat.mod_eq_of_lt reached)
  | liteon => exact congrArg some (Nat.mod_eq_of_lt reached)

theorem MemdumpFunc.Bytewise.refuses_iff {f : MemdumpFunc} (bytewise : f.Bytewise) (size : UInt32) :
    f.Refuses size ↔ size = 0 ∨ 65535 < size := by
  rcases bytewise with rfl | rfl | rfl <;> exact Iff.rfl

theorem MemdumpFunc.Bytewise.place_eq {f : MemdumpFunc} (bytewise : f.Bytewise) (offset : Nat) :
    f.place offset = offset := by
  rcases bytewise with rfl | rfl | rfl <;> rfl

/-! ### Raw sectors -/

/-- What the two functions for raw sectors have in common. -/
structure RawDump {σ : Type} (env : Env σ) (f : MemdumpFunc) (decode : Buffer → Buffer)
    (sub1 sub2 : UInt8) (limit : UInt32) : Prop where
  memblock : f.memblock env = fun drive => rawDumpMemblock env drive decode sub1 sub2 limit
  command : f.command = fun offset size => [0x3C, sub1, sub2] ++ (msbToLsb offset).drop 1 ++
    (msbToLsb size).drop 1 ++ [0, 0, 0]
  base : f.base = 0
  cached : f.cached = fun memory a => memory (rowPlace a)
  stride : f.stride = 2384
  reach : f.reach = 2 ^ 24
  place : f.place = fun offset => 2384 * (offset / 2064)
  named : f.named = fun offset => some (offset.toNat % 2 ^ 24)
  refuses : ∀ size, f.Refuses size ↔ size = 0 ∨ limit < size / 2064 * 0x950
  raw : ¬ f.Bytewise
  repairs : (∀ tmp, env.rsDecode tmp = (rsDecode tmp).1) → ∀ tmp, Codeword tmp → decode tmp = tmp
  behind : (∀ tmp, env.rsDecode tmp = (rsDecode tmp).1) → ∀ tmp m, 182 ≤ m → decode tmp m = tmp m
  limited : 64368 ≤ limit.toNat ∧ limit.toNat ≤ 65535

theorem rawDump_of_not_bytewise {σ : Type} (env : Env σ) {f : MemdumpFunc} (raw : ¬ f.Bytewise) :
    ∃ decode sub1 sub2 limit, RawDump env f decode sub1 sub2 limit := by
  rcases f.bytewise_or_raw with bytewise | rfl | rfl
  · exact absurd bytewise raw
  · exact ⟨id, 0x02, 0x00, 65535, rfl, rfl, rfl, rfl, rfl, rfl, rfl, rfl, fun _ => Iff.rfl, raw,
      fun _ _ _ => rfl, fun _ _ _ _ => rfl, by decide⟩
  · refine ⟨env.rsDecode, 0x01, 0x01, 65534, rfl, rfl, rfl, rfl, rfl, rfl, rfl, rfl,
      fun _ => Iff.rfl, raw, ?_, ?_, by decide⟩
    · exact fun repairs tmp codeword =>
        (repairs tmp).trans (congrArg Prod.fst (rsDecode_codeword codeword))
    · exact fun repairs tmp m beyond => (congrFun (repairs tmp) m).trans (rsDecode_behind tmp beyond)

theorem rawSize_toNat (word : UInt32) (small : word.toNat / 2064 * 2384 < 2 ^ 32) :
    ((word / 2064) * 0x950).toNat = word.toNat / 2064 * 2384 := by
  rw [UInt32.toNat_mul, UInt32.toNat_div]
  exact Nat.mod_eq_of_lt small

section Raw

variable {σ : Type} {env : Env σ} {f : MemdumpFunc} {memory : Buffer} {drive : σ} {sectors : Nat}
  {offset size : UInt32} {decode : Buffer → Buffer} {sub1 sub2 : UInt8} {limit : UInt32}

/-- A raw dump that is not refused, by what the drive sent. -/
theorem RawDump.memblock_executed (raw : RawDump env f decode sub1 sub2 limit) {buf tmp : Buffer}
    {sense : ReqSense} (accepted : ¬ f.Refuses size)
    (executed : dvdExecuteCmd env drive (dvdInitCommand (f.command (offset / 2064 * 0x950)
        (size / 2064 * 0x950)) (env.stack drive 0) (size / 2064 * 0x950).toNat) false =
      { drive := drive, out := 0, buffer := tmp, sense := sense }) :
    f.memblock env drive (f.base + offset) size buf =
      { drive := drive
        out := if (extractSectors decode (((size / 2064 * 0x950).toNat + 2383) / 2384) 0 0 0x55555555 0
          tmp buf).1 then 0 else -3
        buf := (extractSectors decode (((size / 2064 * 0x950).toNat + 2383) / 2384) 0 0 0x55555555 0
          tmp buf).2 } := by
  rw [raw.command] at executed
  rw [raw.memblock, raw.base, UInt32.zero_add]
  dsimp only at executed ⊢
  rw [rawDumpMemblock]
  dsimp only
  rw [if_neg fun refused => accepted ((raw.refuses size).mpr refused), executed]

/-- Sectors taken from the answer to a dump of the cache are those of the cache. -/
theorem RawDump.extracted (raw : RawDump env f decode sub1 sub2 limit)
    (holds : SectorCache env f memory drive sectors) {o q : Nat} (within : o + q ≤ sectors)
    {tmp buf : Buffer} (passed : (extractSectors decode q 0 0 0x55555555 0
      (tmp.memcpy 0 (memory.advance (2384 * o)) (2384 * q)) buf).1 = true) {k : Nat}
    (inside : k < 2064 * q) :
    (extractSectors decode q 0 0 0x55555555 0
      (tmp.memcpy 0 (memory.advance (2384 * o)) (2384 * q)) buf).2 k =
        f.cached memory (2064 * o + k) := by
  have data := extractSectors_apply (raw.behind holds.repairs) q 0 0x55555555 0 rfl buf passed k
  have sector : k / 2064 < q := Nat.div_lt_of_lt_mul inside
  have byte := Nat.mod_lt k (by decide : 0 < 2064)
  have sent : ∀ m < 2384, ((tmp.memcpy 0 (memory.advance (2384 * o))
      (2384 * q)).advance (2384 * (k / 2064))) m = memory.advance (2384 * (o + k / 2064)) m := by
    intro m small
    rw [Buffer.advance_apply, Buffer.memcpy_inside _ _ (Nat.zero_le _) (by omega), Buffer.advance_apply,
      Buffer.advance_apply, Nat.sub_zero, Nat.mul_add, Nat.add_assoc]
  have sound : Codeword ((tmp.memcpy 0 (memory.advance (2384 * o))
      (2384 * q)).advance (2384 * (k / 2064))) :=
    (holds.codewords raw.raw (o + k / 2064) (by omega)).congr fun m row => (sent m (by omega)).symm
  have place : 2064 * o + k = 2064 * (o + k / 2064) + k % 2064 := by
    rw [Nat.mul_add, Nat.add_assoc, Nat.div_add_mod]
  have rows : rowPlace (k % 2064) < 2384 := by
    have last := @rowPlace_inside 1 (k % 2064) (by omega)
    omega
  refine data.trans ?_
  rw [if_pos (by omega), raw.repairs holds.repairs _ sound, sent _ rows, raw.cached]
  dsimp only
  rw [place, rowPlace_sector, Buffer.advance_apply]

/-- A raw dump of whole sectors that is not refused brings them. -/
theorem RawDump.memblock_succeeded (raw : RawDump env f decode sub1 sub2 limit)
    (holds : SectorCache env f memory drive sectors) (reached : f.place offset.toNat < f.reach)
    (inside : offset.toNat + size.toNat ≤ 2064 * sectors) (small : size.toNat ≤ 65535)
    (first : 2064 ∣ offset.toNat) (whole : 2064 ∣ size.toNat) (buf : Buffer)
    (succeeded : 0 ≤ (f.memblock env drive (f.base + offset) size buf).out) :
    (f.memblock env drive (f.base + offset) size buf).drive = drive ∧
      ∀ k < size.toNat, (f.memblock env drive (f.base + offset) size buf).buf k =
        f.cached memory (offset.toNat + k) := by
  obtain ⟨o, start⟩ := first
  obtain ⟨q, length⟩ := whole
  have rawOffset : (offset / 2064 * 0x950).toNat = 2384 * o := by
    rw [raw.place, raw.reach, start] at reached
    dsimp only at reached
    rw [rawSize_toNat _ (by omega), start]
    omega
  have rawSize : (size / 2064 * 0x950).toNat = 2384 * q := by
    rw [rawSize_toNat _ (by omega), length]
    omega
  have within : o + q ≤ sectors := by omega
  have named : f.named (offset / 2064 * 0x950) = some (2384 * o) := by
    rw [raw.place, raw.reach, start] at reached
    dsimp only at reached
    rw [raw.named]
    dsimp only
    rw [rawOffset]
    exact congrArg some (Nat.mod_eq_of_lt (by omega))
  by_cases refused : f.Refuses size
  · rw [raw.memblock] at succeeded
    dsimp only at succeeded
    rw [rawDumpMemblock] at succeeded
    dsimp only at succeeded
    rw [if_pos ((raw.refuses size).mp refused)] at succeeded
    exact absurd succeeded (by decide : ¬ (0 : Int) ≤ -2)
  · have limited := raw.limited.2
    have below : (size / 2064 * 0x950).toNat ≤ 65535 := by
      refine Nat.le_trans (UInt32.le_iff_toNat_le.mp (UInt32.not_lt.mp fun large => ?_)) limited
      exact refused ((raw.refuses size).mpr (.inr large))
    have room : 2384 * o + (size / 2064 * 0x950).toNat ≤ sectors * f.stride := by
      rw [raw.stride, rawSize]
      omega
    obtain ⟨sense, executed⟩ := (holds.brings _ _ _ named below room).executed (env.stack drive 0)
    have shown := @RawDump.memblock_executed _ _ _ _ offset size _ _ _ _ raw buf _ sense refused executed
    rw [rawSize] at shown
    have rounds : (2384 * q + 2383) / 2384 = q := by omega
    rw [rounds] at shown
    rw [shown] at succeeded ⊢
    have passed : (extractSectors decode q 0 0 0x55555555 0
        ((env.stack drive 0).memcpy 0 (memory.advance (2384 * o)) (2384 * q)) buf).1 = true := by
      by_contra broken
      dsimp only at succeeded
      rw [if_neg broken] at succeeded
      exact absurd succeeded (by decide : ¬ (0 : Int) ≤ -3)
    refine ⟨rfl, fun k below => ?_⟩
    rw [start]
    exact raw.extracted holds within passed (length ▸ below)

end Raw

/-! ## One block -/

section Blocks

variable {σ : Type} {env : Env σ} {f : MemdumpFunc} {memory : Buffer} {drive : σ} {sectors : Nat}
  {offset size : UInt32}

/-- Whole sectors, where the layout is one of rows. -/
def MemdumpFunc.Whole (f : MemdumpFunc) (offset size : Nat) : Prop :=
  f.Bytewise ∨ 2064 ∣ offset ∧ 2064 ∣ size

theorem SectorCache.memblock_whole (holds : SectorCache env f memory drive sectors)
    (reached : f.place offset.toNat < f.reach) (inside : offset.toNat + size.toNat ≤ 2064 * sectors)
    (small : size.toNat ≤ 65535) (whole : f.Whole offset.toNat size.toNat) (buf : Buffer)
    (succeeded : 0 ≤ (f.memblock env drive (f.base + offset) size buf).out) :
    (f.memblock env drive (f.base + offset) size buf).drive = drive ∧
      ∀ k < size.toNat, (f.memblock env drive (f.base + offset) size buf).buf k =
        f.cached memory (offset.toNat + k) := by
  by_cases bytewise : f.Bytewise
  · rw [bytewise.place_eq] at reached
    have brings := holds.brings offset size offset.toNat (MemdumpFunc.named_of_lt reached) small (by
      rw [bytewise.stride_eq, Nat.mul_comm]
      exact inside)
    obtain ⟨kept, data⟩ := bytewise.memblock_succeeded (fun _ => brings) buf succeeded
    refine ⟨kept, fun k below => ?_⟩
    rw [data, Buffer.memcpy_inside _ _ (Nat.zero_le k) (by omega), bytewise.cached_eq]
    rfl
  · obtain ⟨decode, sub1, sub2, limit, raw⟩ := rawDump_of_not_bytewise env bytewise
    obtain ⟨first, length⟩ := whole.resolve_left bytewise
    exact raw.memblock_succeeded holds reached inside small first length buf succeeded

/-! ## A run of blocks -/

theorem position_toNat {i : Nat} (room : i * size.toNat < 2 ^ 32) :
    (i.toUInt32 * size).toNat = i * size.toNat := by
  have word : i.toUInt32.toNat = i % 2 ^ 32 := rfl
  rw [UInt32.toNat_mul, word, Nat.mod_mul_mod]
  exact Nat.mod_eq_of_lt room

private theorem le_last {len i n : Nat} (inside : i < len) : i * n ≤ (len - 1) * n :=
  Nat.mul_le_mul_right n (Nat.le_sub_one_of_lt inside)

/-- The blocks still to come do not touch what lies before them. -/
theorem dumpMemLoop_kept {memblock : DumpMemblock σ} {len : Nat}
    (room : (len - 1) * size.toNat < 2 ^ 32) (left i : Nat) (count : i + left = len) (r : Int)
    (drive : σ) (buf : Buffer) {a : Nat} (before : a < i * size.toNat) :
    (dumpMemLoop memblock offset size left i.toUInt32 r drive buf).buf a = buf a := by
  induction left generalizing i r drive buf with
  | zero => rfl
  | succ left ih =>
      have inside : i < len := by omega
      have position := position_toNat (Nat.lt_of_le_of_lt (le_last inside) room)
      have later : a < (i + 1) * size.toNat := by
        rw [Nat.succ_mul]
        exact Nat.lt_add_right _ before
      rw [dumpMemLoop]
      rw [position, ← toUInt32_succ]
      split
      · exact Buffer.splice_below _ _ before
      · rw [ih (i + 1) (by omega) _ _ _ later]
        exact Buffer.splice_below _ _ before

theorem dumpMemLoop_data {memblock : DumpMemblock σ} {bytes : Buffer} {len : Nat}
    (room : (len - 1) * size.toNat < 2 ^ 32)
    (block : ∀ i < len, ∀ buf, 0 ≤ (memblock drive (offset + i.toUInt32 * size) size buf).out →
      (memblock drive (offset + i.toUInt32 * size) size buf).drive = drive ∧
        ∀ k < size.toNat, (memblock drive (offset + i.toUInt32 * size) size buf).buf k =
          bytes (i * size.toNat + k))
    (left i : Nat) (count : i + left = len) (r : Int) (buf : Buffer)
    (succeeded : 0 ≤ (dumpMemLoop memblock offset size left i.toUInt32 r drive buf).out) {a : Nat}
    (lower : i * size.toNat ≤ a) (upper : a < len * size.toNat) :
    (dumpMemLoop memblock offset size left i.toUInt32 r drive buf).buf a = bytes a := by
  induction left generalizing i r buf with
  | zero =>
      obtain rfl : i = len := count
      exact absurd upper (Nat.not_lt.mpr lower)
  | succ left ih =>
      have inside : i < len := by omega
      have position := position_toNat (Nat.lt_of_le_of_lt (le_last inside) room)
      rw [dumpMemLoop] at succeeded ⊢
      rw [position, ← toUInt32_succ] at succeeded ⊢
      split at succeeded
      · rename_i failed
        exact absurd succeeded (Int.not_le.mpr failed)
      · rename_i passed
        obtain ⟨kept, data⟩ := block i inside _ (Int.not_lt.mp passed)
        rw [if_neg passed]
        rw [kept] at succeeded ⊢
        by_cases later : (i + 1) * size.toNat ≤ a
        · exact ih (i + 1) (by omega) _ _ succeeded later
        · rw [dumpMemLoop_kept room left (i + 1) (by omega) _ _ _ (Nat.not_le.mp later),
            Buffer.splice_above _ _ lower, data _ (by rw [Nat.succ_mul] at later; omega),
            Nat.add_sub_cancel' lower]

end Blocks

/-! ## The contract -/

/-- A request that is not refused brings all its bytes of the cached sectors. -/
def MeetsContract (f : MemdumpFunc) (blockOff blockLen blockSize : UInt32) : Prop :=
  ∀ (σ : Type) (env : Env σ) (memory : Buffer) (drive : σ) (sectors : Nat),
    SectorCache env f memory drive sectors →
    blockOff.toNat + blockLen.toNat * blockSize.toNat ≤ 2064 * sectors →
    ∀ buf, 0 ≤ (dvdMemdump env f drive blockOff blockLen blockSize buf).out →
      ∀ i < blockLen.toNat * blockSize.toNat,
        (dvdMemdump env f drive blockOff blockLen blockSize buf).buf i =
          f.cached memory (blockOff.toNat + i)

/-- There is no block, the size is refused, or the blocks are whole and the address field
of the command can name the start of the last one. -/
def MemdumpFunc.Keeps (f : MemdumpFunc) (blockOff blockLen blockSize : UInt32) : Prop :=
  blockLen = 0 ∨ f.Refuses blockSize ∨
    blockSize.toNat ≤ 65535 ∧ f.Whole blockOff.toNat blockSize.toNat ∧
      f.place (blockOff.toNat + (blockLen.toNat - 1) * blockSize.toNat) < f.reach

instance (f : MemdumpFunc) : Decidable f.Bytewise :=
  inferInstanceAs (Decidable (f = .vanilla2064 ∨ f = .hitachi ∨ f = .renesas))

instance (f : MemdumpFunc) (size : UInt32) : Decidable (f.Refuses size) :=
  inferInstanceAs (Decidable (size = 0 ∨ (if f = .liteon then 65534 else 65535) < f.scaled size))

instance (f : MemdumpFunc) (offset size : Nat) : Decidable (f.Whole offset size) :=
  inferInstanceAs (Decidable (f.Bytewise ∨ 2064 ∣ offset ∧ 2064 ∣ size))

instance (f : MemdumpFunc) (blockOff blockLen blockSize : UInt32) :
    Decidable (f.Keeps blockOff blockLen blockSize) :=
  inferInstanceAs (Decidable (blockLen = 0 ∨ f.Refuses blockSize ∨
    blockSize.toNat ≤ 65535 ∧ f.Whole blockOff.toNat blockSize.toNat ∧
      f.place (blockOff.toNat + (blockLen.toNat - 1) * blockSize.toNat) < f.reach))

theorem MemdumpFunc.Refuses.memblock {σ : Type} {f : MemdumpFunc} {size : UInt32}
    (refuses : f.Refuses size) (env : Env σ) (drive : σ) (offset : UInt32) (buf : Buffer) :
    (f.memblock env drive offset size buf).out = -2 := by
  have check : size = 0 ∨ (if f = .liteon then 65534 else 65535) < f.scaled size := refuses
  cases f <;> simp only [reduceCtorEq, if_false, if_true, MemdumpFunc.scaled] at check <;>
    simp [MemdumpFunc.memblock, vanilla2064DvdDumpMemblock, vanilla2384DvdDumpMemblock,
      hitachiDvdDumpMemblock, liteonDvdDumpMemblock, renesasDvdDumpMemblock, sequencedDumpMemblock,
      rawDumpMemblock, check]

theorem MemdumpFunc.place_mono (f : MemdumpFunc) {a b : Nat} (order : a ≤ b) : f.place a ≤ f.place b := by
  rcases f.bytewise_or_raw with bytewise | rfl | rfl
  · rw [bytewise.place_eq, bytewise.place_eq]
    exact order
  · exact Nat.mul_le_mul_left _ (Nat.div_le_div_right order)
  · exact Nat.mul_le_mul_left _ (Nat.div_le_div_right order)

/-- The field of the address is no wider than the word that the offset is counted in. -/
theorem MemdumpFunc.lt_of_place_lt (f : MemdumpFunc) {a : Nat} (reached : f.place a < f.reach) :
    a < 2 ^ 32 := by
  cases f <;> simp only [MemdumpFunc.place, MemdumpFunc.reach] at reached <;> omega

/-- Where the address field can name the blocks, their bytes come. -/
theorem MemdumpFunc.Keeps.meets {f : MemdumpFunc} {blockOff blockLen blockSize : UInt32}
    (keeps : f.Keeps blockOff blockLen blockSize) : MeetsContract f blockOff blockLen blockSize := by
  intro σ env memory drive sectors holds inside buf succeeded i below
  rcases keeps with rfl | refuses | ⟨small, whole, reached⟩
  · exact absurd below (by rw [UInt32.toNat_zero, Nat.zero_mul]; exact Nat.not_lt_zero i)
  · cases count : blockLen.toNat with
    | zero =>
        rw [count, Nat.zero_mul] at below
        exact absurd below (Nat.not_lt_zero i)
    | succ left =>
        rw [dvdMemdump, count, dumpMemLoop] at succeeded
        have refused := refuses.memblock env drive (f.base + blockOff + 0 * blockSize)
          (buf.advance (0 * blockSize).toNat)
        rw [if_pos (by rw [refused]; decide)] at succeeded
        dsimp only at succeeded
        rw [refused] at succeeded
        exact absurd succeeded (by decide : ¬ (0 : Int) ≤ -2)
  · have early := f.lt_of_place_lt reached
    have block : ∀ b < blockLen.toNat, ∀ buf,
        0 ≤ (f.memblock env drive (f.base + blockOff + b.toUInt32 * blockSize) blockSize buf).out →
        (f.memblock env drive (f.base + blockOff + b.toUInt32 * blockSize) blockSize buf).drive = drive ∧
          ∀ k < blockSize.toNat,
            (f.memblock env drive (f.base + blockOff + b.toUInt32 * blockSize) blockSize buf).buf k =
              (f.cached memory).advance blockOff.toNat (b * blockSize.toNat + k) := by
      intro b within buf passed
      have last := @le_last _ _ blockSize.toNat within
      have next : (b + 1) * blockSize.toNat ≤ blockLen.toNat * blockSize.toNat :=
        Nat.mul_le_mul_right _ within
      rw [Nat.succ_mul] at next
      have start : (blockOff + b.toUInt32 * blockSize).toNat = blockOff.toNat + b * blockSize.toNat := by
        rw [UInt32.toNat_add, position_toNat (by omega)]
        exact Nat.mod_eq_of_lt (by omega)
      have still : f.Whole (blockOff + b.toUInt32 * blockSize).toNat blockSize.toNat := by
        refine whole.imp_right fun aligned => ⟨?_, aligned.2⟩
        rw [start]
        exact Nat.dvd_add aligned.1 (Nat.dvd_mul_left_of_dvd aligned.2 b)
      have named : f.place (blockOff + b.toUInt32 * blockSize).toNat < f.reach := by
        rw [start]
        exact Nat.lt_of_le_of_lt (f.place_mono (Nat.add_le_add_left last _)) reached
      rw [UInt32.add_assoc] at passed ⊢
      obtain ⟨kept, data⟩ :=
        holds.memblock_whole named (by rw [start]; omega) small still buf passed
      refine ⟨kept, fun k row => ?_⟩
      rw [data k row, start, Buffer.advance_apply, Nat.add_assoc]
    exact dumpMemLoop_data (by omega) block blockLen.toNat 0 (Nat.zero_add _) _ buf succeeded
      (by omega) below

end Friidump
