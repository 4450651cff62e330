import Friidump.CountingDrive
import Friidump.DumpContract

/-!
# Requests beyond the address field

A drive that answers whatever the address field of a command holds, with counters among
the bytes of its sectors, and the requests for which a dump does not bring what was asked for.
-/

set_option autoImplicit false

namespace Friidump

/-! ## Counters in all places -/

/-- The number of the sector in every sixteen bytes. -/
def counters (stride : Nat) : Buffer := fun x =>
  if x % 16 = 1 then (x / stride / 65536).toUInt8
  else if x % 16 = 2 then (x / stride / 256).toUInt8
  else if x % 16 = 3 then (x / stride).toUInt8
  else 0

/-- A sequence of sectors may start at any multiple of sixteen. -/
def Counts (space : Buffer) (stride : Nat) : Prop :=
  ∀ x, 16 ∣ x → (sectorNumber (space.advance x)).toNat = x / stride % 2 ^ 24

private theorem div_cell {x stride i : Nat} (cell : 16 ∣ x) (cells : 16 ∣ stride) (small : i < 16) :
    (x + i) / stride = x / stride := by
  obtain ⟨y, rfl⟩ := cell
  obtain ⟨t, rfl⟩ := cells
  rw [← Nat.div_div_eq_div_mul, ← Nat.div_div_eq_div_mul, Nat.mul_add_div (by decide),
    Nat.div_eq_of_lt small, Nat.add_zero, Nat.mul_div_cancel_left _ (by decide)]

theorem sectorNumber_toNat (bytes : Buffer) : (sectorNumber bytes).toNat =
    (bytes 1).toNat * 65536 + (bytes 2).toNat * 256 + (bytes 3).toNat := by
  have below1 := (bytes 1).toNat_lt
  have below2 := (bytes 2).toNat_lt
  have below3 := (bytes 3).toNat_lt
  simp only [sectorNumber, UInt32.toNat_add, UInt32.toNat_shiftLeft, UInt8.toNat_toUInt32,
    UInt32.reduceToNat, Nat.shiftLeft_eq, Nat.reduceMod, Nat.reducePow]
  omega

theorem counters_counts {stride : Nat} (cells : 16 ∣ stride) : Counts (counters stride) stride := by
  intro x cell
  have one : counters stride (x + 1) = (x / stride / 65536).toUInt8 := by
    rw [counters, if_pos (by omega), div_cell cell cells (by decide)]
  have two : counters stride (x + 2) = (x / stride / 256).toUInt8 := by
    rw [counters, if_neg (by omega), if_pos (by omega), div_cell cell cells (by decide)]
  have three : counters stride (x + 3) = (x / stride).toUInt8 := by
    rw [counters, if_neg (by omega), if_neg (by omega), if_pos (by omega), div_cell cell cells (by decide)]
  rw [sectorNumber_toNat, Buffer.advance_apply, Buffer.advance_apply, Buffer.advance_apply, one, two, three]
  simp only [Nat.toUInt8, UInt8.toNat_ofNat']
  omega

/-- A memory of counters whose raw sectors start with code words. -/
structure Sequenced (f : MemdumpFunc) (space : Buffer) : Prop where
  counts : Counts space f.stride
  codewords : ¬ f.Bytewise → ∀ s, Codeword (space.advance (2384 * s))

theorem exists_sequenced (f : MemdumpFunc) : ∃ space, Sequenced f space := by
  have cells : 16 ∣ f.stride := by cases f <;> decide
  by_cases bytewise : f.Bytewise
  · exact ⟨counters f.stride, counters_counts cells, fun raw => absurd bytewise raw⟩
  · have wide : f.stride = 2384 := by
      rcases f.bytewise_or_raw with plain | rfl | rfl
      · exact absurd plain bytewise
      · rfl
      · rfl
    -- The ten bytes that the code needs lie between two counters.
    have rows : ∀ s, ∃ w, Codeword w ∧ ∀ m < 182, m ∉ Finset.Ico 4 14 →
        w m = counters 2384 (2384 * s + m) := fun s =>
      exists_codeword ((counters 2384).advance (2384 * s)) (by decide) (by decide)
    choose row coded given using rows
    let space : Buffer := fun x =>
      if x % 2384 < 182 then row (x / 2384) (x % 2384) else counters 2384 x
    have kept : ∀ x, x % 2384 ∉ Finset.Ico 4 14 → space x = counters 2384 x := by
      intro x free
      by_cases first : x % 2384 < 182
      · have same := given (x / 2384) _ first free
        rw [Nat.div_add_mod] at same
        exact (if_pos first).trans same
      · exact if_neg first
    refine ⟨space, fun x cell => ?_, fun _ s => (coded s).congr fun m inside => ?_⟩
    · have counted := counters_counts (by decide : 16 ∣ 2384) x cell
      rw [sectorNumber_toNat] at counted
      rw [sectorNumber_toNat, wide]
      simp only [Buffer.advance_apply] at counted ⊢
      rw [kept (x + 1) (by rw [Finset.mem_Ico]; omega), kept (x + 2) (by rw [Finset.mem_Ico]; omega),
        kept (x + 3) (by rw [Finset.mem_Ico]; omega)]
      exact counted
    · have sector : (2384 * s + m) / 2384 = s := by omega
      have column : (2384 * s + m) % 2384 = m := by omega
      have shown : space (2384 * s + m) = row s m := by
        refine (if_pos (column.symm ▸ inside)).trans ?_
        rw [sector, column]
      exact shown.symm

/-- A byte that is neither a counter nor in the first row of a raw sector. -/
def MemdumpFunc.Free (f : MemdumpFunc) (x : Nat) : Prop :=
  (x % 16 = 0 ∨ 4 ≤ x % 16) ∧ (¬ f.Bytewise → 182 ≤ x % 2384)

theorem Sequenced.update {f : MemdumpFunc} {space : Buffer} (sequenced : Sequenced f space) {x : Nat}
    (free : f.Free x) (value : UInt8) : Sequenced f (Function.update space x value) where
  counts y cell := by
    have counted := sequenced.counts y cell
    have cells := free.1
    rw [sectorNumber_toNat] at counted ⊢
    simp only [Buffer.advance_apply] at counted ⊢
    rw [Function.update_of_ne (by omega), Function.update_of_ne (by omega),
      Function.update_of_ne (by omega)]
    exact counted
  codewords raw s := (sequenced.codewords raw s).congr fun m inside => by
    have late := free.2 raw
    have apart : 2384 * s + m ≠ x := by omega
    exact (Function.update_of_ne apart value space).symm

/-! ## The drive -/

/-- What the address field of a command holds. -/
def MemdumpFunc.field (f : MemdumpFunc) (cmd : List UInt8) : Nat :=
  match f with
  | .hitachi => (wordOf ((cmd.drop 6).take 4)).toNat
  | .renesas => (wordOf ((cmd.drop 2).take 4)).toNat
  | _ => (wordOf ((cmd.drop 3).take 3)).toNat

def MemdumpFunc.width : MemdumpFunc → Nat
  | .hitachi | .renesas => 2 ^ 32
  | _ => 2 ^ 24

theorem MemdumpFunc.field_command (f : MemdumpFunc) (offset size : UInt32) :
    f.field (f.command offset size) = (f.base.toNat + offset.toNat) % f.width := by
  have below := offset.toNat_lt
  cases f with
  | hitachi =>
      have word : MemdumpFunc.hitachi.field (MemdumpFunc.hitachi.command offset size) =
          (wordOf (msbToLsb (MemdumpFunc.hitachi.base + offset))).toNat := rfl
      rw [word, wordOf_msbToLsb, UInt32.toNat_add]
      rfl
  | renesas =>
      have word : MemdumpFunc.renesas.field (MemdumpFunc.renesas.command offset size) =
          (wordOf (msbToLsb offset)).toNat := rfl
      rw [word, wordOf_msbToLsb]
      simp only [MemdumpFunc.base, MemdumpFunc.width, UInt32.toNat_zero]
      omega
  | vanilla2064 => exact (wordOf_msbToLsb_low offset).trans (by simp [MemdumpFunc.base, MemdumpFunc.width])
  | vanilla2384 => exact (wordOf_msbToLsb_low offset).trans (by simp [MemdumpFunc.base, MemdumpFunc.width])
  | liteon => exact (wordOf_msbToLsb_low offset).trans (by simp [MemdumpFunc.base, MemdumpFunc.width])

/-- What a command names is what its address field holds. -/
theorem MemdumpFunc.named_field {f : MemdumpFunc} {offset : UInt32} {place : Nat}
    (named : f.named offset = some place) :
    (f.base.toNat + offset.toNat) % f.width = f.base.toNat + place := by
  have below := offset.toNat_lt
  cases f with
  | hitachi =>
      by_cases lower : offset.toNat < 2 ^ 31
      · simp only [MemdumpFunc.named, if_pos lower, Option.some.injEq] at named
        simp only [MemdumpFunc.base, MemdumpFunc.width, UInt32.reduceToNat]
        omega
      · rw [MemdumpFunc.named, if_neg lower] at named
        cases named
  | renesas =>
      simp only [MemdumpFunc.named, Option.some.injEq] at named
      simp only [MemdumpFunc.base, MemdumpFunc.width, UInt32.toNat_zero]
      omega
  | vanilla2064 | vanilla2384 | liteon =>
      simp only [MemdumpFunc.named, Option.some.injEq] at named
      simp only [MemdumpFunc.base, MemdumpFunc.width, UInt32.toNat_zero]
      omega

/-- Its memory is all there is to address. -/
def addressEnv (f : MemdumpFunc) (space : Buffer) : Env Unit where
  ioctl drive mmc :=
    (drive,
      { failed := false
        transferred := mmc.buflen
        data := space.advance (f.field mmc.cmd)
        sense := ⟨0, 0, 0⟩ })
  stack _ _ := fun _ => 0
  rsDecode tmp := (rsDecode tmp).1

theorem addressEnv_brings (f : MemdumpFunc) (space : Buffer) (offset size : UInt32) :
    Brings (addressEnv f space) () (f.command offset size) size.toNat
      (space.advance ((f.base.toNat + offset.toNat) % f.width)) where
  kept _ := rfl
  succeeded _ := rfl
  whole _ := rfl
  data _ i _ := by
    rw [← f.field_command offset size]
    rfl

theorem Sequenced.holds {f : MemdumpFunc} {space : Buffer} (sequenced : Sequenced f space)
    (sectors : Nat) :
    SectorCache (addressEnv f space) f (space.advance f.base.toNat) () sectors where
  brings offset size place named _ _ := by
    have brings := addressEnv_brings f space offset size
    rw [MemdumpFunc.named_field named] at brings
    refine ⟨brings.kept, brings.succeeded, brings.whole, fun buffer i below => ?_⟩
    rw [brings.data buffer i below, Buffer.advance_apply, Buffer.advance_apply, Buffer.advance_apply,
      Nat.add_assoc]
  repairs _ := rfl
  numbered s _ := by
    by_cases bytewise : f.Bytewise
    · have cell : ∀ s, 16 ∣ f.base.toNat + 2064 * s := fun s =>
        Nat.dvd_add (by cases f <;> decide) (Nat.dvd_mul_right_of_dvd (by decide) s)
      have number : ∀ s, (sectorNumber ((space.advance f.base.toNat).advance (2064 * s))).toNat =
          (f.base.toNat + 2064 * s) / 2064 % 2 ^ 24 := by
        intro s
        rw [Buffer.advance_advance, sequenced.counts _ (cell s), bytewise.stride_eq]
      have start := number 0
      rw [Nat.mul_zero, Buffer.advance_zero] at start
      rw [bytewise.cached_eq, number s, start]
      omega
    · have raw : f.base.toNat = 0 ∧ f.stride = 2384 ∧ f.cached = fun memory a => memory (rowPlace a) := by
        rcases f.bytewise_or_raw with plain | rfl | rfl
        · exact absurd plain bytewise
        · exact ⟨rfl, rfl, rfl⟩
        · exact ⟨rfl, rfl, rfl⟩
      obtain ⟨base, stride, cached⟩ := raw
      have number : ∀ s, (sectorNumber (Buffer.advance (fun a => space (rowPlace a)) (2064 * s))).toNat =
          s % 2 ^ 24 := by
        intro s
        have first := sequenced.counts (2384 * s) (Nat.dvd_mul_right_of_dvd (by decide) s)
        rw [stride, Nat.mul_div_cancel_left s (by decide)] at first
        rw [← first]
        refine congrArg UInt32.toNat (sectorNumber_congr fun i below => ?_)
        rw [Buffer.advance_apply, Buffer.advance_apply,
          rowPlace_head s (Nat.lt_trans below (by decide))]
      have start := number 0
      rw [Nat.mul_zero, Buffer.advance_zero] at start
      rw [cached, base, Buffer.advance_zero]
      dsimp only
      rw [number s, start]
      omega
  codewords raw s _ := by
    have base : f.base.toNat = 0 := by
      rcases f.bytewise_or_raw with plain | rfl | rfl
      · exact absurd plain raw
      · rfl
      · rfl
    rw [base, Buffer.advance_zero]
    exact sequenced.codewords raw s

/-! ## Its blocks -/

/-- Where byte `k` of the sectors lies in the memory. -/
def MemdumpFunc.layout (f : MemdumpFunc) (k : Nat) : Nat :=
  match f with
  | .vanilla2384 | .liteon => rowPlace k
  | _ => k

/-- How much of its target a block writes. -/
def MemdumpFunc.written (f : MemdumpFunc) (size : UInt32) : Nat :=
  match f with
  | .vanilla2384 | .liteon => 2064 * (((f.scaled size).toNat + 2383) / 2384)
  | _ => size.toNat

/-- The sequence check of the function sees no bytes other than the counters. -/
def MemdumpFunc.Steady (f : MemdumpFunc) (offset size : Nat) : Prop :=
  ¬ f.Bytewise ∨ f = .hitachi ∨ size ≤ 2064 ∨ 16 ∣ offset ∧ 16 ∣ size

/-- What a block comes to. The first row of a raw sector may have been repaired. -/
structure BlockDumped (f : MemdumpFunc) (space : Buffer) (start : Nat) (size : UInt32) (buf : Buffer)
    (dumped : Dumped Unit) : Prop where
  out : dumped.out = 0
  behind : ∀ k, f.written size ≤ k → dumped.buf k = buf k
  data : ∀ k, f.layout k < (f.scaled size).toNat → (¬ f.Bytewise → 172 ≤ k % 2064) →
    dumped.buf k = space (start + f.layout k)

section Blocks

variable {f : MemdumpFunc} {space : Buffer} {offset size : UInt32}

private theorem sequenced_passed {cmd : List UInt8} {sent buf : Buffer} {sense : ReqSense} {env : Env Unit}
    (accepted : ¬ (size = 0 ∨ 65535 < size))
    (executed : dvdExecuteCmd env () (dvdInitCommand cmd buf size.toNat) false =
      { drive := (), out := 0, buffer := sent, sense := sense })
    (following : ∀ i < (size.toNat + 2063) / 2064,
      sectorNumber (sent.advance (2064 * i)) = sectorNumber sent + i.toUInt32) :
    sequencedDumpMemblock env () cmd size buf = { drive := (), out := 0, buf := sent } := by
  rw [sequencedDumpMemblock, if_neg accepted, executed]
  dsimp only
  rw [checkSequence_passes following]
  rfl

private theorem counted_following {stride start i : Nat} (counts : Counts space stride)
    (cell : 16 ∣ start) (cells : 16 ∣ stride) (wide : 2064 ≤ stride) (early : start < 2 ^ 32)
    (near : i ≤ 32) :
    sectorNumber (space.advance (start + stride * i)) = sectorNumber (space.advance start) + i.toUInt32 := by
  have first := counts start cell
  have later := counts (start + stride * i) (Nat.dvd_add cell (Nat.dvd_mul_right_of_dvd cells i))
  have quotient : start / stride ≤ 2 ^ 32 / 2064 :=
    Nat.le_trans (Nat.div_le_div_right (Nat.le_of_lt early)) (Nat.div_le_div_left wide (by decide))
  have small : i.toUInt32.toNat = i := Nat.mod_eq_of_lt (by omega)
  rw [Nat.add_mul_div_left _ _ (by omega)] at later
  apply UInt32.toNat_inj.mp
  rw [UInt32.toNat_add, later, first, small]
  generalize start / stride = q at quotient
  omega

/-- The sectors that a transfer brings are numbered one after the other. -/
private theorem memcpy_following {stride start length i : Nat} (counts : Counts space stride)
    (cell : 16 ∣ start) (cells : 16 ∣ stride) (wide : 2064 ≤ stride) (early : start < 2 ^ 32)
    (near : i ≤ 32) (fits : stride * i + 4 ≤ length) (buf : Buffer) :
    sectorNumber ((buf.memcpy 0 (space.advance start) length).advance (stride * i)) =
      sectorNumber (buf.memcpy 0 (space.advance start) length) + i.toUInt32 := by
  have shown : ∀ x, x + 4 ≤ length →
      sectorNumber ((buf.memcpy 0 (space.advance start) length).advance x) =
        sectorNumber (space.advance (start + x)) := by
    intro x inside
    refine sectorNumber_congr fun m header => ?_
    rw [Buffer.advance_apply, Buffer.memcpy_inside _ _ (Nat.zero_le _) (by omega), Buffer.advance_apply,
      Buffer.advance_apply, Nat.sub_zero, Nat.add_assoc]
  have zero := shown 0 (by omega)
  rw [Buffer.advance_zero, Nat.add_zero] at zero
  rw [shown _ fits, zero]
  exact counted_following counts cell cells wide early near

private theorem bytewiseBlockDumped (bytewise : f.Bytewise) (counts : Counts space f.stride)
    (accepted : ¬ f.Refuses size) (steady : f.Steady offset.toNat size.toNat) (buf : Buffer) :
    BlockDumped f space ((f.base.toNat + offset.toNat) % f.width) size buf
      (f.memblock (addressEnv f space) () (f.base + offset) size buf) := by
  rw [bytewise.refuses_iff] at accepted
  obtain ⟨sense, executed⟩ := (addressEnv_brings f space offset size).executed buf
  have early : (f.base.toNat + offset.toNat) % f.width < 2 ^ 32 := by
    refine Nat.lt_of_lt_of_le (Nat.mod_lt _ ?_) ?_ <;> cases f <;> decide
  generalize place : (f.base.toNat + offset.toNat) % f.width = start at executed early ⊢
  have brought : f.memblock (addressEnv f space) () (f.base + offset) size buf =
      { drive := (), out := 0, buf := buf.memcpy 0 (space.advance start) size.toNat } := by
    by_cases hitachi : f = .hitachi
    · subst hitachi
      dsimp only [MemdumpFunc.memblock, MemdumpFunc.command] at executed ⊢
      rw [hitachiDvdDumpMemblock, if_neg accepted]
      dsimp only
      rw [executed]
    · have following : ∀ i < (size.toNat + 2063) / 2064,
          sectorNumber ((buf.memcpy 0 (space.advance start) size.toNat).advance (2064 * i)) =
            sectorNumber (buf.memcpy 0 (space.advance start) size.toNat) + i.toUInt32 := by
        intro i inside
        by_cases short : size.toNat ≤ 2064
        · obtain rfl : i = 0 := by omega
          rw [Nat.mul_zero, Buffer.advance_zero]
          exact (UInt32.add_zero _).symm
        · obtain ⟨first, length⟩ := ((steady.resolve_left (not_not.mpr bytewise)).resolve_left
            hitachi).resolve_left short
          have cell : 16 ∣ start := by
            rw [← place]
            refine (Nat.dvd_mod_iff (by cases f <;> decide)).mpr (Nat.dvd_add ?_ first)
            cases f <;> decide
          have limited : size.toNat ≤ 65535 :=
            UInt32.le_iff_toNat_le.mp (UInt32.not_lt.mp fun large => accepted (.inr large))
          rw [bytewise.stride_eq] at counts
          exact memcpy_following counts cell (by decide) (Nat.le_refl _) early (by omega) (by omega) buf
      rcases bytewise with rfl | rfl | rfl
      · have zero : MemdumpFunc.vanilla2064.base + offset = offset := UInt32.zero_add _
        rw [zero]
        exact sequenced_passed accepted executed following
      · exact absurd rfl hitachi
      · have zero : MemdumpFunc.renesas.base + offset = offset := UInt32.zero_add _
        rw [zero]
        exact sequenced_passed accepted executed following
  have sent : ∀ k, f.layout k = k := by
    intro k
    rcases bytewise with rfl | rfl | rfl <;> rfl
  have scaled : f.scaled size = size := by
    rcases bytewise with rfl | rfl | rfl <;> rfl
  have written : f.written size = size.toNat := by
    rcases bytewise with rfl | rfl | rfl <;> rfl
  rw [brought]
  refine ⟨rfl, fun k late => ?_, fun k below _ => ?_⟩
  · rw [written] at late
    exact Buffer.memcpy_outside _ _ (.inr (by omega))
  · rw [sent, scaled] at below
    rw [sent]
    exact Buffer.memcpy_inside _ _ (Nat.zero_le k) (by omega)

theorem rowPlace_split (k : Nat) : rowPlace k = 2384 * (k / 2064) + rowPlace (k % 2064) := by
  rw [← rowPlace_sector, Nat.div_add_mod]

theorem rowPlace_low {k : Nat} (below : k < 2064) : rowPlace k < 2384 :=
  @rowPlace_inside 1 k below

theorem rowPlace_of_lt {k : Nat} (below : k < 2064) : rowPlace k = 182 * (k / 172) + k % 172 := by
  rw [rowPlace, Nat.div_eq_of_lt below, Nat.mod_eq_of_lt below, Nat.mul_zero, Nat.zero_add]

private theorem rowPlace_behind {k : Nat} (below : k < 2064) (late : 172 ≤ k) : 182 ≤ rowPlace k := by
  rw [rowPlace_of_lt below]
  omega

private theorem rawBlockDumped (raw : ¬ f.Bytewise) (counts : Counts space f.stride)
    (accepted : ¬ f.Refuses size) (buf : Buffer) :
    BlockDumped f space ((f.base.toNat + (f.scaled offset).toNat) % f.width) size buf
      (f.memblock (addressEnv f space) () (f.base + offset) size buf) := by
  have shape : f.scaled = (fun word => word / 2064 * 0x950) ∧ f.layout = rowPlace ∧
      f.stride = 2384 ∧ f.width = 2 ^ 24 ∧ f.base = 0 ∧
      ∀ word, f.written word = 2064 * (((word / 2064 * 0x950).toNat + 2383) / 2384) := by
    rcases f.bytewise_or_raw with plain | rfl | rfl
    · exact absurd plain raw
    · exact ⟨rfl, rfl, rfl, rfl, rfl, fun _ => rfl⟩
    · exact ⟨rfl, rfl, rfl, rfl, rfl, fun _ => rfl⟩
  obtain ⟨scaled, layout, stride, width, base, written⟩ := shape
  obtain ⟨decode, sub1, sub2, limit, dump⟩ := rawDump_of_not_bytewise (addressEnv f space) raw
  have repairs : ∀ tmp, (addressEnv f space).rsDecode tmp = (rsDecode tmp).1 := fun _ => rfl
  obtain ⟨sense, executed⟩ := (addressEnv_brings f space (offset / 2064 * 0x950)
    (size / 2064 * 0x950)).executed ((addressEnv f space).stack () 0)
  rw [dump.memblock_executed accepted executed, scaled, base, width]
  simp only [UInt32.toNat_zero, Nat.zero_add]
  rw [base, width, UInt32.toNat_zero, Nat.zero_add] at executed
  have cells : ∀ word : UInt32, 16 ∣ (word / 2064 * 0x950).toNat := by
    intro word
    rw [UInt32.toNat_mul]
    exact (Nat.dvd_mod_iff (by decide)).mpr (Nat.dvd_mul_left_of_dvd (by decide) _)
  have limited : (size / 2064 * 0x950).toNat ≤ 65535 := by
    refine Nat.le_trans (UInt32.le_iff_toNat_le.mp (UInt32.not_lt.mp fun large => ?_)) dump.limited.2
    exact accepted ((dump.refuses size).mpr (.inr large))
  have cell : 16 ∣ (offset / 2064 * 0x950).toNat % 2 ^ 24 :=
    (Nat.dvd_mod_iff (by decide)).mpr (cells offset)
  have early : (offset / 2064 * 0x950).toNat % 2 ^ 24 < 2 ^ 32 :=
    Nat.lt_trans (Nat.mod_lt _ (by decide)) (by decide)
  have whole := cells size
  have length := written size
  have bound := congrArg (fun scale : UInt32 → UInt32 => (scale size).toNat) scaled
  generalize (offset / 2064 * 0x950).toNat % 2 ^ 24 = start at executed cell early ⊢
  generalize (size / 2064 * 0x950).toNat = rawSize at executed limited whole length bound ⊢
  generalize known : ((addressEnv f space).stack () 0).memcpy 0 (space.advance start) rawSize = sent
    at executed ⊢
  have shown : ∀ x < rawSize, sent x = space (start + x) := by
    intro x below
    rw [← known, Buffer.memcpy_inside _ _ (Nat.zero_le x) (by omega), Nat.sub_zero, Buffer.advance_apply]
  have following : ∀ s < (rawSize + 2383) / 2384,
      sectorNumber (sent.advance (2384 * s)) = sectorNumber sent + s.toUInt32 := by
    intro s inside
    rw [stride] at counts
    rw [← known]
    exact memcpy_following counts cell (by decide) (by decide) early (by omega) (by omega) _
  have passed := extractSectors_passes (dump.behind repairs) following _ 0 (Nat.zero_add _) 0x55555555
    rfl rfl buf
  have data := extractSectors_apply (dump.behind repairs) _ 0 0x55555555 0 rfl buf passed
  refine ⟨if_pos passed, fun k late => ?_, fun k below row => ?_⟩
  · rw [length] at late
    exact (data k).trans (if_neg (by omega))
  · rw [layout] at below ⊢
    rw [bound] at below
    have inside := Nat.mod_lt k (by decide : 0 < 2064)
    have split := rowPlace_split k
    have low := rowPlace_low inside
    have column := rowPlace_behind inside (row raw)
    refine (data k).trans ?_
    rw [if_pos (by omega), dump.behind repairs _ _ column, Buffer.advance_apply, ← split, shown _ below]

/-- A block that is not refused comes from the place that the address field is left with. -/
theorem blockDumped (counts : Counts space f.stride) (accepted : ¬ f.Refuses size)
    (steady : f.Steady offset.toNat size.toNat) (buf : Buffer) :
    BlockDumped f space ((f.base.toNat + (f.scaled offset).toNat) % f.width) size buf
      (f.memblock (addressEnv f space) () (f.base + offset) size buf) := by
  by_cases bytewise : f.Bytewise
  · have scaled : f.scaled offset = offset := by
      rcases bytewise with rfl | rfl | rfl <;> rfl
    rw [scaled]
    exact bytewiseBlockDumped bytewise counts accepted steady buf
  · exact rawBlockDumped bytewise counts accepted buf

end Blocks

/-! ## The last block -/

/-- Blocks that succeed leave the last one as it comes, and what none of them writes. -/
theorem dumpMemLoop_last {memblock : DumpMemblock Unit} {offset size : UInt32} {written : Nat}
    (out : ∀ (b : UInt32) buf, (memblock () (offset + b * size) size buf).out = 0)
    (behind : ∀ (b : UInt32) buf k, written ≤ k →
      (memblock () (offset + b * size) size buf).buf k = buf k)
    (left : Nat) (i : UInt32) (r : Int) (buf : Buffer) :
    ∃ before : Buffer, dumpMemLoop memblock offset size (left + 1) i r () buf =
      { drive := (), out := 0
        buf := before.splice ((i + left.toUInt32) * size).toNat
          (memblock () (offset + (i + left.toUInt32) * size) size
            (before.advance ((i + left.toUInt32) * size).toNat)).buf } ∧
      ∀ x, (∀ b ≤ left, ((i + b.toUInt32) * size).toNat + written ≤ x) → before x = buf x := by
  induction left generalizing i r buf with
  | zero =>
      have zero : i + Nat.toUInt32 0 = i := UInt32.add_zero i
      refine ⟨buf, ?_, fun _ _ => rfl⟩
      rw [zero, dumpMemLoop, out]
      rfl
  | succ left ih =>
      have next : ∀ b : Nat, i + 1 + b.toUInt32 = i + (b + 1).toUInt32 := by
        intro b
        rw [toUInt32_succ, UInt32.add_assoc, UInt32.add_comm 1]
      obtain ⟨before, shown, kept⟩ := ih (i + 1) 0 (buf.splice (i * size).toNat
        (memblock () (offset + i * size) size (buf.advance (i * size).toNat)).buf)
      rw [next] at shown
      refine ⟨before, ?_, fun x above => ?_⟩
      · rw [dumpMemLoop, if_neg (by rw [out]; decide), out]
        exact shown
      · have first := above 0 (Nat.zero_le _)
        have zero : i + Nat.toUInt32 0 = i := UInt32.add_zero i
        rw [zero] at first
        rw [kept x fun b inside => next b ▸ above (b + 1) (Nat.succ_le_succ inside),
          Buffer.splice_above _ _ (by omega), behind _ _ _ (by omega), Buffer.advance_apply]
        congr 1
        omega

/-! ## What the contract asks -/

/-- Requests that the sequence check lets pass whatever lies between the counters. -/
def MemdumpFunc.Decides (f : MemdumpFunc) (offset size : Nat) : Prop :=
  ¬ f.Bytewise ∨ 4 ≤ size ∧ (f = .hitachi ∨ size ≤ 2064 ∨ 16 ∣ offset ∧ 16 ∣ size)

instance (f : MemdumpFunc) (offset size : Nat) : Decidable (f.Decides offset size) :=
  inferInstanceAs (Decidable
    (¬ f.Bytewise ∨ 4 ≤ size ∧ (f = .hitachi ∨ size ≤ 2064 ∨ 16 ∣ offset ∧ 16 ∣ size)))

theorem MemdumpFunc.Decides.steady {f : MemdumpFunc} {offset size : UInt32}
    (decides : f.Decides offset.toNat size.toNat) (b : UInt32) :
    f.Steady (offset + b * size).toNat size.toNat := by
  rcases decides with raw | ⟨-, rfl | short | ⟨first, length⟩⟩
  · exact .inl raw
  · exact .inr (.inl rfl)
  · exact .inr (.inr (.inl short))
  · refine .inr (.inr (.inr ⟨?_, length⟩))
    rw [UInt32.toNat_add, UInt32.toNat_mul]
    have product : 16 ∣ b.toNat * size.toNat := Nat.dvd_mul_left_of_dvd length _
    omega

section Asked

variable {f : MemdumpFunc} {blockOff blockLen blockSize : UInt32}

/-- The place that the last block comes from. -/
def MemdumpFunc.lastStart (f : MemdumpFunc) (blockOff blockLen blockSize : UInt32) : Nat :=
  (f.base.toNat + (f.scaled (blockOff + (blockLen - 1) * blockSize)).toNat) % f.width

theorem MemdumpFunc.cached_layout (f : MemdumpFunc) (memory : Buffer) (a : Nat) :
    f.cached memory a = memory (f.layout a) := by
  cases f <;> rfl

theorem pred_toNat {n : UInt32} (nonempty : n ≠ 0) : (n - 1).toNat = n.toNat - 1 := by
  have positive : 0 < n.toNat := Nat.pos_of_ne_zero fun zero => nonempty (UInt32.toNat_inj.mp zero)
  have below := n.toNat_lt
  rw [UInt32.toNat_sub]
  simp only [UInt32.toNat_one]
  omega

theorem last_toNat (nonempty : blockLen ≠ 0) (room : (blockLen.toNat - 1) * blockSize.toNat < 2 ^ 32) :
    ((blockLen - 1) * blockSize).toNat = (blockLen.toNat - 1) * blockSize.toNat := by
  rw [UInt32.toNat_mul, pred_toNat nonempty]
  exact Nat.mod_eq_of_lt room

/-- A run over the memory, by its last block. -/
theorem dvdMemdump_last {space : Buffer} (sequenced : Sequenced f space) (nonempty : blockLen ≠ 0)
    (accepted : ¬ f.Refuses blockSize) (decides : f.Decides blockOff.toNat blockSize.toNat)
    (buf : Buffer) :
    (dvdMemdump (addressEnv f space) f () blockOff blockLen blockSize buf).out = 0 ∧
      (∀ x, (∀ b < blockLen.toNat, (b.toUInt32 * blockSize).toNat + f.written blockSize ≤ x) →
        (dvdMemdump (addressEnv f space) f () blockOff blockLen blockSize buf).buf x = buf x) ∧
      ∀ k, f.layout k < (f.scaled blockSize).toNat → (¬ f.Bytewise → 172 ≤ k % 2064) →
        (dvdMemdump (addressEnv f space) f () blockOff blockLen blockSize buf).buf
            (((blockLen - 1) * blockSize).toNat + k) =
          space (f.lastStart blockOff blockLen blockSize + f.layout k) := by
  have dumped : ∀ (b : UInt32) buf, BlockDumped f space
      ((f.base.toNat + (f.scaled (blockOff + b * blockSize)).toNat) % f.width) blockSize buf
      (f.memblock (addressEnv f space) () (f.base + blockOff + b * blockSize) blockSize buf) := by
    intro b buf
    rw [UInt32.add_assoc]
    exact blockDumped sequenced.counts accepted (decides.steady b) buf
  have positive : blockLen.toNat ≠ 0 := fun zero => nonempty (UInt32.toNat_inj.mp zero)
  obtain ⟨left, count⟩ := Nat.exists_eq_succ_of_ne_zero positive
  have last : (0 : UInt32) + left.toUInt32 = blockLen - 1 := by
    rw [UInt32.zero_add]
    apply UInt32.toNat_inj.mp
    have below := blockLen.toNat_lt
    have small : left.toUInt32.toNat = left := Nat.mod_eq_of_lt (by omega)
    rw [small, pred_toNat nonempty, count]
    rfl
  obtain ⟨before, shown, kept⟩ := dumpMemLoop_last (fun b buf => (dumped b buf).out)
    (fun b buf => (dumped b buf).behind) left 0 (-10) buf
  have run : dvdMemdump (addressEnv f space) f () blockOff blockLen blockSize buf =
      dumpMemLoop (f.memblock (addressEnv f space)) (f.base + blockOff) blockSize (left + 1) 0 (-10)
        () buf := by
    rw [dvdMemdump, count]
  rw [run, shown, last]
  refine ⟨rfl, fun x above => ?_, fun k below row => ?_⟩
  · have lastBlock := above left (by omega)
    rw [← UInt32.zero_add left.toUInt32, last] at lastBlock
    dsimp only
    rw [Buffer.splice_above _ _ (by omega), (dumped _ _).behind _ (by omega), Buffer.advance_apply,
      Nat.add_sub_cancel' (by omega)]
    refine kept x fun b inside => ?_
    rw [UInt32.zero_add]
    exact above b (by omega)
  · dsimp only
    rw [Buffer.splice_above _ _ (Nat.le_add_right _ _), Nat.add_sub_cancel_left]
    exact (dumped _ _).data k below row

theorem MemdumpFunc.size_pos (f : MemdumpFunc) {size : UInt32} (accepted : ¬ f.Refuses size) :
    0 < size.toNat :=
  Nat.pos_of_ne_zero fun zero => accepted (.inl (UInt32.toNat_inj.mp zero))

/-- Raw sectors are written whole, up to the size, or far less than the size where the product
of the sectors and their raw size is cut off. -/
theorem MemdumpFunc.written_raw {f : MemdumpFunc} (raw : ¬ f.Bytewise) {size : UInt32}
    (accepted : ¬ f.Refuses size) :
    f.written size = 2064 * (size.toNat / 2064) ∧ (f.scaled size).toNat = 2384 * (size.toNat / 2064) ∧
      size.toNat ≤ 65535 ∨ f.written size < size.toNat := by
  have shape : f.written size = 2064 * (((f.scaled size).toNat + 2383) / 2384) ∧
      f.scaled size = size / 2064 * 0x950 ∧ (f.scaled size).toNat ≤ 65535 := by
    have check : ¬ (if f = .liteon then 65534 else 65535) < f.scaled size := fun large =>
      accepted (.inr large)
    have limited := UInt32.le_iff_toNat_le.mp (UInt32.not_lt.mp check)
    rcases f.bytewise_or_raw with plain | rfl | rfl
    · exact absurd plain raw
    · exact ⟨rfl, rfl, limited⟩
    · exact ⟨rfl, rfl, Nat.le_trans limited (by decide)⟩
  obtain ⟨written, scaled, limited⟩ := shape
  rw [written]
  by_cases small : size.toNat ≤ 65535
  · have rawSize : (f.scaled size).toNat = size.toNat / 2064 * 2384 := by
      rw [scaled]
      exact rawSize_toNat size (by omega)
    omega
  · omega

theorem MemdumpFunc.written_le (f : MemdumpFunc) {size : UInt32} (accepted : ¬ f.Refuses size) :
    f.written size ≤ size.toNat := by
  by_cases bytewise : f.Bytewise
  · rcases bytewise with rfl | rfl | rfl <;> exact Nat.le_refl _
  · have written := f.written_raw bytewise accepted
    omega

section Met

variable (nonempty : blockLen ≠ 0) (accepted : ¬ f.Refuses blockSize)
  (decides : f.Decides blockOff.toNat blockSize.toNat)
  (meets : MeetsContract f blockOff blockLen blockSize)

include nonempty accepted decides meets

theorem MeetsContract.bytes {space : Buffer} (sequenced : Sequenced f space) (buf : Buffer) {x : Nat}
    (inside : x < blockLen.toNat * blockSize.toNat) :
    (dvdMemdump (addressEnv f space) f () blockOff blockLen blockSize buf).buf x =
      space (f.base.toNat + f.layout (blockOff.toNat + x)) := by
  obtain ⟨out, -⟩ := dvdMemdump_last sequenced nonempty accepted decides buf
  have same := meets Unit (addressEnv f space) (space.advance f.base.toNat) ()
    (blockOff.toNat + blockLen.toNat * blockSize.toNat) (sequenced.holds _) (by omega) buf
    (by rw [out]) x inside
  rw [same, f.cached_layout, Buffer.advance_apply]

/-- Every byte is in what nonempty block writes. -/
theorem MeetsContract.covers {x : Nat} (inside : x < blockLen.toNat * blockSize.toNat) :
    ∃ b < blockLen.toNat, x < (b.toUInt32 * blockSize).toNat + f.written blockSize := by
  by_contra uncovered
  push Not at uncovered
  obtain ⟨space, sequenced⟩ := exists_sequenced f
  let other : Buffer := fun _ => space (f.base.toNat + f.layout (blockOff.toNat + x)) + 1
  have kept := (dvdMemdump_last sequenced nonempty accepted decides other).2.1 x uncovered
  have same := meets.bytes nonempty accepted decides sequenced other inside
  rw [kept] at same
  have differ : space (f.base.toNat + f.layout (blockOff.toNat + x)) + 1 ≠
      space (f.base.toNat + f.layout (blockOff.toNat + x)) := by grind
  exact differ same

/-- The last block comes from the place that was asked for. -/
theorem MeetsContract.places (room : (blockLen.toNat - 1) * blockSize.toNat < 2 ^ 32) {k : Nat}
    (inside : k < blockSize.toNat) (sent : f.layout k < (f.scaled blockSize).toNat)
    (row : ¬ f.Bytewise → 172 ≤ k % 2064)
    (free : f.Free (f.base.toNat +
      f.layout (blockOff.toNat + ((blockLen.toNat - 1) * blockSize.toNat + k)))) :
    f.lastStart blockOff blockLen blockSize + f.layout k = f.base.toNat +
      f.layout (blockOff.toNat + ((blockLen.toNat - 1) * blockSize.toNat + k)) := by
  by_contra elsewhere
  obtain ⟨space, sequenced⟩ := exists_sequenced f
  have positive : 0 < blockLen.toNat := Nat.pos_of_ne_zero fun zero => nonempty (UInt32.toNat_inj.mp zero)
  have within : (blockLen.toNat - 1) * blockSize.toNat + k < blockLen.toNat * blockSize.toNat := by
    obtain ⟨left, count⟩ := Nat.exists_eq_succ_of_ne_zero (Nat.ne_of_gt positive)
    rw [count, Nat.succ_sub_one, Nat.succ_mul]
    omega
  generalize asked : f.base.toNat +
    f.layout (blockOff.toNat + ((blockLen.toNat - 1) * blockSize.toNat + k)) = place at free elsewhere
  -- The byte asked for differs from the one that comes.
  have marked := sequenced.update free (space (f.lastStart blockOff blockLen blockSize + f.layout k) + 1)
  have comes := (dvdMemdump_last marked nonempty accepted decides space).2.2 k sent row
  have same := meets.bytes nonempty accepted decides marked space within
  rw [last_toNat nonempty room, same, asked, Function.update_self, Function.update_of_ne elsewhere] at comes
  have differ : space (f.lastStart blockOff blockLen blockSize + f.layout k) + 1 ≠
      space (f.lastStart blockOff blockLen blockSize + f.layout k) := by grind
  exact differ comes

theorem MeetsContract.room : (blockLen.toNat - 1) * blockSize.toNat < 2 ^ 32 := by
  by_contra beyond
  have positive : 0 < blockLen.toNat := Nat.pos_of_ne_zero fun zero => nonempty (UInt32.toNat_inj.mp zero)
  obtain ⟨left, count⟩ := Nat.exists_eq_succ_of_ne_zero (Nat.ne_of_gt positive)
  have whole : blockLen.toNat * blockSize.toNat = left * blockSize.toNat + blockSize.toNat := by
    rw [count, Nat.succ_mul]
  rw [count, Nat.succ_sub_one] at beyond
  have sized := f.size_pos accepted
  obtain ⟨b, -, covered⟩ := meets.covers nonempty accepted decides
    (show blockLen.toNat * blockSize.toNat - 1 < blockLen.toNat * blockSize.toNat by omega)
  have position := (b.toUInt32 * blockSize).toNat_lt
  have written := f.written_le accepted
  omega

theorem MeetsContract.reaches (bytewise : f.Bytewise) :
    f.place (blockOff.toNat + (blockLen.toNat - 1) * blockSize.toNat) < f.reach := by
  rw [bytewise.place_eq]
  by_contra beyond
  have width : f.base.toNat + f.reach = f.width := by
    rcases bytewise with rfl | rfl | rfl <;> rfl
  have layout : ∀ a, f.layout a = a := by
    intro a
    rcases bytewise with rfl | rfl | rfl <;> rfl
  have scaled : f.scaled blockSize = blockSize := by
    rcases bytewise with rfl | rfl | rfl <;> rfl
  have start : f.lastStart blockOff blockLen blockSize < f.width :=
    Nat.mod_lt _ (by cases f <;> decide)
  have four := (decides.resolve_left (not_not.mpr bytewise)).1
  -- Of four bytes in a row one is no counter.
  obtain ⟨k, small, free⟩ : ∃ k < 4, f.Free (f.base.toNat +
      f.layout (blockOff.toNat + ((blockLen.toNat - 1) * blockSize.toNat + k))) := by
    simp only [layout, MemdumpFunc.Free, bytewise, not_true_eq_false, false_implies, and_true]
    by_cases first :
        (f.base.toNat + (blockOff.toNat + (blockLen.toNat - 1) * blockSize.toNat)) % 16 = 0 ∨
          4 ≤ (f.base.toNat + (blockOff.toNat + (blockLen.toNat - 1) * blockSize.toNat)) % 16
    · exact ⟨0, by decide, by omega⟩
    · exact ⟨3, by decide, by omega⟩
  have same := meets.places nonempty accepted decides (meets.room nonempty accepted decides)
    (Nat.lt_of_lt_of_le small four) (by rw [layout, scaled]; omega)
    (fun raw => absurd bytewise raw) free
  rw [layout, layout] at same
  omega

/-- The blocks are whole sectors, or else the end of the last one is not written. -/
theorem MeetsContract.sectors (raw : ¬ f.Bytewise) :
    blockSize.toNat ≤ 65535 ∧ 2064 ∣ blockSize.toNat ∧
      (f.scaled blockSize).toNat = 2384 * (blockSize.toNat / 2064) := by
  have positive : 0 < blockLen.toNat := Nat.pos_of_ne_zero fun zero => nonempty (UInt32.toNat_inj.mp zero)
  obtain ⟨left, count⟩ := Nat.exists_eq_succ_of_ne_zero (Nat.ne_of_gt positive)
  have room := meets.room nonempty accepted decides
  rw [count, Nat.succ_sub_one] at room
  have whole : f.written blockSize = blockSize.toNat := by
    refine Nat.le_antisymm (f.written_le accepted) (Nat.not_lt.mp fun less => ?_)
    obtain ⟨b, early, covered⟩ := meets.covers nonempty accepted decides
      (show left * blockSize.toNat + f.written blockSize < blockLen.toNat * blockSize.toNat by
        rw [count, Nat.succ_mul]
        omega)
    have last : b * blockSize.toNat ≤ left * blockSize.toNat :=
      Nat.mul_le_mul_right _ (by omega)
    rw [position_toNat (by omega)] at covered
    omega
  rcases f.written_raw raw accepted with ⟨written, scaled, small⟩ | less
  · exact ⟨small, by omega, scaled⟩
  · omega

theorem MeetsContract.raw_reaches (raw : ¬ f.Bytewise) : 2064 ∣ blockOff.toNat ∧
    f.place (blockOff.toNat + (blockLen.toNat - 1) * blockSize.toNat) < f.reach := by
  obtain ⟨small, whole, scaledSize⟩ := meets.sectors nonempty accepted decides raw
  have room := meets.room nonempty accepted decides
  have shape : f.layout = rowPlace ∧ f.base.toNat = 0 ∧ f.reach = 2 ^ 24 ∧
      f.place = (fun a => 2384 * (a / 2064)) ∧ f.lastStart blockOff blockLen blockSize =
        ((blockOff + (blockLen - 1) * blockSize) / 2064 * 0x950).toNat % 2 ^ 24 := by
    rcases f.bytewise_or_raw with plain | rfl | rfl
    · exact absurd plain raw
    · exact ⟨rfl, rfl, rfl, rfl, by simp [MemdumpFunc.lastStart, MemdumpFunc.base, MemdumpFunc.scaled,
        MemdumpFunc.width]⟩
    · exact ⟨rfl, rfl, rfl, rfl, by simp [MemdumpFunc.lastStart, MemdumpFunc.base, MemdumpFunc.scaled,
        MemdumpFunc.width]⟩
  obtain ⟨layout, base, reach, place, lastStart⟩ := shape
  have sized := f.size_pos accepted
  generalize known : blockOff.toNat + (blockLen.toNat - 1) * blockSize.toNat = a
  -- The byte at `m` of a sector that the last block holds, and that no counter or code word holds.
  have comes : ∀ k s m, 172 ≤ k → k < 2064 → m < 2064 → a + k = 2064 * s + m →
      (rowPlace m % 16 = 0 ∨ 4 ≤ rowPlace m % 16) → 182 ≤ rowPlace m →
      f.lastStart blockOff blockLen blockSize + rowPlace k = 2384 * s + rowPlace m := by
    intro k s m late inside column byte cell behind
    have low := rowPlace_low column
    have sent := rowPlace_low inside
    have asked : blockOff.toNat + ((blockLen.toNat - 1) * blockSize.toNat + k) = 2064 * s + m := by
      omega
    have same := meets.places nonempty accepted decides room (k := k) (by omega)
      (by rw [layout, scaledSize]; omega) (fun _ => by omega) (by
        rw [layout, base, asked, rowPlace_sector]
        exact ⟨by omega, fun _ => by omega⟩)
    rw [layout, base, asked, rowPlace_sector, Nat.zero_add] at same
    exact same
  have split := Nat.div_add_mod a 2064
  have rest := Nat.mod_lt a (by decide : 0 < 2064)
  have start : 2384 * (a / 2064) ≤ f.lastStart blockOff blockLen blockSize ∧
      (f.lastStart blockOff blockLen blockSize = 2384 * (a / 2064) → a % 2064 = 0) := by
    by_cases early : a % 2064 ≤ 1891
    · have same := comes (2063 - a % 2064) (a / 2064) 2063 (by omega) (by omega) (by decide) (by omega)
        (by decide) (by decide)
      have last : rowPlace 2063 = 2173 := by decide
      have row := rowPlace_of_lt (by omega : 2063 - a % 2064 < 2064)
      omega
    · have same := comes (3064 - a % 2064) (a / 2064 + 1) 1000 (by omega) (by omega) (by decide) (by omega)
        (by decide) (by decide)
      have low := rowPlace_low (by omega : 3064 - a % 2064 < 2064)
      omega
  rw [place, reach]
  dsimp only
  have reached : 2384 * (a / 2064) < 2 ^ 24 := by
    refine Nat.lt_of_le_of_lt start.1 ?_
    rw [lastStart]
    exact Nat.mod_lt _ (by decide)
  have word : (blockOff + (blockLen - 1) * blockSize).toNat = a := by
    rw [UInt32.toNat_add, last_toNat nonempty room, known]
    exact Nat.mod_eq_of_lt (by omega)
  have exactly : f.lastStart blockOff blockLen blockSize = 2384 * (a / 2064) := by
    rw [lastStart, rawSize_toNat _ (by omega), word]
    omega
  have zero := start.2 exactly
  refine ⟨?_, reached⟩
  have product : 2064 ∣ (blockLen.toNat - 1) * blockSize.toNat := Nat.dvd_mul_left_of_dvd whole _
  omega

end Met

theorem MeetsContract.keeps (decides : f.Decides blockOff.toNat blockSize.toNat)
    (meets : MeetsContract f blockOff blockLen blockSize) : f.Keeps blockOff blockLen blockSize := by
  by_cases nonempty : blockLen = 0
  · exact .inl nonempty
  by_cases accepted : f.Refuses blockSize
  · exact .inr (.inl accepted)
  refine .inr (.inr ?_)
  by_cases bytewise : f.Bytewise
  · have small : ¬ 65535 < blockSize := fun large =>
      accepted ((bytewise.refuses_iff blockSize).mpr (.inr large))
    exact ⟨UInt32.le_iff_toNat_le.mp (UInt32.not_lt.mp small), .inl bytewise,
      meets.reaches nonempty accepted decides bytewise⟩
  · obtain ⟨small, whole, -⟩ := meets.sectors nonempty accepted decides bytewise
    obtain ⟨first, reached⟩ := meets.raw_reaches nonempty accepted decides bytewise
    exact ⟨small, .inr ⟨first, whole⟩, reached⟩

/-- A dump meets its contract where the address field names its blocks, and nowhere else
that the sequence check leaves it to the address. -/
theorem meetsContract_iff (f : MemdumpFunc) (blockOff blockLen blockSize : UInt32) :
    (f.Keeps blockOff blockLen blockSize → MeetsContract f blockOff blockLen blockSize) ∧
      (f.Decides blockOff.toNat blockSize.toNat →
        (MeetsContract f blockOff blockLen blockSize ↔ f.Keeps blockOff blockLen blockSize)) :=
  ⟨MemdumpFunc.Keeps.meets, fun decides => ⟨MeetsContract.keeps decides, MemdumpFunc.Keeps.meets⟩⟩

end Asked

/-- Twenty-seven raw sectors come as they are; behind the last one that 24 bits can name they do not. -/
theorem meetsContract_iff_liteon :
    (∃ space : Buffer, ∀ buf,
      (dvdMemdump (addressEnv .liteon space) .liteon () 55728 1 55728 buf).out = 0 ∧
        ∀ i < 55728, (dvdMemdump (addressEnv .liteon space) .liteon () 55728 1 55728 buf).buf i =
          space (rowPlace (55728 + i))) ∧
      ¬ MeetsContract .liteon 16908288 1 55728 := by
  have whole : MemdumpFunc.liteon.Keeps 55728 1 55728 := by decide
  have beyond : ¬ MemdumpFunc.liteon.Keeps 16908288 1 55728 := by decide
  obtain ⟨space, sequenced⟩ := exists_sequenced .liteon
  refine ⟨⟨space, fun buf => ?_⟩, fun meets =>
    beyond (((meetsContract_iff .liteon 16908288 1 55728).2 (.inl (by decide))).mp meets)⟩
  have accepted : ¬ MemdumpFunc.liteon.Refuses 55728 := by decide
  have decides : MemdumpFunc.liteon.Decides (UInt32.toNat 55728) (UInt32.toNat 55728) := by decide
  have out : (dvdMemdump (addressEnv .liteon space) .liteon () 55728 1 55728 buf).out = 0 :=
    (dvdMemdump_last sequenced (by decide) accepted decides buf).1
  have holds := sequenced.holds 54
  have base : space.advance MemdumpFunc.liteon.base.toNat = space := Buffer.advance_zero space
  rw [base] at holds
  have bytes := (meetsContract_iff .liteon 55728 1 55728).1 whole Unit _ space () 54 holds (by decide) buf
    (by rw [out])
  exact ⟨out, fun i below => bytes i below⟩

/-- The header of a raw sector is not dumped, and a sector behind the last one that 24 bits can
name comes from another place. -/
theorem meetsContract_fails :
    ¬ MeetsContract .vanilla2384 0 1 12 ∧ ¬ MeetsContract .vanilla2064 16908288 1 2064 := by
  refine ⟨fun meets => ?_, fun meets => ?_⟩
  · exact absurd (meets.keeps (by decide)) (by decide)
  · exact absurd (meets.keeps (by decide)) (by decide)

end Friidump
