import Friidump.SequenceCheck

/-!
# Drives whose cache can be addressed

A drive that answers the commands of a dump function with the addressed bytes of
its cache, and what the functions for sectors of 2064 bytes make of it.
-/

set_option autoImplicit false

namespace Friidump

/-! ## Commands -/

/-- The command for `size` bytes from `offset` on of the drive's cache. -/
def MemdumpFunc.command (f : MemdumpFunc) (offset size : UInt32) : List UInt8 :=
  match f with
  | .vanilla2064 | .vanilla2384 =>
      [0x3C, 0x02, 0x00] ++ (msbToLsb offset).drop 1 ++ (msbToLsb size).drop 1 ++ [0, 0, 0]
  | .liteon => [0x3C, 0x01, 0x01] ++ (msbToLsb offset).drop 1 ++ (msbToLsb size).drop 1 ++ [0, 0, 0]
  | .hitachi =>
      [0xE7, 0x48, 0x49, 0x54, 0x01, 0] ++ msbToLsb (MemdumpFunc.hitachi.base + offset) ++
        (msbToLsb size).drop 2
  | .renesas =>
      [0x3C, 0x05] ++ msbToLsb offset ++ [0] ++ (msbToLsb size).drop 2 ++ [0x44, 0, 0]

/-- The bytes of a cache that the address field of the command can name. -/
def MemdumpFunc.reach : MemdumpFunc → Nat
  | .hitachi => 2 ^ 31
  | .renesas => 2 ^ 32
  | _ => 2 ^ 24

/-- The drive answers a command with so many bytes, and stays as it is. -/
structure Brings {σ : Type} (env : Env σ) (drive : σ) (cmd : List UInt8) (size : Nat)
    (bytes : Buffer) : Prop where
  kept : ∀ buffer, (env.ioctl drive ⟨cmd, buffer, size⟩).1 = drive
  succeeded : ∀ buffer, (env.ioctl drive ⟨cmd, buffer, size⟩).2.failed = false
  whole : ∀ buffer, (env.ioctl drive ⟨cmd, buffer, size⟩).2.transferred = size
  data : ∀ buffer, ∀ i < size, (env.ioctl drive ⟨cmd, buffer, size⟩).2.data i = bytes i

/-- Every command of the function succeeds and brings the addressed bytes. -/
structure Serves {σ : Type} (env : Env σ) (f : MemdumpFunc) (memory : σ → Buffer) : Prop where
  drive : ∀ drive (offset size : UInt32) buffer, offset.toNat + size.toNat ≤ f.reach →
    (env.ioctl drive ⟨f.command offset size, buffer, size.toNat⟩).1 = drive
  succeeded : ∀ drive (offset size : UInt32) buffer, offset.toNat + size.toNat ≤ f.reach →
    (env.ioctl drive ⟨f.command offset size, buffer, size.toNat⟩).2.failed = false
  whole : ∀ drive (offset size : UInt32) buffer, offset.toNat + size.toNat ≤ f.reach →
    (env.ioctl drive ⟨f.command offset size, buffer, size.toNat⟩).2.transferred = size.toNat
  data : ∀ drive (offset size : UInt32) buffer, offset.toNat + size.toNat ≤ f.reach →
    ∀ i < size.toNat, (env.ioctl drive ⟨f.command offset size, buffer, size.toNat⟩).2.data i =
      memory drive (offset.toNat + i)

section Served

variable {σ : Type} {env : Env σ} {f : MemdumpFunc} {memory : σ → Buffer} {drive : σ}
  {offset size : UInt32}

theorem Serves.brings (serves : Serves env f memory) (inside : offset.toNat + size.toNat ≤ f.reach)
    (drive : σ) : Brings env drive (f.command offset size) size.toNat
      ((memory drive).advance offset.toNat) where
  kept buffer := serves.drive drive offset size buffer inside
  succeeded buffer := serves.succeeded drive offset size buffer inside
  whole buffer := serves.whole drive offset size buffer inside
  data buffer := serves.data drive offset size buffer inside

theorem Brings.executed {cmd : List UInt8} {length : Nat} {bytes : Buffer}
    (brings : Brings env drive cmd length bytes) (buf : Buffer) :
    ∃ sense, dvdExecuteCmd env drive (dvdInitCommand cmd buf length) false =
      { drive := drive, out := 0, sense := sense, buffer := buf.memcpy 0 bytes length } := by
  have kept := brings.kept (buf.memset 0 0 length)
  have succeeded := brings.succeeded (buf.memset 0 0 length)
  have whole := brings.whole (buf.memset 0 0 length)
  have data := brings.data (buf.memset 0 0 length)
  rw [dvdExecuteCmd, dvdInitCommand]
  generalize env.ioctl drive ⟨cmd, buf.memset 0 0 length, length⟩ = answer
    at kept succeeded whole data
  obtain ⟨drive', reply⟩ := answer
  cases kept
  refine ⟨reply.sense, ?_⟩
  dsimp only at succeeded whole data ⊢
  rw [succeeded, whole, Nat.min_self]
  congr 1
  funext i
  by_cases covered : i < length
  · have place : 0 ≤ i ∧ i < 0 + length := ⟨Nat.zero_le i, (Nat.zero_add _).symm ▸ covered⟩
    rw [Buffer.memcpy, Buffer.memcpy, if_pos place, if_pos place]
    exact data i covered
  · have behind : ¬ (0 ≤ i ∧ i < 0 + length) := fun place =>
      covered (Nat.zero_add length ▸ place.2)
    rw [Buffer.memcpy, Buffer.memcpy, Buffer.memset, if_neg behind, if_neg behind, if_neg behind]

/-! ## Sectors of 2064 bytes -/

/-- The functions that address a cache of 2064-byte sectors byte by byte. -/
def MemdumpFunc.Bytewise (f : MemdumpFunc) : Prop := f = .vanilla2064 ∨ f = .hitachi ∨ f = .renesas

/-- A dump that is not refused brings the addressed bytes. -/
theorem MemdumpFunc.Bytewise.memblock_succeeded (bytewise : f.Bytewise) {bytes : Buffer}
    (brings : ¬ (size = 0 ∨ 65535 < size) →
      Brings env drive (f.command offset size) size.toNat bytes) (buf : Buffer)
    (succeeded : 0 ≤ (f.memblock env drive (f.base + offset) size buf).out) :
    (f.memblock env drive (f.base + offset) size buf).drive = drive ∧
      (f.memblock env drive (f.base + offset) size buf).buf = buf.memcpy 0 bytes size.toNat := by
  by_cases refuses : size = 0 ∨ 65535 < size
  · rcases bytewise with rfl | rfl | rfl <;>
      simp [MemdumpFunc.memblock, vanilla2064DvdDumpMemblock, hitachiDvdDumpMemblock,
        renesasDvdDumpMemblock, sequencedDumpMemblock, refuses] at succeeded
  · obtain ⟨sense, executed⟩ := (brings refuses).executed buf
    rcases bytewise with rfl | rfl | rfl
    · have zero : MemdumpFunc.vanilla2064.base + offset = offset := UInt32.zero_add _
      rw [zero] at succeeded ⊢
      obtain ⟨kept, same, -⟩ := sequencedDump_succeeded succeeded
      exact ⟨kept.trans (congrArg Executed.drive executed), same.trans (congrArg Executed.buffer executed)⟩
    · dsimp only [MemdumpFunc.memblock] at succeeded ⊢
      unfold hitachiDvdDumpMemblock
      rw [if_neg refuses]
      exact ⟨congrArg Executed.drive executed, congrArg Executed.buffer executed⟩
    · have zero : MemdumpFunc.renesas.base + offset = offset := UInt32.zero_add _
      rw [zero] at succeeded ⊢
      obtain ⟨kept, same, -⟩ := sequencedDump_succeeded succeeded
      exact ⟨kept.trans (congrArg Executed.drive executed), same.trans (congrArg Executed.buffer executed)⟩

private theorem size_accepted (positive : 0 < size.toNat) (short : size.toNat ≤ 2064) :
    ¬ (size = 0 ∨ 65535 < size) := by
  rintro (zero | large)
  · rw [zero] at positive
    exact absurd positive (by decide)
  · have beyond := UInt32.lt_iff_toNat_lt.mp large
    exact absurd (Nat.lt_of_lt_of_le beyond short) (by decide)

private theorem sequenced_short {cmd : List UInt8} {buf buf' : Buffer} {sense : ReqSense}
    (positive : 0 < size.toNat) (short : size.toNat ≤ 2064)
    (executed : dvdExecuteCmd env drive (dvdInitCommand cmd buf size.toNat) false =
      { drive := drive, out := 0, buffer := buf', sense := sense }) :
    sequencedDumpMemblock env drive cmd size buf = { drive := drive, out := 0, buf := buf' } := by
  have one : (size.toNat + 2063) / 2064 = 1 := by omega
  have single : checkSequence 1 0 0x55555555 0 buf' = (true, buf') := by
    refine checkSequence_passes fun i first => ?_
    obtain rfl : i = 0 := Nat.lt_one_iff.mp first
    rw [Nat.mul_zero, Buffer.advance_zero]
    exact (UInt32.add_zero _).symm
  rw [sequencedDumpMemblock, if_neg (size_accepted positive short), executed, one]
  dsimp only
  rw [single]
  rfl

theorem Serves.memdump_short (serves : Serves env f memory) (bytewise : f.Bytewise)
    (inside : offset.toNat + size.toNat ≤ f.reach) (positive : 0 < size.toNat)
    (short : size.toNat ≤ 2064) (buf : Buffer) :
    dvdMemdump env f drive offset 1 size buf =
      { drive := drive, out := 0
        buf := buf.memcpy 0 ((memory drive).advance offset.toNat) size.toNat } := by
  obtain ⟨sense, executed⟩ := (serves.brings inside drive).executed buf
  rw [dvdMemdump_one]
  rcases bytewise with rfl | rfl | rfl
  · have zero : MemdumpFunc.vanilla2064.base + offset = offset := UInt32.zero_add _
    rw [zero]
    exact sequenced_short positive short executed
  · dsimp only [MemdumpFunc.memblock, MemdumpFunc.command] at executed ⊢
    rw [hitachiDvdDumpMemblock, if_neg (size_accepted positive short)]
    dsimp only
    rw [executed]
  · have zero : MemdumpFunc.renesas.base + offset = offset := UInt32.zero_add _
    rw [zero]
    exact sequenced_short positive short executed

end Served

end Friidump
