import Friidump.CountingDrive
import Friidump.DumpContract

/-!
# The two layouts side by side

What a drive sends in rows of 182 bytes is dumped as if it had sent plain sectors.
-/

set_option autoImplicit false

namespace Friidump

/-- The rows of `k` sectors of 2384 bytes begin with those of `k` plain ones. -/
def Expands (k : Nat) (plain raw : Buffer) : Prop :=
  ∀ s < k, ∀ row < 12, ∀ column < 172,
    raw (2384 * s + 182 * row + column) = plain (2064 * s + 172 * row + column)

/-- The drive answers a command with all the bytes asked for. -/
structure Answers {σ : Type} (env : Env σ) (drive : σ) (cmd : List UInt8) (size : Nat)
    (failed : Bool) (data : Buffer) : Prop where
  status : ∀ buffer, (env.ioctl drive ⟨cmd, buffer, size⟩).2.failed = failed
  whole : ∀ buffer, size ≤ (env.ioctl drive ⟨cmd, buffer, size⟩).2.transferred
  bytes : ∀ buffer, ∀ i < size, (env.ioctl drive ⟨cmd, buffer, size⟩).2.data i = data i

/-- What the checks of the two functions come to: both find the sequence broken, or both
find it whole and the rows have been taken out. -/
inductive SameSequence (plain rows buf : Buffer) (start stop : Nat) :
    Bool × Buffer → Bool × Buffer → Prop
  | broken (checked extracted : Buffer) :
      SameSequence plain rows buf start stop (false, checked) (false, extracted)
  | whole {extracted : Buffer}
      (data : ∀ a, extracted a = if start ≤ a ∧ a < stop then rows a else buf a) :
      SameSequence plain rows buf start stop (true, plain) (true, extracted)

theorem Expands.rowPlace {k : Nat} {plain raw : Buffer} (expands : Expands k plain raw) {a : Nat}
    (inside : a < 2064 * k) : raw (rowPlace a) = plain a := by
  have sector : a / 2064 < k := Nat.div_lt_of_lt_mul inside
  have column : a % 2064 % 172 < 172 := Nat.mod_lt _ (by decide)
  have row : a % 2064 / 172 < 12 := by omega
  have place := expands _ sector _ row _ column
  rw [Friidump.rowPlace, place]
  congr 1
  omega

theorem checkSequence_round {srcOffset : Nat} {first cnt : UInt32} {buf : Buffer}
    (next : first ≠ 0x55555555 → sectorNumber (buf.advance srcOffset) = first + cnt) (left : Nat) :
    checkSequence (left + 1) srcOffset first cnt buf =
      checkSequence left (srcOffset + 2064)
        (if first = 0x55555555 then sectorNumber (buf.advance srcOffset) else first) (cnt + 1) buf := by
  rw [checkSequence]
  by_cases unknown : first = 0x55555555
  · simp [unknown]
  · simp [unknown, next unknown]

/-- The two loops take their sectors in step. -/
theorem sameSequence {tmp plain : Buffer} {k : Nat}
    (expanded : ∀ a < 2064 * k, tmp (rowPlace a) = plain a) (left s : Nat) (count : s + left = k)
    (first cnt : UInt32) (buf : Buffer) :
    SameSequence plain (fun a => tmp (rowPlace a)) buf (2064 * s) (2064 * k)
      (checkSequence left (2064 * s) first cnt plain)
      (extractSectors id left (2384 * s) (2064 * s) first cnt tmp buf) := by
  induction left generalizing s first cnt buf with
  | zero => exact .whole fun a => (if_neg (by omega)).symm
  | succ left ih =>
      have inside : s < k := by omega
      have number : sectorNumber (tmp.advance (2384 * s)) = sectorNumber (plain.advance (2064 * s)) := by
        refine sectorNumber_congr fun i header => ?_
        have place := rowPlace_head s (Nat.lt_trans header (by decide : 4 < 172))
        rw [Buffer.advance_apply, Buffer.advance_apply, ← place]
        exact expanded _ (by omega)
      by_cases broken : first ≠ 0x55555555 ∧ sectorNumber (plain.advance (2064 * s)) ≠ first + cnt
      · have checked : (checkSequence (left + 1) (2064 * s) first cnt plain).1 = false := by
          simp [checkSequence, broken]
        have extracted :
            (extractSectors id (left + 1) (2384 * s) (2064 * s) first cnt tmp buf).1 = false := by
          simp [extractSectors, number, broken]
        rw [← Prod.eta (checkSequence _ _ _ _ _), ← Prod.eta (extractSectors _ _ _ _ _ _ _ _),
          checked, extracted]
        exact .broken _ _
      · have next : first ≠ 0x55555555 → sectorNumber (plain.advance (2064 * s)) = first + cnt :=
          fun known => by simpa [known] using broken
        have rest := ih (s + 1) (by omega)
          (if first = 0x55555555 then sectorNumber (plain.advance (2064 * s)) else first) (cnt + 1)
          (copyRows buf tmp (2064 * s) (2384 * s))
        rw [checkSequence_round next, extractSectors_round rfl fun known => number.trans (next known),
          number, ← Nat.mul_succ, ← Nat.mul_succ]
        generalize checkSequence left _ _ _ _ = checked at rest ⊢
        generalize extractSectors id left _ _ _ _ _ _ = extracted at rest ⊢
        cases rest with
        | broken checked extracted => exact .broken checked extracted
        | whole data => exact .whole fun a => (data a).trans (copyRows_sector buf tmp s k inside a)

section Commands

variable {σ : Type} {env : Env σ} {drive : σ} {failed : Bool} {data : Buffer} {offset size : UInt32}

/-- The target of a command after the answer. -/
def answered (size : Nat) (data buf : Buffer) : Buffer := fun i => if i < size then data i else buf i

theorem Answers.executed {cmd : List UInt8} {size : Nat} (answers : Answers env drive cmd size failed data)
    (buf : Buffer) :
    (dvdExecuteCmd env drive (dvdInitCommand cmd buf size) false).out = (if failed then -1 else 0) ∧
      (dvdExecuteCmd env drive (dvdInitCommand cmd buf size) false).buffer = answered size data buf := by
  have whole := answers.whole (buf.memset 0 0 size)
  refine ⟨by simp [dvdExecuteCmd, dvdInitCommand, answers.status], funext fun i => ?_⟩
  simp only [dvdExecuteCmd, dvdInitCommand, Nat.min_eq_right whole, answered]
  by_cases inside : i < size
  · rw [if_pos inside, Buffer.memcpy_inside _ _ (Nat.zero_le i) (by omega)]
    exact answers.bytes _ i inside
  · simp [Buffer.memcpy, Buffer.memset, inside]

/-- What a function returns for the status of its command and the result of its check. -/
def codeOf (failed inSequence : Bool) : Int :=
  if inSequence then if failed then -1 else 0 else -3

theorem Answers.plainDump
    (answers : Answers env drive (MemdumpFunc.vanilla2064.command offset size) size.toNat failed data)
    (valid : ¬ (size = 0 ∨ 65535 < size)) (buf : Buffer) :
    let checked := checkSequence ((size.toNat + 2063) / 2064) 0 0x55555555 0
      (answered size.toNat data buf)
    (vanilla2064DvdDumpMemblock env drive offset size buf).out = codeOf failed checked.1 ∧
      (vanilla2064DvdDumpMemblock env drive offset size buf).buf = checked.2 := by
  obtain ⟨out, buffer⟩ := answers.executed buf
  simp only [MemdumpFunc.command] at out buffer
  simp only [vanilla2064DvdDumpMemblock, sequencedDumpMemblock, if_neg valid, out, buffer, codeOf,
    and_self]

theorem Answers.rawDump {rawSize : UInt32} (sectors : size / 2064 * 0x950 = rawSize)
    (answers : Answers env drive (MemdumpFunc.vanilla2384.command (offset / 2064 * 0x950) rawSize)
      rawSize.toNat failed data)
    (valid : ¬ (size = 0 ∨ 65535 < rawSize)) (buf : Buffer) :
    let extracted := extractSectors id ((rawSize.toNat + 2383) / 2384) 0 0 0x55555555 0
      (answered rawSize.toNat data (env.stack drive 0)) buf
    (vanilla2384DvdDumpMemblock env drive offset size buf).out = codeOf failed extracted.1 ∧
      (vanilla2384DvdDumpMemblock env drive offset size buf).buf = extracted.2 := by
  obtain ⟨out, buffer⟩ := answers.executed (env.stack drive 0)
  simp only [MemdumpFunc.command] at out buffer
  simp only [vanilla2384DvdDumpMemblock, rawDumpMemblock, sectors, if_neg valid, out, buffer, codeOf,
    and_self]

end Commands

/-- In step, the two checks end with the same code and, where it is not an error, the same bytes. -/
theorem SameSequence.agree {plain rows buf : Buffer} {stop : Nat} {checked extracted : Bool × Buffer}
    (same : SameSequence plain rows buf 0 stop checked extracted)
    (shown : ∀ a, plain a = if a < stop then rows a else buf a) (failed : Bool) :
    codeOf failed extracted.1 = codeOf failed checked.1 ∧
      (0 ≤ codeOf failed checked.1 → extracted.2 = checked.2) := by
  cases same with
  | broken => exact ⟨rfl, fun succeeded => by simp [codeOf] at succeeded⟩
  | whole data =>
      refine ⟨rfl, fun _ => funext fun a => ?_⟩
      simp [data a, shown a]

/-- For the same sectors the two functions return the same code and leave the same bytes. -/
theorem layouts_agree {σ σ' : Type} {env : Env σ} {env' : Env σ'} {drive : σ} {drive' : σ'}
    {offset : UInt32} {k : Nat} {failed : Bool} {plain raw : Buffer} (positive : 1 ≤ k) (few : k ≤ 27)
    (expands : Expands k plain raw)
    (plainReply : Answers env drive (MemdumpFunc.vanilla2064.command offset (k * 2064).toUInt32)
      (k * 2064) failed plain)
    (rawReply : Answers env' drive'
      (MemdumpFunc.vanilla2384.command (offset / 2064 * 2384) (k * 2384).toUInt32) (k * 2384) failed raw)
    (buf : Buffer) :
    (vanilla2384DvdDumpMemblock env' drive' offset (k * 2064).toUInt32 buf).out =
        (vanilla2064DvdDumpMemblock env drive offset (k * 2064).toUInt32 buf).out ∧
      (0 ≤ (vanilla2064DvdDumpMemblock env drive offset (k * 2064).toUInt32 buf).out →
        (vanilla2384DvdDumpMemblock env' drive' offset (k * 2064).toUInt32 buf).buf =
          (vanilla2064DvdDumpMemblock env drive offset (k * 2064).toUInt32 buf).buf) := by
  generalize plainSize : (k * 2064).toUInt32 = size at plainReply ⊢
  generalize expandedSize : (k * 2384).toUInt32 = rawSize at rawReply
  have value : size.toNat = k * 2064 := plainSize ▸ Nat.mod_eq_of_lt (by omega)
  have rawValue : rawSize.toNat = k * 2384 := expandedSize ▸ Nat.mod_eq_of_lt (by omega)
  have sectors : size / 2064 * 0x950 = rawSize := by
    apply UInt32.toNat_inj.mp
    rw [rawSize_toNat size (by omega), value, rawValue, Nat.mul_div_cancel k (by omega)]
  have valid : ¬ (size = 0 ∨ 65535 < size) := by
    simp only [← UInt32.toNat_inj, UInt32.lt_iff_toNat_lt, value, UInt32.reduceToNat]
    omega
  have rawValid : ¬ (size = 0 ∨ 65535 < rawSize) := by
    simp only [← UInt32.toNat_inj, UInt32.lt_iff_toNat_lt, value, rawValue, UInt32.reduceToNat]
    omega
  rw [← value] at plainReply
  rw [← rawValue] at rawReply
  obtain ⟨out, bytes⟩ := plainReply.plainDump valid buf
  obtain ⟨rawOut, rawBytes⟩ := rawReply.rawDump sectors rawValid buf
  have rounds : (size.toNat + 2063) / 2064 = k := by omega
  have rawRounds : (rawSize.toNat + 2383) / 2384 = k := by omega
  rw [rounds] at out bytes
  rw [rawRounds] at rawOut rawBytes
  have expanded : ∀ a < 2064 * k, answered rawSize.toNat raw (env'.stack drive' 0) (rowPlace a) =
      answered size.toNat plain buf a := by
    intro a inside
    have place := rowPlace_inside inside
    rw [answered, answered, if_pos (by omega), if_pos (by omega)]
    exact expands.rowPlace inside
  have shown : ∀ a, answered size.toNat plain buf a = if a < 2064 * k then
      answered rawSize.toNat raw (env'.stack drive' 0) (rowPlace a) else buf a := by
    intro a
    by_cases inside : a < 2064 * k
    · rw [if_pos inside, expanded a inside]
    · rw [if_neg inside]
      exact if_neg (by omega)
  have same := sameSequence expanded k 0 (Nat.zero_add k) 0x55555555 0 buf
  rw [Nat.mul_zero] at same
  rw [out, bytes, rawOut, rawBytes]
  exact same.agree shown failed

/-- A drive that answers every command alike. -/
private def replying (data : Buffer) : Env Unit where
  ioctl drive mmc :=
    (drive, { failed := false, transferred := mmc.buflen, data := data, sense := ⟨0, 0, 0⟩ })
  stack _ _ := fun _ => 0
  rsDecode := id

private theorem replying_answers (data : Buffer) (cmd : List UInt8) (size : Nat) :
    Answers (replying data) () cmd size false data :=
  ⟨fun _ => rfl, fun _ => Nat.le_refl size, fun _ _ _ => rfl⟩

/-- Sectors numbered from zero on, empty but for their last byte. -/
def markedCache (last : UInt8) : Buffer := fun a =>
  if a % 2064 = 2063 then last else numberedHeader (a / 2064).toUInt32 (a % 2064)

/-- Twelve rows to a sector, the first one with its parity. -/
def rowMemory (cache : Buffer) : Buffer := fun p =>
  if p % 2384 < 182 then encodedWord (cache.advance (2064 * (p / 2384))) (p % 2384)
  else cache (2064 * (p / 2384) + 172 * (p % 2384 / 182) + p % 2384 % 182)

theorem rowMemory_rowPlace (cache : Buffer) (a : Nat) : rowMemory cache (rowPlace a) = cache a := by
  have within := Nat.mod_lt a (by decide : 0 < 2064)
  have split := Nat.div_add_mod a 2064
  have sector : rowPlace a / 2384 = a / 2064 := by
    rw [rowPlace]
    omega
  have inside : rowPlace a % 2384 = 182 * (a % 2064 / 172) + a % 2064 % 172 := by
    rw [rowPlace]
    omega
  have row : rowPlace a % 2384 / 182 = a % 2064 / 172 := by
    rw [inside]
    omega
  have column : rowPlace a % 2384 % 182 = a % 2064 % 172 := by
    rw [inside]
    omega
  rw [rowMemory, sector, row, column, inside]
  split
  · have first : a % 2064 / 172 = 0 := by omega
    have head : a % 2064 % 172 < 172 := Nat.mod_lt _ (by decide)
    rw [first, Nat.mul_zero, Nat.zero_add, encodedWord, if_pos head, Buffer.advance_apply]
    congr 1
    omega
  · congr 1
    omega

private theorem rowMemory_expands (k : Nat) (cache : Buffer) : Expands k cache (rowMemory cache) := by
  intro s _ row sector column inside
  have place : rowPlace (2064 * s + 172 * row + column) = 2384 * s + 182 * row + column := by
    rw [rowPlace]
    omega
  rw [← place]
  exact rowMemory_rowPlace cache _

/-- Two sectors that end in a 7. -/
theorem layouts_agree_marked :
    (vanilla2384DvdDumpMemblock (replying (rowMemory (markedCache 7))) () 0 4128 fun _ => 1).out = 0 ∧
      (vanilla2384DvdDumpMemblock (replying (rowMemory (markedCache 7))) () 0 4128 fun _ => 1).buf =
        (vanilla2064DvdDumpMemblock (replying (markedCache 7)) () 0 4128 fun _ => 1).buf := by
  have agree := @layouts_agree Unit Unit (replying (markedCache 7)) (replying (rowMemory (markedCache 7)))
    () () 0 2 false (markedCache 7) (rowMemory (markedCache 7)) (by decide) (by decide)
    (rowMemory_expands 2 (markedCache 7)) (replying_answers _ _ _) (replying_answers _ _ _) fun _ => 1
  have succeeded : (vanilla2064DvdDumpMemblock (replying (markedCache 7)) () 0 4128 fun _ => 1).out = 0 := by
    decide +kernel
  exact ⟨agree.1.trans succeeded, agree.2 (Int.le_of_eq succeeded.symm)⟩

end Friidump
