import Friidump.DumpCompleteness

/-!
# Where a resumed dump goes on

The file positions that `dumper_prepare` passes to `my_fseek` and `ftruncate`.
-/

set_option autoImplicit false

namespace Friidump

/-- `dumper_prepare` passes this offset to `my_fseek` and this length to `ftruncate`: the
stream of the output is open afterwards exactly if both calls succeed there. -/
def PassesPosition (dmp : Dumper) (output : Dumper → Output) (replies : Host → SetupReplies)
    (offset : UInt32) (length : Nat) : Prop :=
  ∀ host, (output (dumperPrepare dmp host).1).fp.isSome =
    ((replies host).fseek offset && (replies host).ftruncate length)

/-- The offset is the length, and both are so many bytes. -/
def PositionExact (dmp : Dumper) (output : Dumper → Output) (replies : Host → SetupReplies)
    (bytes : Nat) : Prop :=
  ∃ offset length, PassesPosition dmp output replies offset length ∧ offset.toNat = length ∧
    length = bytes

structure RestartsExactly (options : Options) (dmp : Dumper) (startSector : UInt32) : Prop where
  raw : options.raw = true → PositionExact dmp Dumper.raw Host.raw (startSector.toNat * 2064)
  iso : options.iso = true → PositionExact dmp Dumper.iso Host.iso (startSector.toNat * 2048)

section Position

variable {dmp : Dumper} {output : Dumper → Output} {replies : Host → SetupReplies}

theorem PassesPosition.unique (every : Function.Surjective replies) {offset offset' : UInt32}
    {length length' : Nat} (passes : PassesPosition dmp output replies offset length)
    (passes' : PassesPosition dmp output replies offset' length') :
    offset = offset' ∧ length = length' := by
  obtain ⟨host, chosen⟩ := every ⟨fun position => position = offset, fun size => size = length⟩
  have same := (passes host).symm.trans (passes' host)
  simp only [chosen, decide_true, Bool.and_self, Bool.true_eq, Bool.and_eq_true,
    decide_eq_true_eq] at same
  exact ⟨same.1.symm, same.2.symm⟩

/-- A product of 32 bits stands beside one of 64. -/
theorem positionExact_iff (every : Function.Surjective replies) {startSector : UInt32} {size : Nat}
    (small : size < 2 ^ 32)
    (passes : PassesPosition dmp output replies (startSector * size.toUInt32)
      (startSector.toNat * size)) :
    PositionExact dmp output replies (startSector.toNat * size) ↔ startSector.toNat * size < 2 ^ 32 := by
  have product : (startSector * size.toUInt32).toNat = startSector.toNat * size % 2 ^ 32 := by
    rw [UInt32.toNat_mul]
    exact congrArg (fun factor => startSector.toNat * factor % 2 ^ 32) (Nat.mod_eq_of_lt small)
  constructor
  · rintro ⟨offset, length, passed, same, bytes⟩
    obtain ⟨rfl, rfl⟩ := passed.unique every passes
    rw [← same]
    exact (startSector * size.toUInt32).toNat_lt
  · intro fits
    exact ⟨_, _, passes, product.trans (Nat.mod_eq_of_lt fits), rfl⟩

end Position

theorem Output.SetUp.isSome_fp {size : Nat} {startSector : UInt32} {hashing done : Bool}
    {before : File} {o : Output} (setUp : o.SetUp size startSector hashing true done before) :
    o.fp.isSome = done := by
  cases done with
  | false => simp [setUp.closed rfl rfl]
  | true =>
      obtain ⟨fp, opened, -⟩ := setUp.opened rfl rfl
      simp [opened]

section Prepared

variable {options : Options} {files : Files} {dmp : Dumper} {startSector : UInt32}

theorem Dumper.SetTo.passes_raw (set : dmp.SetTo options files)
    (start : dmp.chooseStart = some startSector) (wanted : options.raw = true) :
    PassesPosition dmp Dumper.raw Host.raw (startSector * (2064 : Nat).toUInt32)
      (startSector.toNat * 2064) := by
  intro host
  obtain ⟨dmp', ready, prepared⟩ := dumperPrepare_prepared set start host
  have setUp := prepared.raw
  rw [wanted] at setUp
  rw [ready]
  exact setUp.isSome_fp

theorem Dumper.SetTo.passes_iso (set : dmp.SetTo options files)
    (start : dmp.chooseStart = some startSector) (wanted : options.iso = true) :
    PassesPosition dmp Dumper.iso Host.iso (startSector * (2048 : Nat).toUInt32)
      (startSector.toNat * 2048) := by
  intro host
  obtain ⟨dmp', ready, prepared⟩ := dumperPrepare_prepared set start host
  have setUp := prepared.iso
  rw [wanted] at setUp
  rw [ready]
  exact setUp.isSome_fp

private theorem every_raw : Function.Surjective Host.raw := fun replies =>
  ⟨{ blankHost .flushed with raw := replies }, rfl⟩

private theorem every_iso : Function.Surjective Host.iso := fun replies =>
  ⟨{ blankHost .flushed with iso := replies }, rfl⟩

private theorem Dumper.SetTo.restartsExactly_iff (set : dmp.SetTo options files)
    (start : dmp.chooseStart = some startSector) :
    RestartsExactly options dmp startSector ↔
      (options.raw = true → startSector.toNat * 2064 < 2 ^ 32) ∧
        (options.iso = true → startSector.toNat * 2048 < 2 ^ 32) := by
  have raw : options.raw = true →
      (PositionExact dmp Dumper.raw Host.raw (startSector.toNat * 2064) ↔ _) := fun wanted =>
    positionExact_iff every_raw (by decide) (set.passes_raw start wanted)
  have iso : options.iso = true →
      (PositionExact dmp Dumper.iso Host.iso (startSector.toNat * 2048) ↔ _) := fun wanted =>
    positionExact_iff every_iso (by decide) (set.passes_iso start wanted)
  constructor
  · intro restarts
    exact ⟨fun wanted => (raw wanted).mp (restarts.raw wanted),
      fun wanted => (iso wanted).mp (restarts.iso wanted)⟩
  · rintro ⟨rawFits, isoFits⟩
    exact ⟨fun wanted => (raw wanted).mpr (rawFits wanted),
      fun wanted => (iso wanted).mpr (isoFits wanted)⟩

/-- The positions are exact as long as the files kept are shorter than 4 GiB. -/
theorem restartsExactly_below_4GiB {resume : Bool}
    (set : dumperSetOutputFiles options files resume = some dmp)
    (start : dmp.chooseStart = some startSector) :
    RestartsExactly options dmp startSector ↔
      (options.raw = true → startSector.toNat * 2064 < 2 ^ 32) ∧
        (options.iso = true → startSector.toNat * 2048 < 2 ^ 32) :=
  (dumperSetOutputFiles_setTo set).restartsExactly_iff start

private theorem resumed_start {raw iso : List UInt8} (rawLength : raw.length = 33124)
    (isoLength : iso.length = 65536) :
    ∃ dmp, dumperSetOutputFiles ⟨true, true, true, true⟩ ⟨some raw, some iso⟩ true = some dmp ∧
      dmp.chooseStart = some 16 := by
  obtain ⟨dmp, set, start⟩ : ∃ dmp,
      dumperSetOutputFiles ⟨true, true, true, true⟩ ⟨some raw, some iso⟩ true = some dmp ∧
        dmp.chooseStart = if (raw.length / 2064 / 16).toUInt32 * 16 ≠ (iso.length / 2048 / 16).toUInt32 * 16
          then some (if (raw.length / 2064 / 16).toUInt32 * 16 < (iso.length / 2048 / 16).toUInt32 * 16 then
            (raw.length / 2064 / 16).toUInt32 * 16 else (iso.length / 2048 / 16).toUInt32 * 16)
          else some ((raw.length / 2064 / 16).toUInt32 * 16) :=
    ⟨_, rfl, by simp [Dumper.chooseStart]⟩
  refine ⟨dmp, set, start.trans ?_⟩
  rw [rawLength, isoLength]
  decide

/-- A raw file that ends within its second block, and an ISO file of two blocks. -/
theorem restartsExactly_resumed :
    ∃ dmp, dumperSetOutputFiles ⟨true, true, true, true⟩
        ⟨some (List.replicate 33124 0), some (List.replicate 65536 0)⟩ true = some dmp ∧
      dmp.chooseStart = some 16 ∧ RestartsExactly ⟨true, true, true, true⟩ dmp 16 := by
  obtain ⟨dmp, set, start⟩ := resumed_start (List.length_replicate (a := (0 : UInt8)))
    (List.length_replicate (a := (0 : UInt8)))
  exact ⟨dmp, set, start,
    (restartsExactly_below_4GiB set start).mpr ⟨fun _ => by decide, fun _ => by decide⟩⟩

end Prepared

private theorem restartsExactly_fails_of_length {bytes : List UInt8}
    (length : bytes.length = 4294969344) :
    ∃ dmp, dumperSetOutputFiles ⟨true, false, true, true⟩ ⟨some bytes, none⟩ true = some dmp ∧
      dmp.chooseStart = some 2080896 ∧ ¬ RestartsExactly ⟨true, false, true, true⟩ dmp 2080896 := by
  have sectors : (bytes.length / 2064 / 16).toUInt32 * 16 = 2080896 := by
    rw [length]
    decide
  obtain ⟨dmp, set, start⟩ : ∃ dmp,
      dumperSetOutputFiles ⟨true, false, true, true⟩ ⟨some bytes, none⟩ true = some dmp ∧
        dmp.chooseStart = some ((bytes.length / 2064 / 16).toUInt32 * 16) := ⟨_, rfl, rfl⟩
  rw [sectors] at start
  refine ⟨dmp, set, start, fun restarts => ?_⟩
  have fits := ((dumperSetOutputFiles_setTo set).restartsExactly_iff start).mp restarts
  exact absurd (fits.1 rfl) (by decide)

/-- A raw file of 2080896 sectors, just over 4 GiB. -/
theorem restartsExactly_fails_4GiB :
    ∃ dmp, dumperSetOutputFiles ⟨true, false, true, true⟩
        ⟨some (List.replicate 4294969344 0), none⟩ true = some dmp ∧
      dmp.chooseStart = some 2080896 ∧ ¬ RestartsExactly ⟨true, false, true, true⟩ dmp 2080896 :=
  restartsExactly_fails_of_length List.length_replicate

end Friidump
