import Friidump.ImageDump

/-!
# Where a dump stops

If the files take whatever they are given, only a block that cannot be read stops a dump.
The files then end with the block before it, and there the next dump begins.
-/

set_option autoImplicit false

namespace Friidump

open Theory (AppendStream WriteReply FlushReply)

/-! ## One output -/

section OneOutput

variable {size n : Nat} {o : Output}

theorem reply_accepted (taken out : Nat) : WriteReply.accepted taken ≠ .dropped out := nofun

theorem reply_flushed (out : Nat) : FlushReply.flushed ≠ .dropped out := nofun

/-- The stream has so many sectors. -/
def Output.Holds (size n : Nat) (o : Output) : Prop :=
  ∃ fp, o.fp = some fp ∧ fp.content.length = n * size

theorem Output.TruncatedTo.holds {startSector : UInt32} {before : File}
    (truncated : o.TruncatedTo size startSector before) : o.Holds size startSector.toNat := by
  obtain ⟨fp, stream, -, length⟩ := truncated
  exact ⟨fp, stream, length⟩

theorem Output.Holds.given (holds : o.Holds size n) (flushing hashing out : Bool) {bytes : List UInt8}
    (whole : bytes.length = size) {write : WriteReply} (accepted : ∃ out, write = .accepted out) {flush : FlushReply}
    (flushed : flush = .flushed) :
    (o.dumpSector flushing hashing out (some bytes) write flush).1.Holds size (n + 1) := by
  obtain ⟨fp, stream, length⟩ := holds
  obtain ⟨taken, rfl⟩ := accepted
  subst flushed
  have written : (fp.clearError.write bytes (.accepted taken)).content.length = (n + 1) * size := by
    rw [AppendStream.write_content _ _ (reply_accepted taken), List.length_append, whole, Nat.succ_mul, ← length]
    rfl
  rw [Output.dumpSector_bytes stream rfl]
  refine ⟨_, rfl, ?_⟩
  cases flushing with
  | false => exact written
  | true =>
      rw [if_pos rfl, AppendStream.flush_content _ reply_flushed]
      exact written

theorem Output.Holds.missing (holds : o.Holds size n) (flushing hashing out : Bool) (write : WriteReply)
    {flush : FlushReply} (flushed : flush = .flushed) :
    (o.dumpSector flushing hashing out none write flush).1.Holds size n ∧
      (o.dumpSector flushing hashing out none write flush).2 = false := by
  obtain ⟨fp, stream, length⟩ := holds
  subst flushed
  rw [Output.dumpSector_missing stream]
  refine ⟨⟨_, rfl, ?_⟩, rfl⟩
  cases flushing with
  | false => exact length
  | true =>
      rw [if_pos rfl, AppendStream.flush_content _ reply_flushed]
      exact length

theorem Output.dumpSector_after_error (o : Output) (flushing hashing : Bool)
    (buf : Option (List UInt8)) (write : WriteReply) (flush : FlushReply) : (o.dumpSector flushing hashing false buf write flush).2 = false := by
  cases stream : o.fp with
  | none => rw [Output.dumpSector_closed stream]
  | some fp =>
      cases buf with
      | none => rw [Output.dumpSector_missing stream]
      | some bytes =>
          rw [Output.dumpSector_bytes stream rfl]
          exact ite_self false

theorem Output.Holds.close (holds : o.Holds size n) :
    ∃ fp, (o.close .flushed).fp = some fp ∧ fp.file.length = n * size := by
  obtain ⟨fp, stream, length⟩ := holds
  exact ⟨fp.close .flushed, by rw [Output.close, stream]; rfl, by rw [AppendStream.close_file, length]⟩

end OneOutput

/-! ## The loop over the sectors -/

structure Dumper.Holds (options : Options) (n : Nat) (dmp : Dumper) : Prop where
  raw : options.raw = true → dmp.raw.Holds 2064 n
  iso : options.iso = true → dmp.iso.Holds 2048 n

section Loop

variable {σ : Type} {env : Env σ} {host : Host} {w w' : World σ} {options : Options}

theorem discReadSector_present {i : UInt32} (present : Present w (i / 16)) {read : SectorRead}
    (returned : discReadSector env ⟨i, true, true⟩ w = .ok (w', read)) : read.out = true := by
  have ended := discReadSector_returned env w ⟨i, true, true⟩
  rw [returned] at ended
  cases ended with
  | cached => rfl
  | read => rfl
  | failed missing => exact absurd missing ((present_iff w _).mp present)

/-- A read hands over both sectors, or none. -/
theorem discReadSector_sectors_or_none {i : UInt32} {read : SectorRead}
    (returned : discReadSector env ⟨i, true, true⟩ w = .ok (w', read)) :
    (read.out = true ∧ ∃ rawdata data, read.rawdata = some rawdata ∧ read.data = some data) ∨
      (read.out = false ∧ read.rawdata = none ∧ read.data = none) := by
  have ended := discReadSector_returned env w ⟨i, true, true⟩
  rw [returned] at ended
  cases ended with
  | cached => exact .inl ⟨rfl, _, _, rfl, rfl⟩
  | read => exact .inl ⟨rfl, _, _, rfl, rfl⟩
  | failed => exact .inr ⟨rfl, rfl, rfl⟩

theorem div_block_next {i : UInt32} (room : i.toNat + 1 < 2 ^ 32) (within : (i + 1).toNat % 16 ≠ 0) :
    (i + 1) / 16 = i / 16 := by
  have next : (i + 1).toNat = i.toNat + 1 := toNat_add_one room
  apply UInt32.toNat_inj.mp
  rw [UInt32.toNat_div, UInt32.toNat_div, next]
  rw [next] at within
  simp only [UInt32.reduceToNat]
  omega

theorem dumpLoop_stopped (writes : host.Writes) (wanted : options.raw = true ∨ options.iso = true)
    {currentSector i : UInt32} {left : Nat} {dmp : Dumper} (room : i.toNat + left < 2 ^ 32)
    (holds : dmp.Holds options i.toNat) (block : i.toNat % 16 ≠ 0 → Present w (i / 16))
    {ended : DumpEnd (World σ)}
    (loop : dumpLoop (fun i w => discReadSector env ⟨i, true, true⟩ w) host currentSector left i dmp w =
      ended) (stopped : ended.out = .ok false) :
    ended.currentSector.toNat % 16 = 0 ∧ ended.dmp.Holds options ended.currentSector.toNat := by
  induction left generalizing i dmp w with
  | zero =>
      subst loop
      cases stopped
  | succ left ih =>
      obtain ⟨rawWrite, rawFlush, isoWrite, isoFlush⟩ := writes i
      rcases ok : discReadSector env ⟨i, true, true⟩ w with abort | ⟨w', read⟩
      · rw [dumpLoop, ok] at loop
        subst loop
        cases stopped
      · rcases rawEnd : dmp.raw.dumpSector dmp.flushing dmp.hashing true
          (read.rawdata.map fun rawbuf => rawbuf.bytes 2064) (host.sector i).rawWrite
          (host.sector i).rawFlush with ⟨raw, out⟩
        rcases isoEnd : dmp.iso.dumpSector dmp.flushing dmp.hashing out
          (read.data.map fun isobuf => isobuf.bytes 2048) (host.sector i).isoWrite
          (host.sector i).isoFlush with ⟨iso, out'⟩
        rw [@dumpLoop_succ _ (fun i w => discReadSector env ⟨i, true, true⟩ w) host currentSector i left
          dmp w w' read raw iso out out' ok rawEnd isoEnd] at loop
        obtain ⟨success, rawdata, data, rawPointer, isoPointer⟩ | ⟨failure, rawPointer, isoPointer⟩ :=
          discReadSector_sectors_or_none ok
        · rw [rawPointer, Option.map_some] at rawEnd
          rw [isoPointer, Option.map_some] at isoEnd
          have rawOut : out = true := (congrArg Prod.snd rawEnd).symm.trans
            (Output.dumpSector_accepted _ _ _ _ rawWrite _)
          subst rawOut
          have isoOut : out' = true := (congrArg Prod.snd isoEnd).symm.trans
            (Output.dumpSector_accepted _ _ _ _ isoWrite _)
          rw [if_pos isoOut] at loop
          have next : (i + 1).toNat = i.toNat + 1 := toNat_add_one (by omega)
          have cached : Present w' (i / 16) :=
            @discReadSector_cachesBlock σ env w w' ⟨i, true, true⟩ read ok success
          refine ih (by omega) ⟨fun wanted => ?_, fun wanted => ?_⟩ (fun within => ?_) loop
          · have held := (holds.raw wanted).given dmp.flushing dmp.hashing true
              (Buffer.length_bytes rawdata 2064) rawWrite rawFlush
            rw [rawEnd] at held
            rw [next]
            exact held
          · have held := (holds.iso wanted).given dmp.flushing dmp.hashing true
              (Buffer.length_bytes data 2048) isoWrite isoFlush
            rw [isoEnd] at held
            rw [next]
            exact held
          · rw [div_block_next (by omega) within]
            exact cached
        · rw [rawPointer, Option.map_none] at rawEnd
          rw [isoPointer, Option.map_none] at isoEnd
          have aligned : i.toNat % 16 = 0 := by
            by_contra within
            cases failure.symm.trans (discReadSector_present (block within) ok)
          have rawHeld := fun wanted => (holds.raw wanted).missing dmp.flushing dmp.hashing true
            (host.sector i).rawWrite rawFlush
          have isoHeld := fun wanted => (holds.iso wanted).missing dmp.flushing dmp.hashing out
            (host.sector i).isoWrite isoFlush
          rw [rawEnd] at rawHeld
          rw [isoEnd] at isoHeld
          have failed : out' = false := by
            cases wanted with
            | inl raw =>
                have rawOut := (rawHeld raw).2
                dsimp only at rawOut
                subst rawOut
                exact (congrArg Prod.snd isoEnd).symm.trans (Output.dumpSector_after_error ..)
            | inr iso => exact (isoHeld iso).2
          rw [if_neg (by rw [failed]; exact Bool.false_ne_true)] at loop
          subst loop
          exact ⟨aligned, fun wanted => (rawHeld wanted).1, fun wanted => (isoHeld wanted).1⟩

end Loop

end Friidump
