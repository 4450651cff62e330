import Friidump.DumpIntegrity

/-!
# Dumps of a drive that carries an image

A dump reads block by block, each from its first sector on. So it asks for nothing
that the read methods 0 to 6 misplace, and what it writes is the image.
-/

set_option autoImplicit false

namespace Friidump

section ImageDump

variable {σ : Type} {env : Env σ} {host : Host} {lba : σ → UInt32} {image : DiscImage} {w w' : World σ}
  {options : Options} {files : Files} {startSector : UInt32} {dmp : HashedDumper}

/-- A sector that was returned has its block in the cache. -/
theorem discReadSector_cachesBlock {request : Request} {read : SectorRead}
    (returned : discReadSector env request w = .ok (w', read)) (out : read.out = true) :
    Present w' (request.sectorNo / 16) := by
  have ended := discReadSector_returned env w request
  rw [returned] at ended
  rw [present_iff]
  cases ended with
  | cached found =>
      rw [found]
      exact Option.some_ne_none _
  | read _ _ found =>
      rw [found]
      exact Option.some_ne_none _
  | failed => cases out

/-- Where the dump comes to a sector that starts no block, it has read that block just before. -/
structure Following (env : Env σ) (lba : σ → UInt32) (image : DiscImage) (disctype : UInt8) (n : Nat)
    (w : World σ) : Prop where
  addressed : Addressed env lba image w
  mode : w.disctype = disctype
  block : n % 16 ≠ 0 → Present w (n.toUInt32 / 16)

theorem Following.read {disctype : UInt8} {n : Nat} (follows : Following env lba image disctype n w)
    (inside : n < 16 * image.blocks) {read : SectorRead}
    (returned : discReadSector env ⟨n.toUInt32, true, true⟩ w = .ok (w', read))
    (given : read.rawdata.isSome ∨ read.data.isSome) :
    Following env lba image disctype (n + 1) w' ∧
      image.Returns (dataOffset disctype) ⟨n.toUInt32, true, true⟩ read := by
  have bound := image.bound inside
  have value : n.toUInt32.toNat = n := by rw [toNat_toUInt32, Nat.mod_eq_of_lt (by omega)]
  have next : (n + 1).toUInt32.toNat = n + 1 := by rw [toNat_toUInt32, Nat.mod_eq_of_lt (by omega)]
  have out := (discReadSector_both returned given).1
  have answers : image.Answers w n.toUInt32 := by
    by_cases aligned : n % 16 = 0
    · refine .inr (.inl (UInt32.toNat_inj.mp ?_))
      rw [UInt32.toNat_mod, value]
      exact aligned
    · exact .inl (follows.block aligned)
  have within : n.toUInt32.toNat < 16 * image.blocks := by
    rw [value]
    exact inside
  obtain ⟨addressed, shown⟩ := @discReadSector_addressed σ env lba image w w' follows.addressed
    ⟨n.toUInt32, true, true⟩ within answers read returned
  have cached : Present w' (n.toUInt32 / 16) :=
    @discReadSector_cachesBlock σ env w w' ⟨n.toUInt32, true, true⟩ read returned out
  have mode := discReadSector_disctype follows.addressed.opened.formed returned
  rw [follows.mode] at shown mode
  refine ⟨⟨addressed, mode, fun within => ?_⟩, shown out⟩
  have same : (n + 1).toUInt32 / 16 = n.toUInt32 / 16 := by
    apply UInt32.toNat_inj.mp
    rw [UInt32.toNat_div, UInt32.toNat_div, value, next]
    simp only [UInt32.reduceToNat]
    omega
  rw [same]
  exact cached

/-- The states that the reads of a dump start from. -/
theorem HashedDumper.Ready.following (ready : dmp.Ready options files host startSector)
    (aligned : startSector.toNat % 16 = 0) (addressed : Addressed env lba image w)
    (whole : w.disc.sectorsNo.toNat ≤ 16 * image.blocks)
    (success : (hashedDump env host dmp w 0).out = .ok true) {n : Nat}
    (inside : startSector.toNat + n ≤ w.disc.sectorsNo.toNat) :
    Following env lba image w.disctype (startSector.toNat + n)
      (sourceAfter (fun i w => discReadSector env ⟨i, true, true⟩ w) startSector w n) := by
  induction n with
  | zero => exact ⟨addressed, rfl, fun within => absurd aligned within⟩
  | succ n ih =>
      have few := w.disc.sectorsNo.toNat_lt
      have follows := ih (by omega)
      obtain ⟨read, ok, given⟩ := ready.given success (Nat.le_add_right _ n) (by omega)
      obtain ⟨after, returned⟩ := dumpedReads_returned ok
      have number : (startSector.toNat + n).toUInt32 = startSector + n.toUInt32 := by
        rw [Nat.toUInt32_eq, UInt32.ofNat_add, UInt32.ofNat_toNat]
      have place : ((startSector.toNat + n).toUInt32 - startSector).toNat = n := by
        rw [number, sub_left_toNat (by omega)]
      rw [place] at returned
      have next := (follows.read (by omega) returned given).1
      rw [number] at returned
      rw [sourceAfter_next returned]
      exact next

/-- What a dump gets to see are the sectors of the image. -/
theorem HashedDumper.Ready.shows (ready : dmp.Ready options files host startSector)
    (aligned : startSector.toNat % 16 = 0) (addressed : Addressed env lba image w)
    (whole : w.disc.sectorsNo.toNat ≤ 16 * image.blocks)
    (success : (hashedDump env host dmp w 0).out = .ok true) {k : Nat} (after : startSector.toNat ≤ k)
    (before : k < w.disc.sectorsNo.toNat) :
    (dumpedImage env w startSector).raw k = (image.sector k).bytes 2064 ∧
      (dumpedImage env w startSector).data k =
        ((image.sector k).advance (dataOffset w.disctype)).bytes 2048 := by
  obtain ⟨n, rfl⟩ := Nat.exists_eq_add_of_le after
  have few := w.disc.sectorsNo.toNat_lt
  have follows := ready.following aligned addressed whole success (Nat.le_of_lt before)
  obtain ⟨read, ok, given⟩ := ready.given success after before
  obtain ⟨_, returned⟩ := dumpedReads_returned ok
  have number : (startSector.toNat + n).toUInt32 = startSector + n.toUInt32 := by
    rw [Nat.toUInt32_eq, UInt32.ofNat_add, UInt32.ofNat_toNat]
  have place : ((startSector.toNat + n).toUInt32 - startSector).toNat = n := by
    rw [number, sub_left_toNat (by omega)]
  have value : (startSector.toNat + n).toUInt32.toNat = startSector.toNat + n := by
    rw [toNat_toUInt32, Nat.mod_eq_of_lt (by omega)]
  rw [place] at returned
  obtain ⟨-, shown⟩ := follows.read (by omega) returned given
  obtain ⟨rawBytes, dataBytes⟩ := dumpedImage_sector ok
  obtain ⟨rawdata, rawPointer, raw⟩ := shown.rawdata rfl
  obtain ⟨data, dataPointer, user⟩ := shown.data rfl
  dsimp only at raw user
  rw [value] at raw user
  constructor
  · rw [rawBytes rawdata rawPointer]
    exact Buffer.bytes_congr raw
  · rw [dataBytes data dataPointer]
    exact Buffer.bytes_congr user

theorem Output.Dumped.congr {sector sector' : Nat → List UInt8} {size start total : Nat} {before : File}
    {hashing : Bool} {context : Sha1Ctx} {o : Output}
    (dumped : o.Dumped sector size before start total hashing context)
    (same : ∀ k, start ≤ k → k < total → sector k = sector' k) :
    o.Dumped sector' size before start total hashing context := by
  obtain ⟨enough, fp, stream, file, digests⟩ := dumped
  refine ⟨enough, fp, stream, ?_, digests⟩
  have sectors : (List.range' start (total - start)).flatMap sector =
      (List.range' start (total - start)).flatMap sector' := by
    refine List.flatMap_congr fun k member => ?_
    obtain ⟨lower, upper⟩ := List.mem_range'_1.mp member
    exact same k lower (by omega)
  rw [file, sectors]

/-- The outputs hold the sectors of the image after what they have kept of the files, and the
digests are those of the files. -/
structure HashedDumper.HoldsImage (image : DiscImage) (offset total : Nat) (options : Options)
    (files : Files) (host : Host) (startSector : UInt32) (dmp : HashedDumper) : Prop where
  raw : options.raw = true → ¬ Masked options host startSector →
    dmp.files.raw.Dumped (fun k => (image.sector k).bytes 2064) 2064 files.raw startSector.toNat total
      options.hashing dmp.rawSha1
  iso : options.iso = true →
    dmp.files.iso.Dumped (fun k => ((image.sector k).advance offset).bytes 2048) 2048 files.iso
      startSector.toNat total options.hashing dmp.isoSha1

theorem HashedDumper.Ready.holdsImage (ready : dmp.Ready options files host startSector)
    (aligned : startSector.toNat % 16 = 0) (addressed : Addressed env lba image w) (sound : CacheSound w)
    (whole : w.disc.sectorsNo.toNat ≤ 16 * image.blocks) (keeps : host.KeepsAccepted)
    (rawClose : host.rawClose = .flushed) (isoClose : host.isoClose = .flushed)
    (success : (hashedDump env host dmp w 0).out = .ok true) :
    (hashedDump env host dmp w 0).dmp.HoldsImage image (dataOffset w.disctype) w.disc.sectorsNo.toNat
      options files host startSector := by
  have ended := ready.sound sound keeps rawClose isoClose success
  have shows := fun k => @HashedDumper.Ready.shows σ env host lba image w options files startSector dmp
    ready aligned addressed whole success k
  constructor
  · intro wanted unmasked
    exact (ended.raw wanted unmasked).congr fun k after before => (shows k after before).1
  · intro wanted
    exact (ended.iso wanted).congr fun k after before => (shows k after before).2

end ImageDump

end Friidump
