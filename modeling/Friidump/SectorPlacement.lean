import Friidump.CountingDrive

/-!
# Where blocks are filed

The position is checked at the first sector of a step, the sequence within a
chunk. The two checks meet only while a step is a single chunk.
-/

set_option autoImplicit false

namespace Friidump

/-! ## The sequence within a dump -/

def InSequence (_ : UInt32) (_ length : Nat) (bytes : Buffer) : Prop :=
  (0 < length → bytes 0 &&& 1 = 0) ∧
    ∀ i, 2064 * i + 2064 ≤ length →
      sectorNumber (bytes.advance (2064 * i)) = sectorNumber bytes + i.toUInt32

theorem inSequence_rule : DumpRule InSequence where
  congr := by
    rintro lba offset length bytes bytes' same ⟨layer, sequence⟩
    refine ⟨fun positive => (same 0 positive).symm ▸ layer positive, fun i inside => ?_⟩
    have here : sectorNumber (bytes'.advance (2064 * i)) = sectorNumber (bytes.advance (2064 * i)) :=
      sectorNumber_congr fun k below => same _ (by omega)
    have first : sectorNumber bytes' = sectorNumber bytes :=
      sectorNumber_congr fun k below => same _ (by omega)
    rw [here, first]
    exact sequence i inside
  shorter := by
    rintro lba offset length length' bytes le ⟨layer, sequence⟩
    exact ⟨fun positive => layer (Nat.lt_of_lt_of_le positive le),
      fun i inside => sequence i (Nat.le_trans inside le)⟩

section Placement

variable {σ : Type}

def LayerZero (env : Env σ) : Prop :=
  ∀ drive mmc i, (env.ioctl drive mmc).2.data (2064 * i) &&& 1 = 0

theorem dvdExecuteCmd_layerZero {env : Env σ} (layerZero : LayerZero env) (drive : σ)
    (cmd : List UInt8) (buf : Buffer) {len : Nat} (positive : 0 < len) (ignoreErrors : Bool) :
    (dvdExecuteCmd env drive (dvdInitCommand cmd buf len) ignoreErrors).buffer 0 &&& 1 = 0 := by
  rw [dvdExecuteCmd]
  dsimp only
  rw [Buffer.memcpy]
  split
  · exact layerZero _ _ 0
  · have cleared : (dvdInitCommand cmd buf len).buffer 0 = 0 :=
      if_pos ⟨Nat.le_refl 0, (Nat.zero_add len).symm ▸ positive⟩
    rw [cleared]
    rfl

theorem sequencedDump_inSequence {env : Env σ} (layerZero : LayerZero env) {drive : σ}
    {cmd : List UInt8} {size : UInt32} {buf : Buffer}
    (succeeded : 0 ≤ (sequencedDumpMemblock env drive cmd size buf).out) (lba : UInt32) (offset : Nat) :
    InSequence lba offset size.toNat (sequencedDumpMemblock env drive cmd size buf).buf := by
  obtain ⟨_, same, following⟩ := sequencedDump_succeeded succeeded
  refine ⟨fun positive => ?_, following⟩
  rw [same]
  exact dvdExecuteCmd_layerZero layerZero drive cmd buf positive false

theorem vanilla2064_inSequence {env : Env σ} (layerZero : LayerZero env) :
    Promises env .vanilla2064 (fun _ => 0) InSequence := by
  intro drive offset size buf succeeded
  refine ⟨rfl, ?_⟩
  rw [dvdMemdump_one] at succeeded ⊢
  exact sequencedDump_inSequence layerZero succeeded 0 _

/-! ## Blocks of a single chunk -/

/-- Every sector of the block has the number that its place in the cache says. -/
def RightlyFiled (entry : CachedBlock) : Prop :=
  ∀ k < 16, sectorNumber (entry.rawdata.advance (2064 * k)) =
    0x30000 + 16 * entry.block + Nat.toUInt32 k

theorem misplaced_layerZero {bytes : Buffer} {sector : UInt32} (layer : bytes 0 &&& 1 = 0)
    (placed : misplaced bytes sector = false) : sectorNumber bytes = 0x30000 + sector := by
  rw [misplaced, layer] at placed
  simpa using placed

/-- The sectors of a whole pass follow each other while a step is a single chunk. -/
theorem streamLoop_placed {env : Env σ} {w w' : World σ} {method : Nat} {sectorNo cnt : UInt32}
    (layerZero : LayerZero env) (vanilla : w.disc.dvd.memdump = .vanilla2064)
    (ranged : Ranged w.disc) (single : w.disc.secMem.toNat ≤ 27)
    (loop : streamLoop env method sectorNo (w.disc.maxCnt.toNat + 1) 0 w = (w', true, cnt)) {q : Nat}
    (inside : q < w.disc.secMem.toNat * (w.disc.maxCnt.toNat + 1)) :
    sectorNumber (w'.buf.advance (2064 * q)) = 0x30000 + sectorNo + q.toUInt32 := by
  have promises : Promises env w.disc.dvd.memdump (fun _ => 0) InSequence := by
    rw [vanilla]
    exact vanilla2064_inSequence layerZero
  have bound : (0 : UInt32).toNat + (w.disc.maxCnt.toNat + 1) ≤ 16 := by
    have rounds := ranged.rounds
    simp only [UInt32.reduceToNat]
    omega
  have anywhere : Seeks env (fun _ => 0) fun _ => 0 := fun _ _ _ _ _ => rfl
  obtain ⟨_, dumped⟩ := streamLoop_dumped ranged bound inSequence_rule promises anywhere loop
  -- Sector `q` is sector `i` of step `c`.
  have positive : 0 < w.disc.secMem.toNat := Nat.lt_of_lt_of_le (by decide) ranged.lower
  have split := Nat.div_add_mod q w.disc.secMem.toNat
  have early : q / w.disc.secMem.toNat < w.disc.maxCnt.toNat + 1 := Nat.div_lt_of_lt_mul inside
  have insideStep := Nat.mod_lt q positive
  generalize q / w.disc.secMem.toNat = c at split early
  generalize q % w.disc.secMem.toNat = i at split insideStep
  have step := dumped c (Nat.zero_le c) (Nat.lt_of_lt_of_eq early (Nat.zero_add _).symm)
  obtain ⟨one, _, size⟩ | ⟨_, _, long, _⟩ := chunksOf_cases ranged.lower ranged.upper
  · obtain ⟨layer, sequence⟩ := step.shown 0 (one.symm ▸ Nat.one_pos)
    rw [size, Nat.zero_mul, Nat.sub_zero, Nat.min_self, Buffer.advance_zero] at layer sequence
    have following := sequence i (by omega)
    have first := misplaced_layerZero (layer (Nat.mul_pos (by decide) positive)) step.placed
    have here : w'.buf.advance (2064 * q) =
        (w'.buf.advance (c * (2064 * w.disc.secMem.toNat))).advance (2064 * i) := by
      funext a
      rw [Buffer.advance_apply, Buffer.advance_apply, Buffer.advance_apply, ← split,
        Nat.mul_left_comm c, Nat.mul_comm c, Nat.mul_add, Nat.add_assoc]
    have number : q.toUInt32 = c.toUInt32 * w.disc.secMem + i.toUInt32 := by
      rw [← split, Nat.toUInt32_eq, UInt32.ofNat_add, UInt32.ofNat_mul, UInt32.ofNat_toNat,
        UInt32.mul_comm]
    rw [here, following, first, number]
    grind
  · omega

variable {env : Env σ} {w w' : World σ} {method : Nat} {sectorNo : UInt32}

/-- A disc set up for a pass whose steps are single chunks. -/
structure SingleChunks (w : World σ) : Prop where
  formed : SeedsWellFormed w.disc.u
  vanilla : w.disc.dvd.memdump = .vanilla2064
  ranged : Ranged w.disc
  single : w.disc.secMem.toNat ≤ 27

theorem Extends.singleChunks {P : CachedBlock → Prop} (kept : Extends P w w')
    (chunks : SingleChunks w) : SingleChunks w' where
  formed := kept.formed chunks.formed
  vanilla := by
    rw [kept.disc]
    exact chunks.vanilla
  ranged := kept.ranged chunks.ranged
  single := by
    rw [kept.disc]
    exact chunks.single

theorem sector_of_block (aligned : sectorNo % 16 = 0) : 16 * (sectorNo / 16) = sectorNo := by
  apply UInt32.toNat_inj.mp
  have below := sectorNo.toNat_lt
  have remainder := congrArg UInt32.toNat aligned
  rw [UInt32.toNat_mod] at remainder
  rw [UInt32.toNat_mul, UInt32.toNat_div]
  simp only [UInt32.reduceToNat] at remainder ⊢
  omega

theorem streamingRead_filed (layerZero : LayerZero env) (aligned : sectorNo % 16 = 0)
    (chunks : SingleChunks w) : Extends RightlyFiled w (streamingRead env method sectorNo w).1 := by
  refine streamingRead_extends env chunks.formed fun w' cnt loop _ c below raw data j handed => ?_
  obtain ⟨early, small⟩ := w.disc.copyOffset_bounds
  intro k inside
  have within : 16 * c + k < w.disc.secMem.toNat * (w.disc.maxCnt.toNat + 1) := by
    have blocks := chunks.ranged.blocks
    omega
  have placed := streamLoop_placed layerZero chunks.vanilla chunks.ranged chunks.single loop within
  have here : (w'.buf.advance (c * 33024)).advance (2064 * k) =
      w'.buf.advance (2064 * (16 * c + k)) := by
    funext a
    simp only [Buffer.advance_apply]
    congr 1
    omega
  have number : (16 * c + k).toUInt32 = 16 * c.toUInt32 + k.toUInt32 := by
    rw [Nat.toUInt32_eq, UInt32.ofNat_add, UInt32.ofNat_mul]
    rfl
  have start := sector_of_block aligned
  rw [handed.sectorNumber inside early small, here, placed, number]
  grind

theorem simpleRead_filed (layerZero : LayerZero env) (aligned : sectorNo % 16 = 0)
    (chunks : SingleChunks w) : Extends RightlyFiled w (simpleRead env sectorNo w).1 := by
  refine simpleRead_extends env chunks.formed fun w' dump raw data j handed => ?_
  obtain ⟨early, small⟩ := w.disc.copyOffset_bounds
  have promises : Promises env w.disc.dvd.memdump (fun _ => 0) InSequence := by
    rw [chunks.vanilla]
    exact vanilla2064_inSequence layerZero
  have anywhere : Seeks env (fun _ => 0) fun _ => 0 := fun _ _ _ _ _ => rfl
  obtain ⟨placed, layer, sequence⟩ := simpleDump_dumped promises anywhere dump
  have first := misplaced_layerZero (layer (by decide)) placed
  have start := sector_of_block aligned
  intro k inside
  have following := sequence k (by omega)
  rw [handed.sectorNumber inside early small, following, first, start]

/-- With steps of a single chunk every block is filed where it belongs. -/
theorem discReadSectorGeneric_filed (layerZero : LayerZero env) (aligned : sectorNo % 16 = 0)
    (chunks : SingleChunks w) :
    Extends RightlyFiled w (discReadSectorGeneric env method sectorNo w).1 := by
  refine (discReadSectorGeneric_extends env SingleChunks chunks (fun w chunks => ?_)
    fun w chunks => ?_).1
  · have kept : Extends RightlyFiled w (streamingRead env method sectorNo w).1 :=
      streamingRead_filed layerZero aligned chunks
    exact ⟨kept, kept.singleChunks chunks⟩
  · have kept := simpleRead_filed layerZero aligned chunks
    exact ⟨kept, kept.singleChunks chunks⟩

end Placement

/-! ## Steps of several chunks -/

private theorem two_blocks : ∀ m : Fin 101, 27 < m.val →
    2 ≤ (maxBlkOf m.val.toUInt32 (maxCntOf m.val.toUInt32)).toNat := by
  decide

private theorem passNumber_shifted {m : Nat} (wide : 27 < m) :
    passNumber 1 m 0 27 ≠ 0x30000 + 16 * 1 + Nat.toUInt32 11 := by
  rw [passNumber, Nat.mod_eq_of_lt wide]
  decide

/-- With steps of more than 27 sectors a drive that loses its place behind the first
chunk goes unnoticed. -/
private theorem misfiled {w : World UInt32} {method : Nat}
    (vanilla : w.disc.dvd.memdump = .vanilla2064) (ranged : Ranged w.disc)
    (seedless : Seedless w.disc.u) (wide : 27 < w.disc.secMem.toNat)
    (counts : 2 ≤ w.disc.maxBlk.toNat) (fresh : w.added = []) :
    ∃ w', discReadSectorGeneric (countingEnv 1) method 0 w = (w', true) ∧
      ∃ entry ∈ w'.added, ¬ RightlyFiled entry := by
  obtain ⟨w', read, kept, members⟩ := @countingEnv_read 1 0 w method vanilla ranged
    (Nat.zero_le _) (Nat.le_refl 1) seedless
  obtain ⟨entry, member, block⟩ := members 1 counts
  refine ⟨w', read, entry, member, fun filed => ?_⟩
  obtain ⟨blocks, extended, shown⟩ := kept.added
  rw [extended, fresh, List.append_nil] at member
  obtain ⟨c, few, same, numbers⟩ := shown entry member
  rw [block] at same
  have one : c = 1 := by
    have small : c.toUInt32.toNat = c := Nat.mod_eq_of_lt (by omega)
    exact small.symm.trans (congrArg UInt32.toNat ((UInt32.add_right_inj _).mp same)).symm
  have eleventh := (numbers 11 (by decide)).symm.trans (filed 11 (by decide))
  rw [one, block] at eleventh
  exact passNumber_shifted wide eleventh

private theorem misfiled_created {d : Disc}
    (created : discNew ⟨.vanilla2064, 2, 0, true⟩ (fun _ _ => 0) (fun _ _ => 0)
      ⟨fun _ => ⟨0, fun _ => 0⟩, false⟩ = some d) (method : Int) (secDisc : UInt32) {secMem : UInt32}
    (wide : 27 < secMem) (admitted : 16 ≤ secMem ∧ secMem ≤ 100) :
    ∃ w', discReadSectorGeneric (countingEnv 1) method.toNat 0
        (World.created 0 (discSetReadMethod (initRange d secDisc secMem) method) 0) = (w', true) ∧
      ∃ entry ∈ w'.added, ¬ RightlyFiled entry := by
  have chosen := discSetReadMethod_admitted d secDisc method admitted
  have upper := UInt32.le_iff_toNat_le.mp admitted.2
  have lower := UInt32.lt_iff_toNat_lt.mp wide
  have counts := two_blocks ⟨secMem.toNat, Nat.lt_succ_of_le upper⟩ lower
  rw [Nat.toUInt32_eq, UInt32.ofNat_toNat, ← chosen] at counts
  rw [← chosen] at lower
  have ranged := discSetReadMethod_ranged d secDisc secMem method
  cases created
  exact misfiled rfl ranged (unscramblerNew_seedless _) lower counts rfl

/-! ## When blocks are filed where they belong -/

/-- Whatever a drive with layer 0 headers replies, a read of the first sector of a block
that succeeds caches every block under the numbers of its sectors. -/
def FilesRightly (method : Int) (secDisc secMem : UInt32) : Prop :=
  ∀ (σ : Type) (env : Env σ) (w w' : World σ) (d : Disc) (sectorNo : UInt32), LayerZero env →
    d.dvd.memdump = .vanilla2064 → Reachable d.u →
    w.disc = discSetReadMethod (initRange d secDisc secMem) method → sectorNo % 16 = 0 →
    discReadSectorGeneric env method.toNat sectorNo w = (w', true) →
    ∃ blocks, w'.added = blocks ++ w.added ∧ ∀ entry ∈ blocks, RightlyFiled entry

/-- That is so exactly when a step is a single chunk. -/
theorem filesRightly_iff (method : Int) (secDisc : UInt32) {secMem : UInt32}
    (admitted : 16 ≤ secMem ∧ secMem ≤ 100) :
    FilesRightly method secDisc secMem ↔ secMem ≤ 27 := by
  constructor
  · intro files
    refine UInt32.not_lt.mp fun wide => ?_
    obtain ⟨d, created⟩ : ∃ d, discNew ⟨.vanilla2064, 2, 0, true⟩ (fun _ _ => 0) (fun _ _ => 0)
        ⟨fun _ => ⟨0, fun _ => 0⟩, false⟩ = some d := ⟨_, rfl⟩
    obtain ⟨w', read, entry, member, misplaced⟩ :=
      misfiled_created created method secDisc wide admitted
    have formed : d.dvd.memdump = .vanilla2064 ∧ Reachable d.u := by
      cases created
      exact ⟨rfl, .new _⟩
    obtain ⟨blocks, extended, right⟩ := files _ _ _ w' d 0 (countingEnv_layerZero 1) formed.1
      formed.2 rfl rfl read
    rw [extended, World.created, List.append_nil] at member
    exact misplaced (right entry member)
  · intro single σ env w w' d sectorNo layerZero vanilla reachable opened aligned read
    have chunks : SingleChunks w := by
      have chosen := discSetReadMethod_admitted d secDisc method admitted
      have ranged := discSetReadMethod_ranged d secDisc secMem method
      rw [← opened] at chosen ranged
      have small := UInt32.le_iff_toNat_le.mp single
      rw [← chosen] at small
      refine ⟨?_, ?_, ranged, small⟩
      · rw [opened]
        exact reachable.formed
      · rw [opened]
        exact vanilla
    have kept : Extends RightlyFiled w (discReadSectorGeneric env method.toNat sectorNo w).1 :=
      discReadSectorGeneric_filed layerZero aligned chunks
    rw [read] at kept
    exact kept.added

/-- The default of the methods that stream. -/
theorem filesRightly_default : FilesRightly 4 notGiven 27 :=
  (filesRightly_iff 4 notGiven ⟨by decide, by decide⟩).mpr (by decide)

/-- With 28 sectors a step, the last sector of the first step is taken from elsewhere. -/
theorem filesRightly_fails_wide :
    LayerZero (countingEnv 1) ∧
      ∃ d, discNew ⟨.vanilla2064, 2, 0, true⟩ (fun _ _ => 0) (fun _ _ => 0)
          ⟨fun _ => ⟨0, fun _ => 0⟩, false⟩ = some d ∧
        ∃ w', discReadSectorGeneric (countingEnv 1) 0 0
            (World.created 0 (discSetReadMethod (initRange d notGiven 28) 0) 0) = (w', true) ∧
          ∃ entry ∈ w'.added, ¬ RightlyFiled entry :=
  ⟨countingEnv_layerZero 1, _, rfl,
    misfiled_created rfl 0 notGiven (by decide) ⟨by decide, by decide⟩⟩

end Friidump
