import Friidump.StackBounds
import Friidump.ProgramHashing

/-!
# The memory that the program writes, and the commands it sends

What holds for a read holds for all passes of the program: they hash in place what they have
read, and between their reads they only change the settings of the disc and the drive.
-/

set_option autoImplicit false

namespace Friidump

open Relation (ReflTransGen)

section Program

variable {σ : Type} {env : Env σ} {w w' : World σ}

/-! ## Hashing in place -/

theorem Format.cache_setSector_sameFrom (format other : Format) {d : Disc} (positive : 0 < d.cacheSize)
    (sectorNo : UInt32) {data : Buffer} (same : (format.sector d sectorNo).SameFrom format.size data)
    (p : Nat) : (other.cache d p).SameFrom (if p < d.cacheSize.toNat then 16 * other.size else 0)
      (other.cache (format.setSector d sectorNo data) p) := by
  intro a behind
  by_cases here : other = format ∧ p = d.cachePos (sectorNo / 16)
  · obtain ⟨rfl, rfl⟩ := here
    have line : d.cachePos (sectorNo / 16) < d.cacheSize.toNat := by
      rw [Disc.cachePos, UInt32.toNat_mod]
      exact Nat.mod_lt _ (UInt32.lt_iff_toNat_lt.mp positive)
    rw [if_pos line] at behind
    have inBlock : (sectorNo % 16).toNat < 16 := by
      rw [UInt32.toNat_mod]
      exact Nat.mod_lt _ (by decide)
    have inside : other.offset sectorNo + other.size ≤ 16 * other.size := by
      rw [Format.offset, ← Nat.succ_mul]
      exact Nat.mul_le_mul_right _ inBlock
    exact other.cache_setSector_beyond d sectorNo same (Nat.le_trans inside behind)
  · rw [format.cache_setSector_other other d sectorNo data (not_and_or.mp here)]

theorem hashSector_confines (w : World σ) (format : Format) (wanted : Bool) (sectorNo : UInt32)
    (sha1 : Sha1Ctx) : Confines env w (w.hashSector format wanted sectorNo sha1).world := by
  cases wanted with
  | false => exact .refl w
  | true =>
      intro sized
      have kept := fun other p => format.cache_setSector_sameFrom other sized.positive sectorNo
        (fun a behind => sha1Update_beyond sha1 _ behind :
          (format.sector w.disc sectorNo).SameFrom format.size
            (sha1Update sha1 (format.sector w.disc sectorNo) format.size).2) p
      cases format with
      | raw => exact ⟨{ Confined.refl w with rawCache := kept .raw },
          { sized.ranged with }, sized.formed, sized.positive⟩
      | iso => exact ⟨{ Confined.refl w with cache := kept .iso },
          { sized.ranged with }, sized.formed, sized.positive⟩

theorem hashedRound_confines (replies : SectorReplies) (i : UInt32) (dmp : HashedDumper) (w : World σ)
    (read : SectorRead) : Confines env w (hashedRound replies i dmp w read).world :=
  (hashSector_confines w .raw _ i _).trans (hashSector_confines _ .iso _ i _)

theorem hashedLoop_confines (host : Host) (currentSector : UInt32) (left : Nat) (i : UInt32)
    (dmp : HashedDumper) (w : World σ) :
    Confines env w (hashedLoop env host currentSector left i dmp w).world := by
  induction left generalizing i dmp w with
  | zero => exact .refl w
  | succ left ih =>
      cases ok : discReadSector env ⟨i, true, true⟩ w with
      | error abort =>
          rw [hashedLoop_abort ok]
          exact .refl w
      | ok result =>
          have round := (discReadSector_confines ok).trans
            (hashedRound_confines (host.sector i) i dmp result.1 result.2)
          cases out : (hashedRound (host.sector i) i dmp result.1 result.2).out with
          | false =>
              rw [hashedLoop_stop ok out]
              exact round
          | true =>
              rw [hashedLoop_next ok out]
              exact round.trans (ih _ _ _)

/-! ## The settings of the disc and the drive -/

theorem discStopUnit_confined (w : World σ) (start : Bool) : Confined env w (discStopUnit env w start).1 := by
  refine .withDrive ?_
  cases start with
  | false => exact issued [0x1B, 0x00, 0x00, 0x00, 0x00] (by simp [commandHeads]) ⟨_, rfl⟩ rfl (Nat.zero_le _)
  | true => exact issued [0x1B, 0x00, 0x00, 0x00, 0x01] (by simp [commandHeads]) ⟨_, rfl⟩ rfl (Nat.zero_le _)

theorem discSetSpeed_confined (w : World σ) (speed : UInt32) : Confined env w (discSetSpeed env w speed) := by
  unfold discSetSpeed
  split
  · exact .withDrive (issued [0xBB, 0x00] (by simp [commandHeads]) ⟨_, rfl⟩ rfl (Nat.zero_le _))
  · exact .refl w

theorem discSetStreamingSpeed_confined (w : World σ) (speed : UInt32) :
    Confined env w (discSetStreamingSpeed env w speed) := by
  unfold discSetStreamingSpeed
  split
  · exact .withDrive (issued [0xB6, 0x00] (by simp [commandHeads]) ⟨_, rfl⟩ rfl (by decide : 28 ≤ 100 * 2064))
  · exact .refl w

/-- A change of the settings of the disc, which has no part in the memory. -/
theorem Confined.withDisc {disc : Disc} (same : disc = { disc with
      dvd := w.disc.dvd
      u := { disc.u with seeds := w.disc.u.seeds }
      cacheSize := w.disc.cacheSize
      rawCache := w.disc.rawCache
      cache := w.disc.cache
      cacheMap := w.disc.cacheMap }) : Confined env w (w.withDisc disc) :=
  .of_arrays .refl (.refl _ _) (.refl _ _) same

theorem beforeInit_confined (options : ProgramOptions) (w : World σ) :
    Confined env w (beforeInit env options w) := by
  have started : Confined env w _ := discStopUnit_confined w true
  have ranged : Confined env w (((discStopUnit env w true).1.withDisc
      (initRange w.disc options.secDisc options.secMem)).withDisc
        (discSetReadMethod (initRange w.disc options.secDisc options.secMem) options.dumpMethod)) :=
    started.trans (.of_arrays .refl (.refl _ _) (.refl _ _) rfl)
  unfold beforeInit
  dsimp only
  split
  · exact (ranged.trans (discSetSpeed_confined _ _)).trans (discSetStreamingSpeed_confined _ _)
  · exact ranged

theorem afterInit_confined (options : ProgramOptions) (w : World σ) :
    Confined env w (afterInit env options w) := by
  have moded : Confined env w (w.moded (!options.noUnscrambling)) :=
    .of_arrays .refl (.refl _ _) (.refl _ _) rfl
  unfold afterInit
  dsimp only
  split
  · exact (moded.trans (discSetStreamingSpeed_confined _ _)).trans (discSetSpeed_confined _ _)
  · exact moded

theorem dvdGetSize_issued {memdump : MemdumpFunc} (drive : σ) (size : UInt32) :
    ReflTransGen (Issued env memdump) drive (dvdGetSize env drive size).1 :=
  issued [0x52, 0x01] (by simp [commandHeads]) ⟨_, rfl⟩ rfl (by decide : 0x22 ≤ 100 * 2064)

theorem dvdGetLayerbreak_issued {memdump : MemdumpFunc} (drive : σ) (layerbreak : UInt32) :
    ReflTransGen (Issued env memdump) drive (dvdGetLayerbreak env drive layerbreak).1 :=
  issued [0xAD, 0x00] (by simp [commandHeads]) ⟨_, rfl⟩ rfl (by decide : 2052 ≤ 100 * 2064)

theorem discDetectType_confined (forcedType sectorsNo : UInt32) (w : World σ) :
    Confined env w (discDetectType env forcedType sectorsNo w) := by
  have sized : ∀ w', Confined env w w' → Confined env w
      (if sectorsNo ≠ notGiven then w'.withDisc { w'.disc with sectorsNo := sectorsNo } else w') := by
    intro w' kept
    split
    · exact kept.trans (.withDisc rfl)
    · exact kept
  have beyond : ∀ w' : World σ, ∀ sector, Confined env w'
      (w'.withDrive (dvdReadSectorDummy env w'.drive sector 16 none).drive) :=
    fun w' sector => .withDrive (dvdReadSectorDummy_issued _ _ none nofun)
  refine sized _ ?_
  split
  · exact .withDisc rfl
  split
  · exact .withDisc rfl
  split
  · exact .withDisc rfl
  split
  · dsimp only
    split
    · have asked : ReflTransGen (Issued env w.disc.dvd.memdump) w.drive _ :=
        dvdGetSize_issued w.drive w.disc.sectorsNo
      exact .of_arrays (asked.trans (dvdGetLayerbreak_issued _ w.disc.layerbreak)) (.refl _ _)
        (.refl _ _) rfl
    · exact .of_arrays (dvdGetLayerbreak_issued _ w.disc.layerbreak) (.refl _ _) (.refl _ _) rfl
  · dsimp only
    split
    · exact (beyond w _).trans (.withDisc rfl)
    · split <;> exact ((beyond w _).trans (beyond _ _)).trans (.withDisc rfl)

/-! ## A pass -/

theorem ReadingStep.confines (step : ReadingStep env w w') : Confines env w w' := by
  cases step with
  | read returned => exact discReadSector_confines returned
  | setUnscrambling =>
      exact fun sized => ⟨.withDisc rfl, { sized.ranged with }, sized.formed, sized.positive⟩
  | setBruteforce =>
      exact fun sized => ⟨.withDisc rfl, { sized.ranged with }, ⟨sized.formed.entry, sized.formed.sentinel⟩,
        sized.positive⟩

theorem steps_confine (steps : ReflTransGen (ReadingStep env) w w') : Confines env w w' := by
  induction steps with
  | refl => exact .refl w
  | tail _ step ih => exact ih.trans step.confines

/-- A disc between two passes. The steps need not be in range yet. -/
structure Waiting (w : World σ) : Prop where
  formed : SeedsWellFormed w.disc.u
  positive : 0 < w.disc.cacheSize

theorem Sized.waiting (sized : Sized w) : Waiting w := ⟨sized.formed, sized.positive⟩

theorem Waiting.beforeInit (waiting : Waiting w) (options : ProgramOptions) :
    Sized (beforeInit env options w) := by
  obtain ⟨drive, outcome⟩ := beforeInit_outcome env options w
  rw [outcome]
  exact ⟨discSetReadMethod_ranged _ _ _ _, waiting.formed, waiting.positive⟩

theorem Detected.sized {disctype : UInt32} (detected : Detected disctype w w') (sized : Sized w) :
    Sized w' := by
  obtain ⟨⟨drive, type, sectorsNo, layerbreak, rfl⟩, -⟩ := detected
  exact ⟨{ sized.ranged with }, sized.formed, sized.positive⟩

theorem Sized.afterInit (sized : Sized w) (options : ProgramOptions) : Sized (afterInit env options w) := by
  obtain ⟨drive, outcome⟩ := afterInit_outcome env options w
  rw [outcome]
  exact ⟨{ sized.ranged with }, sized.formed, sized.positive⟩

/-- The disc from the start of a pass to the first dump. -/
theorem discInit_confined {options : ProgramOptions} {out : Bool} (waiting : Waiting w)
    (initialized : discInit env options.disctype options.sectorsNo (beforeInit env options w) = .ok (w', out)) :
    Confined env w w' ∧ Sized w' := by
  have sized : Sized (beforeInit env options w) := waiting.beforeInit options
  have detected := (discDetected_outcome env options.disctype options.sectorsNo
    (beforeInit env options w)).sized sized
  have asked : Confined env (beforeInit env options w)
      (discDetected env options.disctype options.sectorsNo (beforeInit env options w)) :=
    (Confined.withDisc rfl).trans (discDetectType_confined _ _ _)
  obtain ⟨read, sized'⟩ := steps_confine (discInit_steps initialized) detected
  exact ⟨((beforeInit_confined options w).trans asked).trans read, sized'⟩

/-- What a pass has done, and how it leaves the disc. -/
def Pass.Confined (env : Env σ) (w : World σ) (pass : Pass σ) : Prop :=
  Friidump.Confined env w pass.world ∧ Waiting pass.world

theorem Pass.ofDump_confined {files : Files} {dumped : HashedEnd σ} (confines : Confines env w dumped.world)
    (sized : Sized w) : (Pass.ofDump env files dumped).Confined env w := by
  obtain ⟨kept, sized'⟩ := confines sized
  unfold Pass.ofDump
  split
  · exact ⟨kept, sized'.waiting⟩
  · exact ⟨kept.trans (discStopUnit_confined _ _), sized'.formed, sized'.positive⟩
  · exact ⟨kept, sized'.waiting⟩

theorem dumpOutputs_confined (host : Host) (options : ProgramOptions) (files : Files) (sized : Sized w) :
    (dumpOutputs env (hashingDump env) host options files w).Confined env w := by
  unfold dumpOutputs
  split
  · exact ⟨.refl w, sized.waiting⟩
  · split
    · exact ⟨.refl w, sized.waiting⟩
    · exact ⟨.refl w, sized.waiting⟩
    · exact Pass.ofDump_confined (hashedLoop_confines _ _ _ _ _ _) sized

theorem dologic_confined (host : Host) (options : ProgramOptions) (files : Files) (waiting : Waiting w) :
    (dologic env (hashingDump env) host options files w).Confined env w := by
  unfold dologic
  split
  · exact ⟨discStopUnit_confined w false, waiting.formed, waiting.positive⟩
  · cases initialized : discInit env options.disctype options.sectorsNo (beforeInit env options w) with
    | error abort => exact ⟨.refl w, waiting⟩
    | ok result =>
        obtain ⟨w₁, initOut⟩ := result
        obtain ⟨kept, sized⟩ := discInit_confined waiting initialized
        cases initOut with
        | false => exact ⟨kept, sized.waiting⟩
        | true =>
            have ready : Confined env w _ := kept.trans (afterInit_confined options w₁)
            have sized₁ : Sized (afterInit env options w₁) := sized.afterInit options
            dsimp only
            split
            · obtain ⟨dumped, waiting'⟩ : (dumpOutputs env (hashingDump env) host options files _).Confined env _ :=
                dumpOutputs_confined host options files sized₁
              exact ⟨ready.trans dumped, waiting'⟩
            · exact ⟨ready, sized₁.waiting⟩

/-! ## All passes -/

theorem passesFrom_confined (options : ProgramOptions) (surroundings : Nat → Surroundings)
    (methods : List Int) (n : Nat) (files : Files) (waiting : Waiting w) :
    ∀ pass ∈ passesFrom env (hashingDump env) options surroundings methods n files w,
      Confined env w pass.world := by
  induction methods generalizing n files w with
  | nil => exact fun pass member => absurd member List.not_mem_nil
  | cons method methods ih =>
      obtain ⟨kept, waiting'⟩ : Pass.Confined env w _ := dologic_confined (surroundings n).host
        { options with dumpMethod := method } files waiting
      intro pass member
      rw [passesFrom] at member
      rcases List.mem_cons.mp member with rfl | later
      · exact kept
      · split at later
        · exact kept.trans (ih _ _ waiting' pass later)
        · exact absurd later List.not_mem_nil

end Program

end Friidump
