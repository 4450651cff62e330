import Friidump.DistantReads

/-!
# The READs of a whole call

Over a whole call of a read function a READ is either for the sectors that the call is
to bring in, or displaces the drive's cache and stays on the disc.
-/

set_option autoImplicit false

namespace Friidump

/-! ## What is sent between two states -/

/-- The READ commands between two states are of a kind, and the disc keeps its size and steps. -/
structure Sent {σ : Type} (kind : List UInt8 → Prop) (w w' : Recording σ) : Prop where
  cmds : ∃ cmds, w'.drive.2 = cmds ++ w.drive.2 ∧ ∀ cmd ∈ cmds, kind cmd
  sectorsNo : w'.disc.sectorsNo = w.disc.sectorsNo
  secMem : w'.disc.secMem = w.disc.secMem
  maxCnt : w'.disc.maxCnt = w.disc.maxCnt

section Sending

variable {σ : Type} {env : Env σ} {kind : List UInt8 → Prop} {w w' w'' : Recording σ}

theorem Sent.silent (drive : w'.drive.2 = w.drive.2) (sectorsNo : w'.disc.sectorsNo = w.disc.sectorsNo)
    (secMem : w'.disc.secMem = w.disc.secMem) (maxCnt : w'.disc.maxCnt = w.disc.maxCnt) :
    Sent kind w w' :=
  ⟨⟨[], drive, fun _ member => absurd member List.not_mem_nil⟩, sectorsNo, secMem, maxCnt⟩

theorem Sent.refl (w : Recording σ) : Sent kind w w := .silent rfl rfl rfl rfl

theorem Sent.trans (first : Sent kind w w') (second : Sent kind w' w'') : Sent kind w w'' where
  cmds := by
    obtain ⟨cmds, sent, kinds⟩ := first.cmds
    obtain ⟨cmds', sent', kinds'⟩ := second.cmds
    refine ⟨cmds' ++ cmds, by rw [sent', sent, List.append_assoc], fun cmd member => ?_⟩
    rcases List.mem_append.mp member with later | earlier
    · exact kinds' cmd later
    · exact kinds cmd earlier
  sectorsNo := second.sectorsNo.trans first.sectorsNo
  secMem := second.secMem.trans first.secMem
  maxCnt := second.maxCnt.trans first.maxCnt

theorem Sent.mono {kind' : List UInt8 → Prop} (sent : Sent kind w w')
    (weaker : ∀ cmd, kind cmd → kind' cmd) : Sent kind' w w' where
  cmds := by
    obtain ⟨cmds, recorded, kinds⟩ := sent.cmds
    exact ⟨cmds, recorded, fun cmd member => weaker cmd (kinds cmd member)⟩
  sectorsNo := sent.sectorsNo
  secMem := sent.secMem
  maxCnt := sent.maxCnt

theorem Sent.command (w : Recording σ) {mmc : MmcCommand} (sort : kind mmc.cmd) :
    Sent kind w (w.withDrive (dvdExecuteCmd env.recording w.drive mmc true).drive) := by
  refine ⟨?_, rfl, rfl, rfl⟩
  by_cases read : mmc.cmd.head? = some 0xA8
  · exact ⟨[mmc.cmd], if_pos read, fun cmd member => List.mem_singleton.mp member ▸ sort⟩
  · exact ⟨[], if_neg read, fun _ member => absurd member List.not_mem_nil⟩

theorem Sent.frame (env : Env σ) (kind : List UInt8 → Prop) : DumpFrame env.recording (Sent kind) where
  refl := .refl
  trans := .trans
  memdump w _ _ _ := .silent (dvdMemdump_silent env w.drive _ _ _ _ _) rfl rfl rfl
  withBuf _ _ := .silent rfl rfl rfl rfl
  withBufUnscrambled _ _ := .silent rfl rfl rfl rfl

theorem Sent.unscrambleLocal (w : Recording σ) (sectorNo : UInt32) (j : Nat) (arrays : Locals) :
    Sent kind w (unscrambleLocal sectorNo j w arrays).1 :=
  .silent rfl rfl rfl rfl

theorem Sent.unscrambleBlocks (sectorNo : UInt32) (n : Nat) (w : Recording σ) (out : Bool) :
    Sent kind w (unscrambleBlocks sectorNo n w out).1 := by
  induction n generalizing w out with
  | zero => exact .refl w
  | succ n ih =>
      have block : Sent kind w (w.unscrambleBuf (sectorNo + n.toUInt32 * 16) n).1 :=
        .silent rfl rfl rfl rfl
      rw [unscrambleBlocks_succ]
      exact block.trans (ih _ _)

theorem Sent.cacheBlocks (startBlock : UInt32) (n : Nat) (w : Recording σ) :
    Sent kind w (cacheBlocks startBlock n w) := by
  induction n generalizing w with
  | zero => exact .refl w
  | succ n ih =>
      have block : Sent kind w (w.cacheBuf (startBlock + n.toUInt32) n) := .silent rfl rfl rfl rfl
      exact block.trans (ih _)

theorem Sent.cacheLocals (sectorNo : UInt32) (left j : Nat) (w : Recording σ) (arrays : Locals) :
    Sent kind w (cacheLocals sectorNo left j w arrays).1 := by
  induction left generalizing j w arrays with
  | zero => exact .refl w
  | succ left ih =>
      have block : Sent kind w (w.cacheBlockAt (sectorNo / 16 + j.toUInt32) j arrays.buf
          arrays.bufUnscrambled).1 := .silent rfl rfl rfl rfl
      rw [Friidump.cacheLocals]
      split
      · exact block.trans (ih _ _ _)
      · exact .refl w

/-- What every try sends the tries together send. -/
theorem Sent.retryLoop {α : Type} {attempt : Nat → α → α × Bool × Bool} (world : α → Recording σ)
    (step : ∀ retry state, Sent kind w (world state) → Sent kind w (world (attempt retry state).1))
    (state : α) (start : Sent kind w (world state)) :
    Sent kind w (world (retryLoop attempt 5 0 state).1) :=
  retryLoop_rule (fun state => Sent kind w (world state)) (fun state _ => Sent kind w (world state))
    (fun _ sent => sent) (fun retry _ state sent => ⟨fun _ => step retry state sent,
      fun _ => step retry state sent⟩) 5 0 rfl state start

end Sending

/-! ## Kinds of READs -/

/-- The sector that a READ addresses. -/
def addressed (cmd : List UInt8) : UInt32 := wordOf ((cmd.drop 2).take 4)

/-- A READ of the places that a call brings in itself, one that displaces the cache for them and
stays on the disc, or one for a place that is behind the end of the disc. -/
inductive CallRead (sectorsNo : UInt32) (displacements : List Displacement) (own places : UInt32 → Prop) :
    List UInt8 → Prop
  | itself {cmd : List UInt8} (place : own (addressed cmd)) :
      CallRead sectorsNo displacements own places cmd
  | displacing {d : Displacement} {t : UInt32} {cmd : List UInt8} (listed : d ∈ displacements)
      (place : places t) (onDisc : d.OnDisc sectorsNo t.toNat cmd) :
      CallRead sectorsNo displacements own places cmd
  | beyond {t : UInt32} (place : places t) (late : sectorsNo ≤ t) :
      CallRead sectorsNo displacements own places (dummyRead (distantSector sectorsNo t))

/-- The sectors at which the steps of a streaming pass begin. -/
def StepPlace (d : Disc) (sectorNo t : UInt32) : Prop :=
  ∃ cnt : UInt32, cnt ≤ d.maxCnt ∧ t = sectorNo + cnt * d.secMem

/-- The first sectors of the blocks that methods 7 to 9 bring in. -/
def BlockPlace (sectorsNo sectorNo t : UInt32) : Prop :=
  ∃ j < 5, t = sectorNo + j.toUInt32 * 16 ∧ t < sectorsNo

open Displacement

theorem addressed_dummyRead (lba : UInt32) : addressed (dummyRead lba) = lba := wordOf_msbToLsb lba

theorem addressed_blockRead (lba : UInt32) : addressed (blockRead lba) = lba := wordOf_msbToLsb lba

theorem addressed_flushRead (lba : UInt32) : addressed (flushRead lba) = lba := wordOf_msbToLsb lba

theorem Displacement.OnDisc.addressed_lt {d : Displacement} {sectorsNo s : UInt32} {cmd : List UInt8}
    (known : d = distant ∨ d = Displacement.ahead) (before : s < sectorsNo)
    (onDisc : d.OnDisc sectorsNo s.toNat cmd) : addressed cmd < sectorsNo := by
  have reads : ∀ lba, addressed (d.read lba) = lba := by
    intro lba
    rcases known with rfl | rfl
    · exact addressed_dummyRead lba
    · exact addressed_blockRead lba
  cases onDisc with
  | ahead _ _ inside =>
      rw [reads]
      exact inside
  | behind _ _ inside =>
      rw [reads]
      exact inside
  | fallback _ place =>
      rw [addressed_flushRead, UInt32.toNat_inj.mp place]
      exact before

/-- On the disc, all that is sent for places on the disc is for sectors on the disc. -/
theorem CallRead.addressed_lt {sectorsNo : UInt32} {displacements : List Displacement}
    {own places : UInt32 → Prop} {cmd : List UInt8} (sent : CallRead sectorsNo displacements own places cmd)
    (known : ∀ d ∈ displacements, d = distant ∨ d = ahead) (ownBefore : ∀ t, own t → t < sectorsNo)
    (before : ∀ t, places t → t < sectorsNo) : addressed cmd < sectorsNo := by
  cases sent with
  | itself place => exact ownBefore _ place
  | displacing listed place onDisc => exact onDisc.addressed_lt (known _ listed) (before _ place)
  | beyond place late => exact absurd (before _ place) (UInt32.not_lt.mpr late)

/-! ## The streaming pass and the simple read -/

/-- The distant read for a sector on the disc stays there. -/
def Stays (sectorsNo s : UInt32) : Prop :=
  s < sectorsNo → distant.OnDisc sectorsNo s.toNat (dummyRead (distantSector sectorsNo s))

section Generic

variable {σ : Type} {env : Env σ} {n : UInt32} {own places : UInt32 → Prop} {w : Recording σ}
  {displacements : List Displacement} {sectorNo : UInt32}

/-- The distant read for a place stays on the disc where it can. -/
theorem Sent.readDistant (size : w.disc.sectorsNo = n) (place : places sectorNo)
    (listed : distant ∈ displacements) (stays : Stays n sectorNo) :
    Sent (CallRead n displacements own places) w (readDistant env.recording w sectorNo) := by
  have disc := readDistant_disc env sectorNo w
  refine ⟨⟨[dummyRead (distantSector n sectorNo)], ?_, fun cmd member => ?_⟩, ?_, ?_, ?_⟩
  · rw [← size]
    exact readDistant_recorded env sectorNo w
  · rw [List.mem_singleton.mp member]
    rcases UInt32.lt_or_le sectorNo n with before | late
    · exact .displacing listed place (stays before)
    · exact .beyond place late
  · rw [disc]
  · rw [disc]
  · rw [disc]

theorem Sent.flushCache (place : own sectorNo) :
    Sent (CallRead n displacements own places) w (flushCache env.recording w sectorNo) :=
  .command w (.itself ((addressed_flushRead sectorNo).symm ▸ place))

theorem Sent.readStep (method : Nat) (size : w.disc.sectorsNo = n) (place : own sectorNo)
    (displaced : places sectorNo) (listed : distant ∈ displacements)
    (stays : Stays n sectorNo) :
    Sent (CallRead n displacements own places) w (readStep env.recording method w sectorNo).1 := by
  have away : Sent (CallRead n displacements own places) w (if method = 0 ∨ method = 1 ∨ method = 4 then
      Friidump.readDistant env.recording w sectorNo else w) := by
    split
    · exact .readDistant size displaced listed stays
    · exact .refl w
  unfold Friidump.readStep
  extract_lets w₁ w₂ extbuf executed
  have flushed : Sent (CallRead n displacements own places) w₁ w₂ := by
    show Sent _ w₁ (if method = 0 ∨ method = 2 ∨ method = 5 then
      Friidump.flushCache env.recording w₁ sectorNo else w₁)
    split
    · exact .flushCache place
    · exact .refl w₁
  have read : Sent (CallRead n displacements own places) w₂ (w₂.withDrive executed.drive) := by
    have addresses : addressed ([0xA8, 0] ++ msbToLsb sectorNo ++ msbToLsb w₂.disc.secDisc ++ [0x80, 0]) =
        sectorNo := wordOf_msbToLsb sectorNo
    have addresses' : addressed ([0xA8, 0x08] ++ msbToLsb sectorNo ++ msbToLsb w₂.disc.secDisc ++ [0, 0]) =
        sectorNo := wordOf_msbToLsb sectorNo
    show Sent _ w₂ (w₂.withDrive (if method = 4 ∨ method = 5 ∨ method = 6 then
      dvdReadStreaming env.recording w₂.drive sectorNo w₂.disc.secDisc extbuf
      else dvdReadSectorDummy env.recording w₂.drive sectorNo w₂.disc.secDisc extbuf).drive)
    split
    · exact .command w₂ (.itself (addresses.symm ▸ place))
    · exact .command w₂ (.itself (addresses'.symm ▸ place))
  exact (away.trans flushed).trans (read.trans ((Sent.frame env _).withBufUnscrambled _ _))

/-- A READ of the steps of a pass, or one that displaces the cache for them. -/
def GenericRead (d : Disc) (sectorNo : UInt32) : List UInt8 → Prop :=
  CallRead d.sectorsNo [distant] (StepPlace d sectorNo) (StepPlace d sectorNo)

variable {w₀ : Recording σ}

theorem StepPlace.first (d : Disc) (sectorNo : UInt32) : StepPlace d sectorNo sectorNo :=
  ⟨0, UInt32.le_iff_toNat_le.mpr (Nat.zero_le _), by rw [UInt32.zero_mul, UInt32.add_zero]⟩

theorem Sent.streamStep (sent : Sent (GenericRead w₀.disc sectorNo) w₀ w) (method : Nat) {cnt : UInt32}
    (early : cnt ≤ w₀.disc.maxCnt)
    (stays : ∀ t, StepPlace w₀.disc sectorNo t → Stays w₀.disc.sectorsNo t) :
    Sent (GenericRead w₀.disc sectorNo) w₀ (streamStep env.recording method sectorNo cnt w).1 := by
  have place : StepPlace w₀.disc sectorNo (sectorNo + cnt * w.disc.secMem) :=
    ⟨cnt, early, by rw [sent.secMem]⟩
  have read : Sent (GenericRead w₀.disc sectorNo) w
      (Friidump.readStep env.recording method w (sectorNo + cnt * w.disc.secMem)).1 :=
    .readStep method sent.sectorsNo place place List.mem_cons_self (stays _ place)
  exact (sent.trans read).trans (Sent.frame env _).streamStep_after

theorem Sent.streamLoop (method : Nat)
    (stays : ∀ t, StepPlace w₀.disc sectorNo t → Stays w₀.disc.sectorsNo t) (left : Nat) (cnt : UInt32)
    (rounds : cnt.toNat + left ≤ w₀.disc.maxCnt.toNat + 1) (w : Recording σ)
    (sent : Sent (GenericRead w₀.disc sectorNo) w₀ w) :
    Sent (GenericRead w₀.disc sectorNo) w₀
      (streamLoop env.recording method sectorNo left cnt w).1 := by
  induction left generalizing cnt w with
  | zero => exact sent
  | succ left ih =>
      have early : cnt ≤ w₀.disc.maxCnt := UInt32.le_iff_toNat_le.mpr (by omega)
      have step : Sent (GenericRead w₀.disc sectorNo) w₀
          (Friidump.streamStep env.recording method sectorNo cnt w).1 :=
        sent.streamStep method early stays
      rw [Friidump.streamLoop]
      rcases stepped : Friidump.streamStep env.recording method sectorNo cnt w with ⟨w', out⟩
      rw [stepped] at step
      cases out with
      | true =>
          have next : (cnt + 1).toNat ≤ cnt.toNat + 1 := by
            rw [UInt32.toNat_add]
            exact Nat.mod_le _ _
          exact ih (cnt + 1) (by omega) w' step
      | false => exact step

/-- Behind its steps a pass sends nothing. -/
theorem Sent.streamingRead_after {kind : List UInt8 → Prop} (method : Nat) (sectorNo : UInt32)
    (w : Recording σ) :
    Sent kind (Friidump.streamLoop env.recording method sectorNo (w.disc.maxCnt.toNat + 1) 0 w).1
      (streamingRead env.recording method sectorNo w).1 := by
  unfold streamingRead
  dsimp only
  split
  · exact .refl _
  · split
    · exact .trans (.unscrambleBlocks _ _ _ _) (.cacheBlocks _ _ _)
    · exact .unscrambleBlocks _ _ _ _

theorem Sent.streamingRead (method : Nat)
    (stays : ∀ t, StepPlace w₀.disc sectorNo t → Stays w₀.disc.sectorsNo t)
    (sent : Sent (GenericRead w₀.disc sectorNo) w₀ w) :
    Sent (GenericRead w₀.disc sectorNo) w₀ (streamingRead env.recording method sectorNo w).1 := by
  have rounds : (0 : UInt32).toNat + (w.disc.maxCnt.toNat + 1) ≤ w₀.disc.maxCnt.toNat + 1 := by
    rw [sent.maxCnt, UInt32.toNat_zero]
    exact Nat.le_of_eq (Nat.zero_add _)
  have pass : Sent (GenericRead w₀.disc sectorNo) w₀
      (Friidump.streamLoop env.recording method sectorNo (w.disc.maxCnt.toNat + 1) 0 w).1 :=
    .streamLoop method stays _ 0 rounds w sent
  exact pass.trans (.streamingRead_after method sectorNo w)

theorem Sent.simpleRead (stays : Stays w₀.disc.sectorsNo sectorNo)
    (sent : Sent (GenericRead w₀.disc sectorNo) w₀ w) :
    Sent (GenericRead w₀.disc sectorNo) w₀ (simpleRead env.recording sectorNo w).1 := by
  have place := StepPlace.first w₀.disc sectorNo
  have dumped : Sent (GenericRead w₀.disc sectorNo) w₀ (simpleDump env.recording sectorNo w).1 := by
    have away : Sent (GenericRead w₀.disc sectorNo) w₀ (Friidump.readDistant env.recording w sectorNo) :=
      sent.trans (.readDistant sent.sectorsNo place List.mem_cons_self stays)
    have read : addressed (dummyRead sectorNo) = sectorNo := addressed_dummyRead sectorNo
    unfold simpleDump
    extract_lets distant flushed executed driven dump dumpWorld
    have flush : Sent (GenericRead w₀.disc sectorNo) w₀ flushed := away.trans (.flushCache place)
    have driven : Sent (GenericRead w₀.disc sectorNo) w₀ driven :=
      flush.trans (.command flushed (.itself (read.symm ▸ place)))
    have dump : Sent (GenericRead w₀.disc sectorNo) w₀ dumpWorld :=
      driven.trans ((Sent.frame env _).memdump_withBuf _ 0 33024 _ _)
    split
    · split
      · exact dump
      · split <;> exact dump
    · exact driven
  unfold Friidump.simpleRead
  rcases result : simpleDump env.recording sectorNo w with ⟨w₁, out⟩
  rw [result] at dumped
  have block : Sent (GenericRead w₀.disc sectorNo) w₀ (w₁.unscrambleBuf sectorNo 0).1 :=
    dumped.trans (.silent rfl rfl rfl rfl)
  dsimp only
  split
  · split
    · exact block.trans (.silent rfl rfl rfl rfl)
    · exact block
  · exact dumped

theorem discReadSectorGeneric_sent (method : Nat) (w : Recording σ)
    (stays : ∀ t, StepPlace w.disc sectorNo t → Stays w.disc.sectorsNo t) :
    Sent (GenericRead w.disc sectorNo) w (discReadSectorGeneric env.recording method sectorNo w).1 := by
  refine Sent.retryLoop id (fun retry state sent => ?_) w (.refl w)
  dsimp only [id]
  split
  · exact sent.streamingRead method stays
  · exact sent.simpleRead (stays _ (.first w.disc sectorNo))

end Generic

/-! ## Methods 7 to 9 -/

section Blocks

variable {σ : Type} {env : Env σ} {w₀ w : Recording σ} {sectorNo : UInt32}

/-- A READ of the blocks of a call, or one that displaces the cache for the first of them. -/
def BlockRead (d : Disc) (displacements : List Displacement) (sectorNo : UInt32) : List UInt8 → Prop :=
  CallRead d.sectorsNo displacements (BlockPlace d.sectorsNo sectorNo) fun t => t = sectorNo

theorem BlockPlace.first {sectorsNo : UInt32} (before : sectorNo < sectorsNo) :
    BlockPlace sectorsNo sectorNo sectorNo :=
  ⟨0, by decide, (UInt32.add_zero sectorNo).symm, before⟩

theorem Sent.blockRead {displacements : List Displacement} {t : UInt32}
    (place : BlockPlace w₀.disc.sectorsNo sectorNo t) (w : Recording σ) (extbuf : Option (Buffer × Nat)) :
    Sent (BlockRead w₀.disc displacements sectorNo) w
      (w.withDrive (dvdReadSectorStreaming env.recording w.drive t extbuf).drive) :=
  have reads : addressed (Friidump.blockRead t) = t := addressed_blockRead t
  .command w (.itself (reads.symm ▸ place))

theorem Sent.retried {displacements : List Displacement} (listed : distant ∈ displacements)
    (stays : Stays w₀.disc.sectorsNo sectorNo) (retry : Nat)
    (sent : Sent (BlockRead w₀.disc displacements sectorNo) w₀ w) :
    Sent (BlockRead w₀.disc displacements sectorNo) w₀
      (if 0 < retry then Friidump.readDistant env.recording w sectorNo else w) := by
  split
  · exact sent.trans (.readDistant sent.sectorsNo rfl listed stays)
  · exact sent

theorem Sent.attempt7 (before : sectorNo < w₀.disc.sectorsNo) (stays : Stays w₀.disc.sectorsNo sectorNo)
    (retry : Nat) (arrays : Locals) (sent : Sent (BlockRead w₀.disc [distant] sectorNo) w₀ w) :
    Sent (BlockRead w₀.disc [distant] sectorNo) w₀
      (attempt7 env.recording sectorNo retry (w, arrays)).1.1 := by
  have away : Sent (BlockRead w₀.disc [distant] sectorNo) w₀
      (if 0 < retry then Friidump.readDistant env.recording w sectorNo else w) :=
    sent.retried List.mem_cons_self stays retry
  unfold Friidump.attempt7
  extract_lets distant executed driven
  have read : Sent (BlockRead w₀.disc [Displacement.distant] sectorNo) w₀ driven :=
    away.trans (.blockRead (.first before) distant none)
  split
  · have dumped := read.trans ((Sent.frame env _).dumpBlocks
      (fun w sectorNo j arrays => .unscrambleLocal w sectorNo j arrays) sectorNo 5 0 driven arrays)
    rcases result : dumpBlocks env.recording sectorNo 5 0 driven arrays with
      ⟨⟨w₁, arrays₁⟩, success, stop⟩
    rw [result] at dumped
    cases success with
    | true => exact dumped.trans (.cacheLocals sectorNo 5 0 w₁ arrays₁)
    | false => exact dumped
  · exact read

theorem Sent.fillBlocks {displacements : List Displacement} (left j : Nat) (rounds : j + left = 5)
    (w : Recording σ) (arrays : Locals) (sent : Sent (BlockRead w₀.disc displacements sectorNo) w₀ w) :
    Sent (BlockRead w₀.disc displacements sectorNo) w₀
      (fillBlocks env.recording sectorNo left j w arrays).1.1 := by
  induction left generalizing j w arrays with
  | zero => exact sent
  | succ left ih =>
      rw [Friidump.fillBlocks]
      split
      · rename_i early
        have read : Sent (BlockRead w₀.disc displacements sectorNo) w₀
            (readBlock env.recording sectorNo j w arrays).1 := by
          have place : BlockPlace w₀.disc.sectorsNo sectorNo (sectorNo + j.toUInt32 * 16) :=
            ⟨j, by omega, rfl, sent.sectorsNo ▸ of_decide_eq_true early⟩
          unfold readBlock
          split
          · exact sent
          · exact sent.trans (.blockRead place w _)
        rcases executed : readBlock env.recording sectorNo j w arrays with ⟨w₁, arrays₁, ret⟩
        rw [executed] at read
        have block := read.trans (.unscrambleLocal w₁ sectorNo j (arrays₁.fill j))
        dsimp only
        split
        · rcases result : Friidump.unscrambleLocal sectorNo j w₁ (arrays₁.fill j) with
            ⟨w₂, arrays₂, success⟩
          rw [result] at block
          cases success with
          | true => exact ih (j + 1) (by omega) w₂ arrays₂ block
          | false => exact block
        · exact read
      · exact sent

/-- Methods 8 and 9 read the headers with dumps alone. -/
theorem Sent.attempt89 {headers : Nat → Recording σ → Locals → (Recording σ × Locals) × Bool × Bool}
    (dumps : ∀ kind j w arrays, Sent kind w (headers j w arrays).1.1)
    (before : sectorNo < w₀.disc.sectorsNo) (stays : Stays w₀.disc.sectorsNo sectorNo)
    (staysAhead : ahead.OnDisc w₀.disc.sectorsNo sectorNo.toNat
      (Friidump.blockRead (aheadSector w₀.disc.sectorsNo sectorNo)))
    (retry : Nat) (arrays : Locals) (sent : Sent (BlockRead w₀.disc [distant, ahead] sectorNo) w₀ w) :
    Sent (BlockRead w₀.disc [distant, ahead] sectorNo) w₀
      (attempt89 env.recording headers sectorNo retry (w, arrays)).1.1 := by
  have away : Sent (BlockRead w₀.disc [distant, ahead] sectorNo) w₀
      (if 0 < retry then Friidump.readDistant env.recording w sectorNo else w) :=
    sent.retried List.mem_cons_self stays retry
  unfold Friidump.attempt89
  extract_lets distant neighbour driven executed driven₁ source arrays₁
  have displaced : Sent (BlockRead w₀.disc [Displacement.distant, ahead] sectorNo) w₀ driven := by
    have picked : neighbour = aheadSector w₀.disc.sectorsNo sectorNo := by
      show (if distant.disc.sectorsNo - 1000 < sectorNo then _ else _) = _
      rw [away.sectorsNo]
      rfl
    have onDisc : CallRead w₀.disc.sectorsNo [Displacement.distant, ahead]
        (BlockPlace w₀.disc.sectorsNo sectorNo) (fun t => t = sectorNo) (Friidump.blockRead neighbour) :=
      .displacing (List.mem_cons_of_mem _ List.mem_cons_self) rfl (picked.symm ▸ staysAhead)
    exact away.trans (.command distant onDisc)
  have read : Sent (BlockRead w₀.disc [Displacement.distant, ahead] sectorNo) w₀ driven₁ :=
    displaced.trans (.blockRead (.first before) driven _)
  split
  · have rebuilt := read.trans ((Sent.frame env _).reconstructBlocks (dumps _) sectorNo 5 0 driven₁ arrays₁)
    rcases result : reconstructBlocks headers sectorNo 5 0 driven₁ arrays₁ with
      ⟨⟨w₂, arrays₂⟩, success, stop⟩
    rw [result] at rebuilt
    cases success with
    | true =>
        have filled : Sent (BlockRead w₀.disc [Displacement.distant, ahead] sectorNo) w₀
            (Friidump.fillBlocks env.recording sectorNo 5 0 w₂ arrays₂).1.1 :=
          .fillBlocks 5 0 rfl w₂ arrays₂ rebuilt
        dsimp only
        rcases result : Friidump.fillBlocks env.recording sectorNo 5 0 w₂ arrays₂ with
          ⟨⟨w₃, arrays₃⟩, success⟩
        rw [result] at filled
        cases success with
        | true => exact filled.trans (.cacheLocals sectorNo 5 0 w₃ arrays₃)
        | false => exact filled
    | false => exact rebuilt
  · exact read

theorem discReadSector7_sent (w : Recording σ) (before : sectorNo < w.disc.sectorsNo)
    (stays : Stays w.disc.sectorsNo sectorNo) :
    Sent (BlockRead w.disc [distant] sectorNo) w (discReadSector7 env.recording sectorNo w).1 :=
  Sent.retryLoop Prod.fst (fun retry state sent => sent.attempt7 before stays retry state.2)
    (w, .ofStack env.recording w.drive) (.refl w)

theorem attempts89_sent
    {headers : Nat → Recording σ → Locals → (Recording σ × Locals) × Bool × Bool}
    (dumps : ∀ kind j w arrays, Sent kind w (headers j w arrays).1.1) (w : Recording σ)
    (before : sectorNo < w.disc.sectorsNo) (stays : Stays w.disc.sectorsNo sectorNo)
    (staysAhead : ahead.OnDisc w.disc.sectorsNo sectorNo.toNat
      (blockRead (aheadSector w.disc.sectorsNo sectorNo))) (arrays : Locals) :
    Sent (BlockRead w.disc [distant, ahead] sectorNo) w
      (retryLoop (attempt89 env.recording headers sectorNo) 5 0 (w, arrays)).1.1 :=
  Sent.retryLoop Prod.fst (fun retry state sent =>
    sent.attempt89 dumps before stays staysAhead retry state.2) (w, arrays) (.refl w)

end Blocks

/-! ## The first of them -/

section First

variable {σ : Type} {env : Env σ} {sectorNo : UInt32} {w w' : Recording σ} {cmds : List (List UInt8)}

theorem Sends.grows (sent : Sends cmds w w') : Grows w w' :=
  (List.suffix_append cmds w.drive.2).trans sent

theorem retryLoop_grows {α : Type} {attempt : Nat → α → α × Bool × Bool} (world : α → Recording σ)
    (step : ∀ retry state, Grows (world state) (world (attempt retry state).1)) (left retry : Nat)
    (state : α) : Grows (world state) (world (retryLoop attempt left retry state).1) := by
  induction left generalizing retry state with
  | zero => exact List.suffix_refl _
  | succ left ih =>
      have grown := step retry state
      rw [retryLoop]
      rcases tried : attempt retry state with ⟨state', out, stop⟩
      rw [tried] at grown
      cases out with
      | true => exact grown
      | false =>
          cases stop with
          | true => exact grown
          | false => exact grown.trans (ih (retry + 1) state')

/-- What the first try sends first all tries send first. -/
theorem Sends.retryLoop {α : Type} {attempt : Nat → α → α × Bool × Bool} (world : α → Recording σ)
    (step : ∀ retry state, Grows (world state) (world (attempt retry state).1)) {state : α}
    (sent : Sends cmds w (world (attempt 0 state).1)) :
    Sends cmds w (world (Friidump.retryLoop attempt 5 0 state).1) := by
  rw [Friidump.retryLoop]
  rcases tried : attempt 0 state with ⟨state', out, stop⟩
  rw [tried] at sent
  cases out with
  | true => exact sent
  | false =>
      cases stop with
      | true => exact sent
      | false => exact sent.grow (retryLoop_grows world step 4 1 state')

theorem Sent.grows {kind : List UInt8 → Prop} (sent : Sent kind w w') : Grows w w' := by
  obtain ⟨cmds, recorded, -⟩ := sent.cmds
  exact ⟨cmds, recorded.symm⟩

theorem streamLoop_grows (method left : Nat) (cnt : UInt32) (w : Recording σ) :
    Grows w (streamLoop env.recording method sectorNo left cnt w).1 :=
  (Grows.frame env).streamLoop method sectorNo left cnt w

theorem streamingRead_sends {method : Nat} (displacing : method = 0 ∨ method = 1 ∨ method = 4)
    (w : Recording σ) :
    Sends [dummyRead (distantSector w.disc.sectorsNo sectorNo)] w
      (streamingRead env.recording method sectorNo w).1 := by
  have first := streamStep_sends env sectorNo displacing 0 w
  rw [UInt32.zero_mul, UInt32.add_zero] at first
  have after : Sent (fun _ => True) _ (streamingRead env.recording method sectorNo w).1 :=
    .streamingRead_after method sectorNo w
  refine Sends.grow ?_ after.grows
  rw [streamLoop]
  rcases stepped : streamStep env.recording method sectorNo 0 w with ⟨w', out⟩
  rw [stepped] at first
  cases out with
  | true => exact first.grow (streamLoop_grows method _ _ w')
  | false => exact first

theorem discReadSectorGeneric_sends {method : Nat} (displacing : method = 0 ∨ method = 1 ∨ method = 4)
    (w : Recording σ) :
    Sends [dummyRead (distantSector w.disc.sectorsNo sectorNo)] w
      (discReadSectorGeneric env.recording method sectorNo w).1 := by
  refine Sends.retryLoop id (fun retry w => ?_) ?_
  · dsimp only [id]
    split
    · exact (streamingRead_sends displacing w).grows
    · exact (simpleRead_sends env sectorNo w).grows
  · exact streamingRead_sends displacing w

theorem attempts89_sends
    {headers : Nat → Recording σ → Locals → (Recording σ × Locals) × Bool × Bool}
    (grows : ∀ j w arrays, Grows w (headers j w arrays).1.1) (w : Recording σ) (arrays : Locals) :
    Sends [blockRead (aheadSector w.disc.sectorsNo sectorNo)] w
      (retryLoop (attempt89 env.recording headers sectorNo) 5 0 (w, arrays)).1.1 :=
  Sends.retryLoop Prod.fst
    (fun retry state => (attempt89_sends env sectorNo grows retry state.1 state.2).grows)
    (attempt89_sends env sectorNo grows 0 w arrays)

theorem Sends.ahead_iff (sent : Sends [blockRead (aheadSector w.disc.sectorsNo sectorNo)] w w')
    (before : sectorNo < w.disc.sectorsNo) :
    Displaces [ahead] sectorNo.toNat w w' ↔ AheadFits w.disc.sectorsNo sectorNo.toNat := by
  rw [sent.displaces_iff rfl]
  simp [aheadSector_onDisc_iff before]

end First

/-! ## Whole calls -/

section Calls

theorem stays_iff {sectorsNo s : UInt32} :
    Stays sectorsNo s ↔ (s < sectorsNo → DistantFits sectorsNo s.toNat) :=
  forall_congr' fun before => distantSector_onDisc_iff before

variable {σ : Type} (env : Env σ) {sectorNo : UInt32} (w : Recording σ)

/-- The first READ of a call of method 0, 1, 4, 8 or 9 is a displacing one. It stays on the
disc exactly where the sector that the guards pick does. -/
theorem calls_displace_iff (before : sectorNo < w.disc.sectorsNo) :
    (∀ method, method = 0 ∨ method = 1 ∨ method = 4 →
      (Displaces [distant] sectorNo.toNat w
          (discReadSectorGeneric env.recording method sectorNo w).1 ↔
        DistantFits w.disc.sectorsNo sectorNo.toNat)) ∧
    (Displaces [ahead] sectorNo.toNat w (discReadSector8 env.recording sectorNo w).1 ↔
      AheadFits w.disc.sectorsNo sectorNo.toNat) ∧
    (Displaces [ahead] sectorNo.toNat w (discReadSector9 env.recording sectorNo w).1 ↔
      AheadFits w.disc.sectorsNo sectorNo.toNat) := by
  have dumps8 := fun j w arrays => (Grows.frame env).dumpHeaders8 j 16 0 w arrays true false
  have dumps9 := fun j w arrays => (Grows.frame env).dumpHeaders9 j 16 0 w arrays true false
  refine ⟨fun method displacing => ?_, ?_, ?_⟩
  · exact (discReadSectorGeneric_sends displacing w).distant_iff before
  · exact (attempts89_sends dumps8 w (.ofStack env.recording w.drive)).ahead_iff before
  · exact (attempts89_sends dumps9 w (.ofStack env.recording w.drive)).ahead_iff before

theorem genericRead_addressed {d : Disc} {cmd : List UInt8} (sent : GenericRead d sectorNo cmd)
    (inside : ∀ t, StepPlace d sectorNo t → t < d.sectorsNo) : addressed cmd < d.sectorsNo :=
  CallRead.addressed_lt sent (fun _ listed => .inl (List.mem_singleton.mp listed)) inside inside

theorem blockRead_addressed {d : Disc} {displacements : List Displacement} {cmd : List UInt8}
    (sent : BlockRead d displacements sectorNo cmd)
    (known : ∀ given ∈ displacements, given = distant ∨ given = ahead) (before : sectorNo < d.sectorsNo) :
    addressed cmd < d.sectorsNo :=
  CallRead.addressed_lt sent known (fun _ ⟨_, _, _, inside⟩ => inside) fun _ same => same ▸ before

/-- Over a whole call each READ is one for the sectors it brings in or a displacing one that stays
on the disc, where the sectors that the guards pick are on it. Steps of a pass that begin behind
the end of the disc are not spoken of. -/
theorem calls_stay (before : sectorNo < w.disc.sectorsNo) :
    (∀ method, (∀ t, StepPlace w.disc sectorNo t → t < w.disc.sectorsNo →
        DistantFits w.disc.sectorsNo t.toNat) →
      Sent (fun cmd => GenericRead w.disc sectorNo cmd ∧
          ((∀ t, StepPlace w.disc sectorNo t → t < w.disc.sectorsNo) → addressed cmd < w.disc.sectorsNo))
        w (discReadSectorGeneric env.recording method sectorNo w).1) ∧
    (DistantFits w.disc.sectorsNo sectorNo.toNat →
      Sent (fun cmd => BlockRead w.disc [distant] sectorNo cmd ∧ addressed cmd < w.disc.sectorsNo)
        w (discReadSector7 env.recording sectorNo w).1) ∧
    (DistantFits w.disc.sectorsNo sectorNo.toNat → AheadFits w.disc.sectorsNo sectorNo.toNat →
      Sent (fun cmd => BlockRead w.disc [distant, ahead] sectorNo cmd ∧ addressed cmd < w.disc.sectorsNo)
          w (discReadSector8 env.recording sectorNo w).1 ∧
        Sent (fun cmd => BlockRead w.disc [distant, ahead] sectorNo cmd ∧
            addressed cmd < w.disc.sectorsNo)
          w (discReadSector9 env.recording sectorNo w).1) := by
  simp only [← stays_iff]
  rw [← distantSector_onDisc_iff before, ← aheadSector_onDisc_iff before]
  have known : ∀ d ∈ [distant, ahead], d = distant ∨ d = ahead := by simp
  have dumps8 := fun kind j w arrays => (Sent.frame env kind).dumpHeaders8 j 16 0 w arrays true false
  have dumps9 := fun kind j w arrays => (Sent.frame env kind).dumpHeaders9 j 16 0 w arrays true false
  refine ⟨fun method stays => ?_, fun stays => ?_, fun stays staysAhead => ⟨?_, ?_⟩⟩
  · exact (discReadSectorGeneric_sent method w stays).mono fun _ sent =>
      ⟨sent, genericRead_addressed sent⟩
  · exact (discReadSector7_sent w before fun _ => stays).mono fun _ sent =>
      ⟨sent, blockRead_addressed sent (by simp) before⟩
  · exact (attempts89_sent dumps8 w before (fun _ => stays) staysAhead _).mono fun _ sent =>
      ⟨sent, blockRead_addressed sent known before⟩
  · exact (attempts89_sent dumps9 w before (fun _ => stays) staysAhead _).mono fun _ sent =>
      ⟨sent, blockRead_addressed sent known before⟩

end Calls

set_option maxRecDepth 2000 in
/-- All tries of a call on a disc of the size of the GameCube's, whose drive answers with zeroes. -/
theorem calls_stay_gamecube :
    ∃ d w, discNew ⟨.hitachi, 2, 9, true⟩ (fun _ _ => 0) (fun _ _ => 0)
        ⟨fun _ => ⟨0, fun _ => 0⟩, false⟩ = some d ∧
      w = forcedDisc (discSetReadMethod (initRange d notGiven notGiven) 4) 0x0AE0B0 ∧
      Sent (fun cmd => GenericRead w.disc 0 cmd ∧
          ((∀ t, StepPlace w.disc 0 t → t < w.disc.sectorsNo) → addressed cmd < w.disc.sectorsNo))
        w (discReadSectorGeneric zeroEnv.recording 4 0 w).1 ∧
      Sent (fun cmd => BlockRead w.disc [distant, ahead] 0 cmd ∧ addressed cmd < w.disc.sectorsNo)
        w (discReadSector8 zeroEnv.recording 0 w).1 := by
  refine ⟨_, _, rfl, rfl, ?_⟩
  generalize start : forcedDisc _ 0x0AE0B0 = w
  have size : w.disc.sectorsNo = 0x0AE0B0 := by
    rw [← start]
    exact forcedDisc_sectorsNo _ (by decide)
  have before : 0 < w.disc.sectorsNo := by
    rw [size]
    decide
  have fits : DistantFits w.disc.sectorsNo 0 := by
    rw [size]
    simp [DistantFits]
  have fitsAhead : AheadFits w.disc.sectorsNo 0 := by
    rw [size]
    simp [AheadFits]
  obtain ⟨generic, -, headers⟩ := calls_stay zeroEnv w before
  have last : (0x0AE0B0 : UInt32).toNat = 712880 := rfl
  refine ⟨generic 4 fun t _ inside => ?_, (headers fits fitsAhead).1⟩
  have below := UInt32.lt_iff_toNat_lt.mp inside
  rw [size, last] at below
  rw [size, DistantFits, last]
  split <;> omega

end Friidump
