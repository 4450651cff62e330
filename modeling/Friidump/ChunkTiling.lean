import Friidump.StreamingPass

/-!
# The chunks of a step against the drive's cache

Which ranges of its cache the dumps of a step ask the drive for, and when they are
the bytes the READ was to bring in and no others.
-/

set_option autoImplicit false

namespace Friidump

/-! ## The requests of a step -/

/-- A call of `dvd_memdump` for one block, with the place of its target in `buf`. -/
structure MemdumpRequest where
  offset : UInt32
  size : UInt32
  target : Nat
deriving DecidableEq, Repr

/-- The calls of the loop over `block_cnt`, with the chunks left. -/
def chunkRequests (chunks : Chunks) (position : UInt32) : Nat → UInt32 → UInt32 → List MemdumpRequest
  | 0, _, _ => []
  | left + 1, blockCnt, size =>
      { offset := blockCnt * 27 * 2064, size := size
        target := (position + blockCnt * 27 * 2064).toNat } ::
      chunkRequests chunks position left (blockCnt + 1)
        (if blockCnt = chunks.blockLen - 1 then chunks.lastBlockSize else size)

def stepRequests (step cnt : UInt32) : List MemdumpRequest :=
  chunkRequests (chunksOf step) (cnt * (2064 * step)) (chunksOf step).blockLen.toNat 0
    (chunksOf step).blockSize

section Run

variable {σ : Type} (env : Env σ)

/-- The calls one after the other, up to one that fails. -/
def runRequests : List MemdumpRequest → World σ → World σ × Bool
  | [], w => (w, true)
  | request :: rest, w =>
      let dumped := dvdMemdump env w.disc.dvd.memdump w.drive request.offset 1 request.size
        (w.buf.advance request.target)
      let w := (w.withDrive dumped.drive).withBuf (w.buf.splice request.target dumped.buf)
      if dumped.out < 0 then (w, false) else runRequests rest w

/-- A step that makes the given calls after its READ. -/
def streamStepBy (requests : List MemdumpRequest) (method : Nat) (sectorNo position : UInt32)
    (w : World σ) : World σ × Bool :=
  let (w, ret) := readStep env method w sectorNo
  if 0 ≤ ret then
    let (w, out) := runRequests env requests w
    if !out then (w, false)
    else if misplaced (w.buf.advance position.toNat) sectorNo then (w, false)
    else (w, true)
  else (w, false)

theorem dumpChunks_requests (chunks : Chunks) (position : UInt32) (left : Nat)
    (blockCnt size : UInt32) (w : World σ) :
    dumpChunks env chunks position left blockCnt size w =
      runRequests env (chunkRequests chunks position left blockCnt size) w := by
  induction left generalizing blockCnt size w with
  | zero => rfl
  | succ left ih =>
      simp only [dumpChunks, chunkRequests, runRequests, ih]

/-- Whatever the drive answers, a step makes these calls in this order. -/
theorem streamStep_requests (method : Nat) (sectorNo cnt : UInt32) (w : World σ) :
    streamStep env method sectorNo cnt w =
      streamStepBy env (stepRequests w.disc.secMem cnt) method (sectorNo + cnt * w.disc.secMem)
        (cnt * (2064 * w.disc.secMem)) w := by
  simp only [streamStep, streamStepBy, stepRequests, dumpChunks_requests]
  rfl

/-- The loop over `cnt` with these steps, for a given step size. -/
def streamLoopBy (step : UInt32) (method : Nat) (sectorNo : UInt32) :
    Nat → UInt32 → World σ → World σ × Bool × UInt32
  | 0, cnt, w => (w, true, cnt)
  | left + 1, cnt, w =>
      match streamStepBy env (stepRequests step cnt) method (sectorNo + cnt * step)
        (cnt * (2064 * step)) w with
      | (w, true) => streamLoopBy step method sectorNo left (cnt + 1) w
      | (w, false) => (w, false, cnt)

/-- A whole pass makes the calls of its rounds. -/
theorem streamLoop_requests (method : Nat) (sectorNo : UInt32) (left : Nat) (cnt : UInt32)
    (w : World σ) : streamLoop env method sectorNo left cnt w =
      streamLoopBy env w.disc.secMem method sectorNo left cnt w := by
  induction left generalizing cnt w with
  | zero => rfl
  | succ left ih =>
      have kept : (streamStep env method sectorNo cnt w).1.disc.secMem = w.disc.secMem := by
        rw [((Quiet.frame env).streamStep method sectorNo cnt w).disc]
      rw [streamLoop, streamLoopBy, ← streamStep_requests]
      rcases stepped : streamStep env method sectorNo cnt w with ⟨w', out⟩
      rw [stepped] at kept
      cases out with
      | false => rfl
      | true => exact (ih (cnt + 1) w').trans (congrArg (fun step =>
          streamLoopBy env step method sectorNo left (cnt + 1) w') kept)

end Run

/-! ## Tilings -/

/-- The calls ask for consecutive ranges from `start` to `stop`, to be stored at the same
places behind `base`. -/
def Tiles (base : Nat) : Nat → Nat → List MemdumpRequest → Prop
  | start, stop, [] => start = stop
  | start, stop, request :: rest =>
      request.offset.toNat = start ∧ request.target = base + start ∧
        Tiles base (start + request.size.toNat) stop rest

instance Tiles.decidable (base : Nat) :
    (start stop : Nat) → (requests : List MemdumpRequest) → Decidable (Tiles base start stop requests)
  | start, stop, [] => inferInstanceAs (Decidable (start = stop))
  | start, stop, request :: rest =>
      have := Tiles.decidable base (start + request.size.toNat) stop rest
      inferInstanceAs (Decidable (request.offset.toNat = start ∧ request.target = base + start ∧
        Tiles base (start + request.size.toNat) stop rest))

/-- For every round of a pass the calls tile the bytes of one step, and the whole blocks
lie within the sectors of all rounds. -/
structure DumpsExactly (step : UInt32) : Prop where
  tiled : ∀ cnt ≤ maxCntOf step, Tiles (cnt.toNat * step.toNat * 2064) 0 (step.toNat * 2064)
    (stepRequests step cnt)
  blocks : (maxBlkOf step (maxCntOf step)).toNat * 16 ≤ ((maxCntOf step).toNat + 1) * step.toNat

/-- All positions in `buf` fit in 32 bits. -/
def SizesFit (step : UInt32) : Prop :=
  ((maxCntOf step).toNat + 1) * step.toNat * 2064 < 2 ^ 32

section Sizes

variable {step : UInt32}

private theorem chunkBytes : (27 * 2064 : UInt32).toNat = 55728 := rfl

private theorem stepBytes (fits : step.toNat * 2064 < 2 ^ 32) : (step * 2064).toNat = step.toNat * 2064 := by
  rw [UInt32.toNat_mul]
  exact Nat.mod_eq_of_lt fits

theorem chunksOf_single (fits : step.toNat * 2064 < 2 ^ 32) (short : step.toNat ≤ 27) :
    chunksOf step = { blockLen := 1, blockSize := step * 2064, lastBlockSize := step * 2064 } := by
  rw [chunksOf]
  refine if_neg fun long => ?_
  have beyond := UInt32.lt_iff_toNat_lt.mp long
  rw [stepBytes fits, chunkBytes] at beyond
  omega

theorem chunksOf_several (fits : step.toNat * 2064 < 2 ^ 32) (long : 27 < step.toNat) :
    (chunksOf step).blockSize.toNat = 55728 ∧
      (chunksOf step).blockLen.toNat = (step.toNat + 26) / 27 := by
  have bytes := stepBytes fits
  have beyond : (27 * 2064 : UInt32) < step * 2064 := by
    rw [UInt32.lt_iff_toNat_lt, bytes, chunkBytes]
    omega
  rw [chunksOf]
  dsimp only
  rw [if_pos beyond]
  refine ⟨rfl, ?_⟩
  have quotient : (step * 2064 / (27 * 2064)).toNat = step.toNat / 27 := by
    rw [UInt32.toNat_div, bytes, chunkBytes]
    omega
  have rest : step * 2064 % (27 * 2064) ≠ 0 ↔ step.toNat % 27 ≠ 0 := by
    have value : (step * 2064 % (27 * 2064)).toNat = step.toNat % 27 * 2064 := by
      rw [UInt32.toNat_mod, bytes, chunkBytes]
      omega
    refine not_congr ⟨fun zero => ?_, fun zero => UInt32.toNat_inj.mp ?_⟩
    · rw [zero] at value
      exact (Nat.mul_eq_zero.mp value.symm).resolve_right (Nat.succ_ne_zero _)
    · rw [value, zero]
      rfl
  by_cases ragged : step.toNat % 27 ≠ 0
  · dsimp only
    rw [if_pos (rest.mpr ragged), toNat_add_one (by omega), quotient]
    omega
  · dsimp only
    rw [if_neg (rest.not.mpr ragged), quotient]
    omega

private theorem offset_fits {blockCnt : UInt32} (fits : blockCnt.toNat * 55728 < 2 ^ 32) :
    (blockCnt * 27 * 2064).toNat = blockCnt.toNat * 55728 := by
  rw [UInt32.toNat_mul, UInt32.toNat_mul]
  simp only [UInt32.reduceToNat]
  omega

private theorem position_fits {cnt : UInt32}
    (fits : (cnt.toNat + 1) * step.toNat * 2064 < 2 ^ 32) :
    (cnt * (2064 * step)).toNat = cnt.toNat * step.toNat * 2064 := by
  rw [Nat.succ_mul, Nat.add_mul] at fits
  have size : (2064 * step).toNat = 2064 * step.toNat := by
    rw [UInt32.toNat_mul]
    exact Nat.mod_eq_of_lt (by simp only [UInt32.reduceToNat]; omega)
  rw [UInt32.toNat_mul, size, Nat.mod_eq_of_lt]
  · rw [Nat.mul_comm 2064, Nat.mul_assoc]
  · rw [Nat.mul_comm 2064, ← Nat.mul_assoc]
    exact Nat.lt_of_le_of_lt (Nat.le_add_right _ _) fits

end Sizes

/-! ### Positions of chunks -/

private theorem chunk_inside {base count k size bound : Nat} (inside : k < count)
    (room : base + count * size < bound + size) : base + k * size < bound := by
  have grown := Nat.mul_le_mul_right size (Nat.succ_le_of_lt inside)
  rw [Nat.succ_mul] at grown
  omega

private theorem chunks_room {base step count size bound : Nat} (covered : count * 27 ≤ step + 26)
    (fits : base + step * size < bound) : base + count * (27 * size) < bound + 27 * size := by
  have grown := Nat.mul_le_mul_right size covered
  rw [Nat.mul_assoc, Nat.add_mul] at grown
  omega

section Chunks

variable {chunks : Chunks} {position : UInt32} {base stop : Nat}

/-- All chunks keep the regular size: it changes behind the last one only. -/
private theorem chunkRequests_tiles_iff {size : UInt32} (regular : size.toNat = 55728)
    (start : position.toNat = base) (left : Nat) {blockCnt : UInt32}
    (rest : blockCnt.toNat + left = chunks.blockLen.toNat)
    (room : base + chunks.blockLen.toNat * 55728 < 2 ^ 32 + 55728) :
    Tiles base (blockCnt.toNat * 55728) stop
        (chunkRequests chunks position left blockCnt size) ↔
      chunks.blockLen.toNat * 55728 = stop := by
  induction left generalizing blockCnt with
  | zero =>
      rw [Nat.add_zero] at rest
      rw [chunkRequests, Tiles, rest]
  | succ left ih =>
      have inside : base + blockCnt.toNat * 55728 < 2 ^ 32 := chunk_inside (by omega) room
      have offset : (blockCnt * 27 * 2064).toNat = blockCnt.toNat * 55728 :=
        offset_fits (Nat.lt_of_le_of_lt (Nat.le_add_left _ base) inside)
      have target : (position + blockCnt * 27 * 2064).toNat = base + blockCnt.toNat * 55728 := by
        rw [UInt32.toNat_add, offset, start]
        exact Nat.mod_eq_of_lt inside
      have next : (blockCnt + 1).toNat = blockCnt.toNat + 1 :=
        toNat_add_one (by have := chunks.blockLen.toNat_lt; omega)
      have later : chunkRequests chunks position left (blockCnt + 1)
          (if blockCnt = chunks.blockLen - 1 then chunks.lastBlockSize else size) =
            chunkRequests chunks position left (blockCnt + 1) size := by
        cases left with
        | zero => rfl
        | succ left =>
            have earlier : blockCnt ≠ chunks.blockLen - 1 := by
              intro last
              have one : (1 : UInt32) ≤ chunks.blockLen := by
                rw [UInt32.le_iff_toNat_le]
                exact Nat.le_trans (Nat.le_add_left 1 _) (Nat.le_of_eq rest)
              have value := congrArg UInt32.toNat last
              rw [UInt32.toNat_sub_of_le _ _ one] at value
              simp only [UInt32.reduceToNat] at value
              omega
            rw [if_neg earlier]
      have after : blockCnt.toNat * 55728 + size.toNat = (blockCnt + 1).toNat * 55728 := by
        rw [next, regular, Nat.succ_mul]
      rw [chunkRequests, Tiles, later, offset, target, after, ih (by omega)]
      exact ⟨fun tiled => tiled.2.2, fun whole => ⟨rfl, rfl, whole⟩⟩

end Chunks

section Step

variable {step : UInt32}

private theorem stepRequests_tiles_iff {cnt : UInt32}
    (fits : (cnt.toNat + 1) * step.toNat * 2064 < 2 ^ 32) :
    Tiles (cnt.toNat * step.toNat * 2064) 0 (step.toNat * 2064) (stepRequests step cnt) ↔
      step.toNat ≤ 27 ∨ 27 ∣ step.toNat := by
  have start := position_fits fits
  have single : cnt.toNat * step.toNat * 2064 + step.toNat * 2064 < 2 ^ 32 := by
    rw [← Nat.add_mul, ← Nat.succ_mul]
    exact fits
  have bytes : step.toNat * 2064 < 2 ^ 32 := Nat.lt_of_le_of_lt (Nat.le_add_left _ _) single
  by_cases short : step.toNat ≤ 27
  · refine iff_of_true ?_ (.inl short)
    have one : stepRequests step cnt =
        [{ offset := 0 * 27 * 2064, size := step * 2064
           target := (cnt * (2064 * step) + 0 * 27 * 2064).toNat }] := by
      rw [stepRequests, chunksOf_single bytes short, UInt32.toNat_one]
      simp only [chunkRequests]
    rw [one]
    refine ⟨rfl, ?_, ?_⟩
    · have here : cnt * (2064 * step) + 0 * 27 * 2064 = cnt * (2064 * step) := UInt32.add_zero _
      dsimp only
      rw [here, Nat.add_zero]
      exact start
    · exact (Nat.zero_add _).trans (stepBytes bytes)
  · have long : 27 < step.toNat := Nat.not_le.mp short
    obtain ⟨regular, count⟩ := chunksOf_several bytes long
    have tiles := @chunkRequests_tiles_iff (chunksOf step) (cnt * (2064 * step))
      (cnt.toNat * step.toNat * 2064) (step.toNat * 2064) _ regular start _ 0 (Nat.zero_add _)
      (chunks_room (by rw [count]; exact Nat.div_mul_le_self _ 27) single)
    have whole : (step.toNat + 26) / 27 * 55728 = step.toNat * 2064 ↔
        step.toNat ≤ 27 ∨ 27 ∣ step.toNat := by
      clear tiles start single bytes fits
      omega
    rw [stepRequests]
    refine tiles.trans ?_
    rw [count]
    exact whole

private theorem maxCntOf_small : ∀ deviation : Fin 16, (maxCntOf deviation.val.toUInt32).toNat ≤ 15 := by
  decide

/-- Only the deviation from whole blocks counts. -/
private theorem maxCntOf_le (step : UInt32) : (maxCntOf step).toNat ≤ 15 := by
  have below : (step % 16).toNat < 16 := by
    rw [UInt32.toNat_mod]
    exact Nat.mod_lt _ (by decide)
  have small := maxCntOf_small ⟨_, below⟩
  rw [Nat.toUInt32_eq, UInt32.ofNat_toNat] at small
  have same : maxCntOf (step % 16) = maxCntOf step := by
    have twice : step % 16 % 16 = step % 16 := by
      refine UInt32.toNat_inj.mp ?_
      rw [UInt32.toNat_mod, UInt32.toNat_mod]
      exact Nat.mod_mod _ _
    rw [maxCntOf, maxCntOf, twice]
  rwa [same] at small

private theorem maxBlk_within (fits : SizesFit step) :
    (maxBlkOf step (maxCntOf step)).toNat * 16 ≤ ((maxCntOf step).toNat + 1) * step.toNat := by
  have rounds : (maxCntOf step + 1).toNat = (maxCntOf step).toNat + 1 :=
    toNat_add_one (Nat.lt_of_le_of_lt (Nat.succ_le_succ (maxCntOf_le step)) (by decide))
  have product : (step * (maxCntOf step + 1)).toNat = ((maxCntOf step).toNat + 1) * step.toNat := by
    rw [UInt32.toNat_mul, rounds, Nat.mul_comm]
    exact Nat.mod_eq_of_lt (Nat.lt_of_le_of_lt (Nat.le_mul_of_pos_right _ (by decide)) fits)
  have ragged : step * (maxCntOf step + 1) % 16 ≤ step * (maxCntOf step + 1) := by
    rw [UInt32.le_iff_toNat_le, UInt32.toNat_mod]
    exact Nat.mod_le _ _
  rw [maxBlkOf, UInt32.toNat_div, UInt32.toNat_sub_of_le _ _ ragged, product]
  exact Nat.le_trans (Nat.div_mul_le_self _ 16) (Nat.sub_le _ _)

private theorem dumpsExactly_iff_even (step : UInt32) (fits : SizesFit step) :
    DumpsExactly step ↔ step.toNat ≤ 27 ∨ 27 ∣ step.toNat := by
  have room : ∀ {cnt : UInt32}, cnt ≤ maxCntOf step →
      (cnt.toNat + 1) * step.toNat * 2064 < 2 ^ 32 := by
    intro cnt early
    refine Nat.lt_of_le_of_lt (Nat.mul_le_mul_right _ (Nat.mul_le_mul_right _ ?_)) fits
    exact Nat.succ_le_succ (UInt32.le_iff_toNat_le.mp early)
  constructor
  · intro exact
    have first : (0 : UInt32) ≤ maxCntOf step := UInt32.le_iff_toNat_le.mpr (Nat.zero_le _)
    exact (stepRequests_tiles_iff (room first)).mp (exact.tiled 0 first)
  · intro even
    exact ⟨fun cnt early => (stepRequests_tiles_iff (room early)).mpr even,
      maxBlk_within fits⟩

/-- A pass makes the calls of its rounds, and these tile the drive's cache exactly when
the last chunk of a step is as long as the others. -/
theorem dumpsExactly_iff (step : UInt32) (fits : SizesFit step) :
    (∀ (σ : Type) (env : Env σ) (method : Nat) (sectorNo : UInt32) (w : World σ),
      w.disc.secMem = step → streamLoop env method sectorNo (w.disc.maxCnt.toNat + 1) 0 w =
        streamLoopBy env step method sectorNo (w.disc.maxCnt.toNat + 1) 0 w) ∧
      (DumpsExactly step ↔ step.toNat ≤ 27 ∨ 27 ∣ step.toNat) := by
  refine ⟨fun σ env method sectorNo w size => ?_, dumpsExactly_iff_even step fits⟩
  rw [streamLoop_requests, size]

/-- The default step of the streaming methods. -/
theorem dumpsExactly_default : DumpsExactly 27 := by
  have fits : SizesFit 27 := by
    unfold SizesFit
    decide
  exact (dumpsExactly_iff 27 fits).2.mpr (.inl (by decide))

/-- A step of 28 sectors is dumped as 54. -/
theorem dumpsExactly_fails_ragged :
    stepRequests 28 0 = [⟨0, 27 * 2064, 0⟩, ⟨27 * 2064, 27 * 2064, 27 * 2064⟩] ∧
      ¬ DumpsExactly 28 := by
  refine ⟨by decide, fun exact => ?_⟩
  exact absurd (exact.tiled 0 (by decide)) (by decide)

end Step

end Friidump
