import Friidump.DiscProperties

/-!
# What a streaming pass leaves in the buffer

A pass reads in steps and dumps each step in chunks. Whatever a drive promises
about one dump holds, after a whole pass, of every chunk of every step.
-/

set_option autoImplicit false

namespace Friidump

/-! ## Step sizes -/

/-- The step size and the counts that `disc_set_read_method` derives from it. -/
structure Ranged (d : Disc) : Prop where
  lower : 16 ≤ d.secMem.toNat
  upper : d.secMem.toNat ≤ 100
  rounds : d.maxCnt.toNat ≤ 15
  positive : 0 < d.maxBlk.toNat
  blocks : d.maxBlk.toNat * 16 ≤ d.secMem.toNat * (d.maxCnt.toNat + 1)

private theorem counts_ranged : ∀ m : Fin 101, 16 ≤ m.val →
    (maxCntOf m.val.toUInt32).toNat ≤ 15 ∧
      0 < (maxBlkOf m.val.toUInt32 (maxCntOf m.val.toUInt32)).toNat ∧
      (maxBlkOf m.val.toUInt32 (maxCntOf m.val.toUInt32)).toNat * 16 ≤
        m.val * ((maxCntOf m.val.toUInt32).toNat + 1) := by
  decide

theorem discSetReadMethod_admitted (d : Disc) (secDisc : UInt32) {secMem : UInt32} (method : Int)
    (admitted : 16 ≤ secMem ∧ secMem ≤ 100) :
    (discSetReadMethod (initRange d secDisc secMem) method).secMem = secMem := by
  have given : secMem ≠ notGiven := by
    rintro rfl
    exact absurd admitted.2 (by decide)
  simp only [discSetReadMethod, initRange, if_pos admitted, if_neg given]

private theorem discSetReadMethod_secMem (d : Disc) (secDisc secMem : UInt32) (method : Int) :
    16 ≤ (discSetReadMethod (initRange d secDisc secMem) method).secMem ∧
      (discSetReadMethod (initRange d secDisc secMem) method).secMem ≤ 100 := by
  by_cases admitted : 16 ≤ secMem ∧ secMem ≤ 100
  · rw [discSetReadMethod_admitted d secDisc method admitted]
    exact admitted
  · simp only [discSetReadMethod, initRange, if_neg admitted, if_true]
    split_ifs <;> decide

theorem discSetReadMethod_ranged (d : Disc) (secDisc secMem : UInt32) (method : Int) :
    Ranged (discSetReadMethod (initRange d secDisc secMem) method) := by
  obtain ⟨lower, upper⟩ := discSetReadMethod_secMem d secDisc secMem method
  have counts := counts_ranged ⟨_, Nat.lt_succ_of_le (UInt32.le_iff_toNat_le.mp upper)⟩
    (UInt32.le_iff_toNat_le.mp lower)
  rw [Nat.toUInt32_eq, UInt32.ofNat_toNat] at counts
  exact ⟨lower, upper, counts.1, counts.2.1, counts.2.2⟩

theorem Extends.ranged {σ : Type} {w w' : World σ} {P : CachedBlock → Prop}
    (kept : Extends P w w') (ranged : Ranged w.disc) :
    Ranged w'.disc := by
  rw [kept.disc]
  exact ⟨ranged.lower, ranged.upper, ranged.rounds, ranged.positive, ranged.blocks⟩

theorem Quiet.ranged {σ : Type} {w w' : World σ} (quiet : Quiet w w') (ranged : Ranged w.disc) :
    Ranged w'.disc :=
  (Quiet.extends (P := fun _ => True) quiet).ranged ranged

private theorem chunksOf_small : ∀ m : Fin 101, 16 ≤ m.val →
    ((chunksOf m.val.toUInt32).blockLen.toNat = 1 ∧ m.val ≤ 27 ∧
      (chunksOf m.val.toUInt32).blockSize.toNat = 2064 * m.val) ∨
    (0 < (chunksOf m.val.toUInt32).blockLen.toNat ∧
      (chunksOf m.val.toUInt32).blockLen.toNat ≤ 4 ∧ 27 < m.val ∧
      (chunksOf m.val.toUInt32).blockSize.toNat = 55728 ∧
      2064 * m.val ≤ 55728 * (chunksOf m.val.toUInt32).blockLen.toNat) := by
  decide

theorem chunksOf_cases {m : UInt32} (lower : 16 ≤ m.toNat) (upper : m.toNat ≤ 100) :
    ((chunksOf m).blockLen.toNat = 1 ∧ m.toNat ≤ 27 ∧
      (chunksOf m).blockSize.toNat = 2064 * m.toNat) ∨
    (0 < (chunksOf m).blockLen.toNat ∧ (chunksOf m).blockLen.toNat ≤ 4 ∧ 27 < m.toNat ∧
      (chunksOf m).blockSize.toNat = 55728 ∧ 2064 * m.toNat ≤ 55728 * (chunksOf m).blockLen.toNat) := by
  have chunks := chunksOf_small ⟨m.toNat, Nat.lt_succ_of_le upper⟩ lower
  rwa [Nat.toUInt32_eq, UInt32.ofNat_toNat] at chunks

/-! ## Dumps -/

section Dump

variable {σ : Type}

theorem dvdMemdump_one (env : Env σ) (memdump : MemdumpFunc) (drive : σ) (offset size : UInt32)
    (buf : Buffer) :
    dvdMemdump env memdump drive offset 1 size buf =
      memdump.memblock env drive (memdump.base + offset) size buf := by
  have one : (1 : UInt32).toNat = 0 + 1 := rfl
  have first : memdump.base + offset + 0 * size = memdump.base + offset := by
    rw [UInt32.zero_mul, UInt32.add_zero]
  have here : (0 * size).toNat = 0 := by
    rw [UInt32.zero_mul]
    rfl
  have spliced : ∀ dumped : Dumped σ, buf.splice 0 dumped.buf = dumped.buf := fun dumped =>
    funext fun i => Buffer.splice_above _ _ (Nat.zero_le i)
  rw [dvdMemdump, one, dumpMemLoop, first, here, Buffer.advance_zero, spliced]
  exact ite_self _

/-- What a drive promises about a dump: the address of the last READ, the offset, the
length and the bytes. It is a promise about the bytes before the length alone. -/
structure DumpRule (Shown : UInt32 → Nat → Nat → Buffer → Prop) : Prop where
  congr : ∀ {lba offset length bytes bytes'}, (∀ i < length, bytes' i = bytes i) →
    Shown lba offset length bytes → Shown lba offset length bytes'
  shorter : ∀ {lba offset length length' bytes}, length' ≤ length →
    Shown lba offset length bytes → Shown lba offset length' bytes

/-- A promise about each byte by itself: the address, the offset of the dump, the place
of the byte in it, and the byte. -/
def Bytewise (Byte : UInt32 → Nat → Nat → UInt8 → Prop) (lba : UInt32) (offset length : Nat)
    (bytes : Buffer) : Prop :=
  ∀ a < length, Byte lba offset a (bytes a)

theorem bytewise_rule (Byte : UInt32 → Nat → Nat → UInt8 → Prop) : DumpRule (Bytewise Byte) where
  congr same shown a below := (same a below).symm ▸ shown a below
  shorter le shown a below := shown a (Nat.lt_of_lt_of_le below le)

/-- The drive keeps its promise with every dump that succeeds. -/
def Promises (env : Env σ) (memdump : MemdumpFunc) (lba : σ → UInt32)
    (Shown : UInt32 → Nat → Nat → Buffer → Prop) : Prop :=
  ∀ drive offset size buf, 0 ≤ (dvdMemdump env memdump drive offset 1 size buf).out →
    lba (dvdMemdump env memdump drive offset 1 size buf).drive = lba drive ∧
      Shown (lba drive) offset.toNat size.toNat
        (dvdMemdump env memdump drive offset 1 size buf).buf

/-- A READ takes the drive to the place of its sector. -/
def Seeks (env : Env σ) (lba : σ → UInt32) (place : UInt32 → UInt32) : Prop :=
  ∀ drive mmc sector, mmc.cmd.head? = some 0xA8 → (mmc.cmd.drop 2).take 4 = msbToLsb sector →
    lba (env.ioctl drive mmc).1 = place sector

theorem readStep_lba {env : Env σ} {lba : σ → UInt32} {place : UInt32 → UInt32}
    (seeks : Seeks env lba place) (method : Nat) (w : World σ) (sectorNo : UInt32) :
    lba (readStep env method w sectorNo).1.drive = place sectorNo := by
  by_cases streaming : method = 4 ∨ method = 5 ∨ method = 6
  · simp only [readStep, if_pos streaming]
    exact seeks _ _ _ rfl rfl
  · simp only [readStep, if_neg streaming]
    exact seeks _ _ _ rfl rfl

/-! ## The chunks of a step -/

variable {env : Env σ} {w w' : World σ} {lba : σ → UInt32}
  {Shown : UInt32 → Nat → Nat → Buffer → Prop} {chunks : Chunks} {position blockCnt size : UInt32}

def dumpedWorld (env : Env σ) (w : World σ) (position blockCnt size : UInt32) : World σ :=
  let target := (position + blockCnt * 27 * 2064).toNat
  let dumped := dvdMemdump env w.disc.dvd.memdump w.drive (blockCnt * 27 * 2064) 1 size
    (w.buf.advance target)
  (w.withDrive dumped.drive).withBuf (w.buf.splice target dumped.buf)

/-- The size changes behind the last chunk only, where it is not used any more. -/
theorem dumpChunks_succ {left : Nat} (rest : blockCnt.toNat + (left + 1) = chunks.blockLen.toNat) :
    dumpChunks env chunks position (left + 1) blockCnt size w =
      if (dvdMemdump env w.disc.dvd.memdump w.drive (blockCnt * 27 * 2064) 1 size
          (w.buf.advance (position + blockCnt * 27 * 2064).toNat)).out < 0 then
        (dumpedWorld env w position blockCnt size, false)
      else dumpChunks env chunks position left (blockCnt + 1) size
        (dumpedWorld env w position blockCnt size) := by
  rw [dumpChunks]
  refine if_congr Iff.rfl rfl ?_
  cases left with
  | zero => rfl
  | succ left =>
      have earlier : blockCnt ≠ chunks.blockLen - 1 := by
        intro last
        have one : (1 : UInt32) ≤ chunks.blockLen := UInt32.le_iff_toNat_le.mpr (by
          simp only [UInt32.reduceToNat]
          omega)
        have value := congrArg UInt32.toNat last
        rw [UInt32.toNat_sub_of_le _ _ one] at value
        simp only [UInt32.reduceToNat] at value
        omega
      rw [if_neg earlier]
      rfl

theorem chunkOffset (few : blockCnt.toNat ≤ 4) :
    (blockCnt * 27 * 2064).toNat = blockCnt.toNat * 55728 := by
  rw [UInt32.toNat_mul, UInt32.toNat_mul]
  simp only [UInt32.reduceToNat]
  omega

theorem dumpChunks_shown {left : Nat} (rule : DumpRule Shown)
    (promises : Promises env w.disc.dvd.memdump lba Shown) (small : size.toNat ≤ 55728)
    (few : chunks.blockLen.toNat ≤ 4) (room : position.toNat + 4 * 55728 < 2 ^ 32)
    (rest : blockCnt.toNat + left = chunks.blockLen.toNat)
    (done : dumpChunks env chunks position left blockCnt size w = (w', true)) :
    (∀ a < position.toNat + blockCnt.toNat * 55728, w'.buf a = w.buf a) ∧
      ∀ j, blockCnt.toNat ≤ j → j < chunks.blockLen.toNat →
        Shown (lba w.drive) (j * 55728) size.toNat (w'.buf.advance (position.toNat + j * 55728)) := by
  induction left generalizing blockCnt w with
  | zero =>
      cases done
      exact ⟨fun _ _ => rfl, fun j lower upper => absurd upper (by omega)⟩
  | succ left ih =>
      have offset := chunkOffset (by omega : blockCnt.toNat ≤ 4)
      have target : (position + blockCnt * 27 * 2064).toNat =
          position.toNat + blockCnt.toNat * 55728 := by
        rw [UInt32.toNat_add, offset]
        omega
      have next : (blockCnt + 1).toNat = blockCnt.toNat + 1 := toNat_add_one (by omega)
      rw [dumpChunks_succ rest] at done
      split at done
      · cases done
      rename_i succeeded
      obtain ⟨kept, shown⟩ := promises _ _ _ _ (Int.not_lt.mp succeeded)
      obtain ⟨frame, later⟩ := @ih (dumpedWorld env w position blockCnt size) (blockCnt + 1)
        promises (by omega) done
      have written : ∀ i, (dumpedWorld env w position blockCnt size).buf
          (position.toNat + blockCnt.toNat * 55728 + i) =
          (dvdMemdump env w.disc.dvd.memdump w.drive (blockCnt * 27 * 2064) 1 size
            (w.buf.advance (position + blockCnt * 27 * 2064).toNat)).buf i := by
        intro i
        rw [← target]
        exact congrFun (Buffer.splice_advance _ _ _) i
      constructor
      · intro a below
        have before : a < position.toNat + (blockCnt + 1).toNat * 55728 := by
          rw [next, Nat.succ_mul, ← Nat.add_assoc]
          exact Nat.lt_of_lt_of_le below (Nat.le_add_right _ _)
        refine (frame a before).trans (Buffer.splice_below _ _ ?_)
        rw [target]
        exact below
      · intro j lower upper
        obtain rfl | after := Nat.eq_or_lt_of_le lower
        · rw [← offset]
          refine rule.congr (fun i inside => ?_) shown
          rw [offset, Buffer.advance_apply, frame _ (by omega), written]
        · rw [← kept]
          exact later j (by omega) upper

/-! ## A step -/

theorem readStep_buf (env : Env σ) (method : Nat) (w : World σ) (sectorNo : UInt32) :
    (readStep env method w sectorNo).1.buf = w.buf := by
  have displaced : (if method = 0 ∨ method = 1 ∨ method = 4 then readDistant env w sectorNo
      else w).buf = w.buf := by
    unfold readDistant
    split_ifs <;> rfl
  have flushed : ∀ w : World σ, (if method = 0 ∨ method = 2 ∨ method = 5 then
      flushCache env w sectorNo else w).buf = w.buf := by
    intro w
    split <;> rfl
  exact (flushed _).trans displaced

/-- A step whose bytes start in the right place, and whose chunks are as promised. -/
structure StepDumped (Shown : UInt32 → Nat → Nat → Buffer → Prop) (lba sector m : UInt32)
    (bytes : Buffer) : Prop where
  placed : misplaced bytes sector = false
  shown : ∀ j < (chunksOf m).blockLen.toNat,
    Shown lba (j * 55728) (min (chunksOf m).blockSize.toNat (2064 * m.toNat - j * 55728))
      (bytes.advance (j * 55728))

theorem StepDumped.congr {l sector m : UInt32} {bytes bytes' : Buffer} (rule : DumpRule Shown)
    (positive : 0 < m.toNat) (same : ∀ i < 2064 * m.toNat, bytes' i = bytes i)
    (dumped : StepDumped Shown l sector m bytes) : StepDumped Shown l sector m bytes' where
  placed := by
    have placed := dumped.placed
    unfold misplaced sectorNumber at placed ⊢
    rw [same 0 (by omega), same 1 (by omega), same 2 (by omega), same 3 (by omega)]
    exact placed
  shown j inside := by
    refine rule.congr (fun i below => ?_) (dumped.shown j inside)
    have within : i < 2064 * m.toNat - j * 55728 := Nat.lt_of_lt_of_le below (Nat.min_le_right _ _)
    exact same _ (by omega)

theorem StepDumped.byte {Byte : UInt32 → Nat → Nat → UInt8 → Prop} {l sector m : UInt32}
    {bytes : Buffer} (lower : 16 ≤ m.toNat) (upper : m.toNat ≤ 100)
    (dumped : StepDumped (Bytewise Byte) l sector m bytes) {i a : Nat} (inside : i < m.toNat)
    (below : a < 2064) :
    Byte l (i / 27 * 55728) (2064 * (i % 27) + a) (bytes (2064 * i + a)) := by
  have early : i / 27 < (chunksOf m).blockLen.toNat := by
    obtain ⟨one, single, _⟩ | ⟨_, _, _, _, covered⟩ := chunksOf_cases lower upper
    · omega
    · omega
  have within : 2064 * (i % 27) + a < min (chunksOf m).blockSize.toNat
      (2064 * m.toNat - i / 27 * 55728) := by
    obtain ⟨_, single, size⟩ | ⟨_, _, _, size, _⟩ := chunksOf_cases lower upper
    · omega
    · omega
  have position : i / 27 * 55728 + (2064 * (i % 27) + a) = 2064 * i + a := by omega
  have byte := dumped.shown (i / 27) early _ within
  rw [Buffer.advance_apply, position] at byte
  exact byte

theorem streamStep_done {method : Nat} {sectorNo cnt : UInt32}
    (done : streamStep env method sectorNo cnt w = (w', true)) :
    dumpChunks env (chunksOf w.disc.secMem) (cnt * (2064 * w.disc.secMem))
        (chunksOf w.disc.secMem).blockLen.toNat 0 (chunksOf w.disc.secMem).blockSize
        (readStep env method w (sectorNo + cnt * w.disc.secMem)).1 = (w', true) ∧
      misplaced (w'.buf.advance (cnt * (2064 * w.disc.secMem)).toNat)
        (sectorNo + cnt * w.disc.secMem) = false := by
  unfold streamStep at done
  dsimp only at done
  rw [readStep_out, if_pos (Int.le_refl 0)] at done
  rcases dump : dumpChunks env (chunksOf w.disc.secMem) (cnt * (2064 * w.disc.secMem))
    (chunksOf w.disc.secMem).blockLen.toNat 0 (chunksOf w.disc.secMem).blockSize
    (readStep env method w (sectorNo + cnt * w.disc.secMem)).1 with ⟨w₁, out⟩
  rw [dump] at done
  cases out with
  | false => cases done
  | true =>
      cases wrong : misplaced (w₁.buf.advance (cnt * (2064 * w.disc.secMem)).toNat)
          (sectorNo + cnt * w.disc.secMem) with
      | true =>
          simp only [wrong, Bool.not_true, Bool.false_eq_true, if_false, if_true] at done
          cases done
      | false =>
          simp only [wrong, Bool.not_true, Bool.false_eq_true, if_false] at done
          cases done
          exact ⟨rfl, wrong⟩

theorem stepPosition {cnt m : UInt32} (early : cnt.toNat ≤ 15) (upper : m.toNat ≤ 100) :
    (cnt * (2064 * m)).toNat = cnt.toNat * (2064 * m.toNat) := by
  have product := Nat.mul_le_mul early (Nat.mul_le_mul_left 2064 upper)
  have step : (2064 * m).toNat = 2064 * m.toNat := by
    rw [UInt32.toNat_mul]
    simp only [UInt32.reduceToNat]
    omega
  rw [UInt32.toNat_mul, step]
  omega

theorem streamStep_dumped {method : Nat} {sectorNo cnt : UInt32} {place : UInt32 → UInt32}
    (ranged : Ranged w.disc) (early : cnt.toNat ≤ 15) (rule : DumpRule Shown)
    (promises : Promises env w.disc.dvd.memdump lba Shown)
    (seeks : Seeks env lba place)
    (done : streamStep env method sectorNo cnt w = (w', true)) :
    (∀ a < cnt.toNat * (2064 * w.disc.secMem.toNat), w'.buf a = w.buf a) ∧
      StepDumped Shown (place (sectorNo + cnt * w.disc.secMem)) (sectorNo + cnt * w.disc.secMem)
        w.disc.secMem (w'.buf.advance (cnt.toNat * (2064 * w.disc.secMem.toNat))) := by
  obtain ⟨dump, inPlace⟩ := streamStep_done done
  have read := (Quiet.frame env).readStep method w (sectorNo + cnt * w.disc.secMem)
  have sameBuf := readStep_buf env method w (sectorNo + cnt * w.disc.secMem)
  have sought := readStep_lba seeks method w (sectorNo + cnt * w.disc.secMem)
  have sameDrive : (readStep env method w (sectorNo + cnt * w.disc.secMem)).1.disc.dvd =
      w.disc.dvd := by
    rw [read.disc]
  generalize (readStep env method w (sectorNo + cnt * w.disc.secMem)).1 = r
    at dump sameBuf sought sameDrive
  have upper := ranged.upper
  have position := stepPosition early upper
  have cut : (chunksOf w.disc.secMem).blockLen.toNat ≤ 4 ∧
      (chunksOf w.disc.secMem).blockSize.toNat ≤ 55728 := by
    obtain ⟨single, _, size⟩ | ⟨_, few, _, size, _⟩ := chunksOf_cases ranged.lower upper
    · omega
    · omega
  have room : (cnt * (2064 * w.disc.secMem)).toNat + 4 * 55728 < 2 ^ 32 := by
    rw [position]
    have product := Nat.mul_le_mul early (Nat.mul_le_mul_left 2064 upper)
    omega
  rw [← sameDrive] at promises
  obtain ⟨frame, shown⟩ := dumpChunks_shown rule promises cut.2 cut.1 room (Nat.zero_add _) dump
  rw [position] at frame shown inPlace
  refine ⟨fun a below => ?_, inPlace, fun j inside => ?_⟩
  · rw [← sameBuf]
    exact frame a (Nat.lt_of_lt_of_le below (Nat.le_add_right _ _))
  · rw [← sought]
    refine rule.congr (fun i _ => ?_)
      (rule.shorter (Nat.min_le_left _ _) (shown j (Nat.zero_le j) inside))
    simp only [Buffer.advance_apply, Nat.add_assoc]

theorem streamLoop_dumped {method left : Nat} {sectorNo cnt cnt' : UInt32}
    {place : UInt32 → UInt32} (ranged : Ranged w.disc) (early : cnt.toNat + left ≤ 16)
    (rule : DumpRule Shown) (promises : Promises env w.disc.dvd.memdump lba Shown)
    (seeks : Seeks env lba place)
    (done : streamLoop env method sectorNo left cnt w = (w', true, cnt')) :
    (∀ a < cnt.toNat * (2064 * w.disc.secMem.toNat), w'.buf a = w.buf a) ∧
      ∀ c, cnt.toNat ≤ c → c < cnt.toNat + left →
        StepDumped Shown (place (sectorNo + c.toUInt32 * w.disc.secMem))
          (sectorNo + c.toUInt32 * w.disc.secMem) w.disc.secMem
          (w'.buf.advance (c * (2064 * w.disc.secMem.toNat))) := by
  induction left generalizing cnt w with
  | zero =>
      cases done
      exact ⟨fun _ _ => rfl, fun c lower upper => absurd upper (Nat.not_lt.mpr lower)⟩
  | succ left ih =>
      have quiet := (Quiet.frame env).streamStep method sectorNo cnt w
      rw [streamLoop] at done
      rcases stepped : streamStep env method sectorNo cnt w with ⟨w₁, out⟩
      rw [stepped] at done quiet
      cases out with
      | false => cases done
      | true =>
          obtain ⟨frame, dumped⟩ :=
            streamStep_dumped ranged (by omega) rule promises seeks stepped
          have sameDisc : w₁.disc.secMem = w.disc.secMem ∧ w₁.disc.dvd = w.disc.dvd := by
            rw [quiet.disc]
            exact ⟨rfl, rfl⟩
          have ranged₁ : Ranged w₁.disc := quiet.ranged ranged
          have next : (cnt + 1).toNat = cnt.toNat + 1 := toNat_add_one (by omega)
          rw [← sameDisc.2] at promises
          obtain ⟨frame', dumped'⟩ := ih ranged₁ (by omega) promises done
          rw [sameDisc.1, next] at frame' dumped'
          constructor
          · intro a below
            rw [frame' a (Nat.lt_of_lt_of_le below (Nat.mul_le_mul_right _ (Nat.le_succ _)))]
            exact frame a below
          · intro c lower upper
            obtain rfl | later := Nat.eq_or_lt_of_le lower
            · rw [Nat.toUInt32_eq, UInt32.ofNat_toNat]
              refine dumped.congr rule (Nat.lt_of_lt_of_le (by decide) ranged.lower) fun i below => ?_
              exact frame' _ (Buffer.position_lt (Nat.lt_succ_self _) below)
            · exact dumped' c later (by omega)

theorem streamLoop_byte {Byte : UInt32 → Nat → Nat → UInt8 → Prop} {method : Nat}
    {sectorNo cnt : UInt32} {place : UInt32 → UInt32} (ranged : Ranged w.disc)
    (promises : Promises env w.disc.dvd.memdump lba (Bytewise Byte)) (seeks : Seeks env lba place)
    (loop : streamLoop env method sectorNo (w.disc.maxCnt.toNat + 1) 0 w = (w', true, cnt))
    {q a : Nat} (inside : q < w.disc.secMem.toNat * (w.disc.maxCnt.toNat + 1)) (below : a < 2064) :
    Byte (place (sectorNo + (q / w.disc.secMem.toNat).toUInt32 * w.disc.secMem))
      (q % w.disc.secMem.toNat / 27 * 55728) (2064 * (q % w.disc.secMem.toNat % 27) + a)
      (w'.buf (2064 * q + a)) := by
  have bound : (0 : UInt32).toNat + (w.disc.maxCnt.toNat + 1) ≤ 16 := by
    have rounds := ranged.rounds
    simp only [UInt32.reduceToNat]
    omega
  obtain ⟨_, dumped⟩ := streamLoop_dumped ranged bound (bytewise_rule Byte) promises seeks loop
  have positive : 0 < w.disc.secMem.toNat := Nat.lt_of_lt_of_le (by decide) ranged.lower
  have early : q / w.disc.secMem.toNat < w.disc.maxCnt.toNat + 1 := Nat.div_lt_of_lt_mul inside
  have step := dumped (q / w.disc.secMem.toNat) (Nat.zero_le _)
    (Nat.lt_of_lt_of_eq early (Nat.zero_add _).symm)
  have byte := step.byte ranged.lower ranged.upper (Nat.mod_lt q positive) below
  have split := Nat.div_add_mod q w.disc.secMem.toNat
  have position : q / w.disc.secMem.toNat * (2064 * w.disc.secMem.toNat) +
      (2064 * (q % w.disc.secMem.toNat) + a) = 2064 * q + a := by
    rw [Nat.mul_left_comm, Nat.mul_comm (q / _), ← Nat.add_assoc, ← Nat.mul_add, split]
  rw [Buffer.advance_apply, position] at byte
  exact byte

/-! ## The unscrambler stays out of it -/

theorem sameSeeds_frame (env : Env σ) : ReadFrame env fun w w' => w'.disc.u = w.disc.u where
  refl _ := rfl
  trans first second := second.trans first
  command _ _ := rfl
  memdump _ _ _ _ := rfl
  withBuf _ _ := rfl
  withBufUnscrambled _ _ := rfl

/-! ## The read of one block -/

theorem simpleDump_dumped {sectorNo : UInt32} {place : UInt32 → UInt32}
    (promises : Promises env w.disc.dvd.memdump lba Shown) (seeks : Seeks env lba place)
    (done : simpleDump env sectorNo w = (w', true)) :
    misplaced w'.buf sectorNo = false ∧ Shown (place sectorNo) 0 33024 w'.buf := by
  have before := ((Quiet.frame env).readDistant w sectorNo).trans
    ((Quiet.frame env).flushCache (readDistant env w sectorNo) sectorNo)
  unfold simpleDump at done
  extract_lets distant flushed executed driven dumped dumpedWorld at done
  have read : executed.out = 0 := dvdReadSectorDummy_out ..
  have sought : lba driven.drive = place sectorNo := seeks _ _ _ rfl rfl
  have quiet : Quiet w driven := before.trans (.withDrive flushed _)
  rw [if_pos (Int.le_of_eq read.symm)] at done
  clear_value driven
  have sameDrive : driven.disc.dvd = w.disc.dvd := by
    rw [quiet.disc]
  rw [← sameDrive] at promises
  have promised := promises driven.drive 0 33024 driven.buf
  rw [sought] at promised
  split at done
  · exact absurd (Prod.mk.inj done).2 Bool.false_ne_true
  · rename_i succeeded
    split at done
    · exact absurd (Prod.mk.inj done).2 Bool.false_ne_true
    · rename_i inPlace
      rw [← (Prod.mk.inj done).1]
      exact ⟨Bool.eq_false_iff.mpr inPlace, (promised (Int.not_lt.mp succeeded)).2⟩

end Dump

end Friidump
