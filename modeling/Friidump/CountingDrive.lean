import Friidump.CacheValidity
import Friidump.FileUnscrambling
import Friidump.SequenceCheck

/-!
# A drive that counts

Its sectors are plain and numbered from the address of the last READ on; what
lies behind the start of its memory can be shifted. Every pass over it succeeds.
-/

set_option autoImplicit false

namespace Friidump

/-! ## Numbered sectors -/

def numberedHeader (number : UInt32) : Buffer := fun i =>
  if i = 1 then (number >>> 16).toUInt8 else if i = 2 then (number >>> 8).toUInt8
  else if i = 3 then number.toUInt8 else 0

def numberedSector (number : UInt32) : Buffer := plainSector (numberedHeader number)

theorem sectorNumber_numberedHeader {number : UInt32} (small : number.toNat < 2 ^ 24) :
    sectorNumber (numberedHeader number) = number := by
  apply UInt32.toNat_inj.mp
  simp only [sectorNumber, numberedHeader, if_true, UInt32.toNat_add, UInt32.toNat_shiftLeft,
    UInt32.toNat_shiftRight, UInt32.toNat_toUInt8, UInt8.toNat_toUInt32, Nat.shiftLeft_eq,
    Nat.shiftRight_eq_div_pow, UInt32.reduceToNat, Nat.reduceMod, Nat.reducePow, Nat.reduceEqDiff,
    if_false]
  omega

theorem sectorNumber_numberedSector {number : UInt32} (small : number.toNat < 2 ^ 24) :
    sectorNumber (numberedSector number) = number := by
  refine (sectorNumber_congr fun i below => ?_).trans (sectorNumber_numberedHeader small)
  exact plainSector_apply _ (Nat.lt_trans below (by decide))

theorem numberedSector_layer (number : UInt32) : numberedSector number 0 &&& 1 = 0 := by
  rw [numberedSector, plainSector_apply _ (by decide)]
  exact UInt8.zero_and

theorem sectorSyndrome_numberedSector (number : UInt32) :
    sectorSyndrome (numberedSector number) = 0 :=
  sectorSyndrome_plainSector _

/-! ## The drive -/

def wordOf (bytes : List UInt8) : UInt32 :=
  bytes.foldl (fun word byte => (word <<< 8) + byte.toUInt32) 0

private theorem msbToLsb_bytes (word : UInt32) : msbToLsb word =
    [(word >>> 24).toUInt8, (word >>> 16).toUInt8, (word >>> 8).toUInt8, word.toUInt8] := by
  have byte : ∀ k, word.toNat &&& (255 <<< k) = (word.toNat >>> k % 256) <<< k :=
    Buffer.and_byte_mask word.toNat
  have low := byte 0
  have second := byte 8
  have third := byte 16
  have top := byte 24
  simp only [Nat.shiftLeft_eq, Nat.shiftRight_eq_div_pow, Nat.reduceMul, Nat.reducePow, Nat.mul_one,
    Nat.div_one] at low second third top
  simp only [msbToLsb, List.cons.injEq, and_true]
  refine ⟨?_, ?_, ?_, ?_⟩ <;> apply UInt8.toNat_inj.mp <;>
    simp only [UInt32.toNat_toUInt8, UInt32.toNat_and, UInt32.toNat_shiftRight, UInt32.reduceToNat,
      Nat.shiftRight_eq_div_pow, Nat.reduceMod, Nat.reducePow, low, second, third, top] <;> omega

theorem wordOf_msbToLsb (word : UInt32) : wordOf (msbToLsb word) = word := by
  have below := word.toNat_lt
  rw [msbToLsb_bytes]
  apply UInt32.toNat_inj.mp
  simp only [wordOf, List.foldl, UInt32.toNat_add, UInt32.toNat_shiftLeft, UInt32.toNat_shiftRight,
    UInt32.toNat_toUInt8, UInt8.toNat_toUInt32, Nat.shiftLeft_eq, Nat.shiftRight_eq_div_pow,
    UInt32.reduceToNat, Nat.reduceMod, Nat.reducePow]
  omega

theorem wordOf_msbToLsb_low (word : UInt32) :
    (wordOf ((msbToLsb word).drop 1)).toNat = word.toNat % 2 ^ 24 := by
  rw [msbToLsb_bytes]
  simp only [wordOf, List.drop, List.foldl, UInt32.toNat_add, UInt32.toNat_shiftLeft,
    UInt32.toNat_shiftRight, UInt32.toNat_toUInt8, UInt8.toNat_toUInt32, Nat.shiftLeft_eq,
    Nat.shiftRight_eq_div_pow, UInt32.reduceToNat, Nat.reduceMod, Nat.reducePow]
  omega

theorem wordOf_msbToLsb_drop {word : UInt32} (small : word.toNat < 2 ^ 24) :
    wordOf ((msbToLsb word).drop 1) = word :=
  UInt32.toNat_inj.mp ((wordOf_msbToLsb_low word).trans (Nat.mod_eq_of_lt small))

/-- The number of a sector that a dump from sector `start` of the memory begins with. -/
def countedNumber (shift lba : UInt32) (start : Nat) : UInt32 :=
  0x30000 + lba + start.toUInt32 + (if start = 0 then 0 else shift)

/-- The state is the address of the last READ. -/
def countingEnv (shift : UInt32) : Env UInt32 where
  ioctl lba mmc :=
    if mmc.cmd.head? = some 0xA8 then
      (wordOf ((mmc.cmd.drop 2).take 4),
        { failed := false, transferred := 0, data := fun _ => 0, sense := ⟨0, 0, 0⟩ })
    else
      let start := (wordOf ((mmc.cmd.drop 3).take 3)).toNat / 2064
      (lba,
        { failed := false
          transferred := mmc.buflen
          data := fun a => numberedSector (countedNumber shift lba start + (a / 2064).toUInt32) (a % 2064)
          sense := ⟨0, 0, 0⟩ })
  stack _ _ := fun _ => 0
  rsDecode := id

theorem countingEnv_layerZero (shift : UInt32) (drive : UInt32) (mmc : MmcCommand) (i : Nat) :
    ((countingEnv shift).ioctl drive mmc).2.data (2064 * i) &&& 1 = 0 := by
  unfold countingEnv
  dsimp only
  split
  · exact UInt8.zero_and
  · dsimp only
    rw [Nat.mul_mod_right]
    exact numberedSector_layer _

theorem countingEnv_seeks (shift : UInt32) : Seeks (countingEnv shift) id id := by
  intro drive mmc sector read address
  unfold countingEnv
  dsimp only
  rw [if_pos read, address]
  exact wordOf_msbToLsb sector

/-! ## Its dumps -/

def CountedByte (shift lba : UInt32) (offset a : Nat) (byte : UInt8) : Prop :=
  offset < 2 ^ 24 →
    byte = numberedSector (countedNumber shift lba (offset / 2064) + (a / 2064).toUInt32) (a % 2064)

section Dumps

variable {shift lba offset size : UInt32}

private theorem vanilla2064_memdump {σ : Type} (env : Env σ) (drive : σ) (offset size : UInt32)
    (buf : Buffer) : dvdMemdump env .vanilla2064 drive offset 1 size buf =
      vanilla2064DvdDumpMemblock env drive offset size buf := by
  rw [dvdMemdump_one, MemdumpFunc.base, UInt32.zero_add, MemdumpFunc.memblock]
  exact nofun

private def dumpCommand (offset size : UInt32) (buf : Buffer) : MmcCommand :=
  dvdInitCommand ([0x3C, 0x02, 0x00] ++ (msbToLsb offset).drop 1 ++ (msbToLsb size).drop 1 ++
    [0, 0, 0]) buf size.toNat

private theorem dumpCommand_other (offset size : UInt32) (buf : Buffer) :
    (dumpCommand offset size buf).cmd.head? ≠ some 0xA8 := by
  have head : (dumpCommand offset size buf).cmd.head? = some 0x3C := rfl
  rw [head]
  decide

private theorem countingEnv_ioctl (shift lba offset size : UInt32) (buf : Buffer) :
    (countingEnv shift).ioctl lba (dumpCommand offset size buf) =
      (lba, { failed := false, transferred := size.toNat, sense := ⟨0, 0, 0⟩
              data := fun a => numberedSector (countedNumber shift lba
                ((wordOf (((dumpCommand offset size buf).cmd.drop 3).take 3)).toNat / 2064) +
                  (a / 2064).toUInt32) (a % 2064) }) := by
  unfold countingEnv
  dsimp only
  rw [if_neg (dumpCommand_other offset size buf)]
  rfl

private theorem countingEnv_executed (shift lba : UInt32) {offset : UInt32} (size : UInt32)
    (fits : offset.toNat < 2 ^ 24) (buf : Buffer) :
    (dvdExecuteCmd (countingEnv shift) lba (dumpCommand offset size buf) false).out = 0 ∧
      ∀ a < size.toNat,
        (dvdExecuteCmd (countingEnv shift) lba (dumpCommand offset size buf) false).buffer a =
          numberedSector (countedNumber shift lba (offset.toNat / 2064) + (a / 2064).toUInt32)
            (a % 2064) := by
  have address : wordOf (((dumpCommand offset size buf).cmd.drop 3).take 3) = offset :=
    wordOf_msbToLsb_drop fits
  rw [dvdExecuteCmd, countingEnv_ioctl, address]
  refine ⟨rfl, fun a below => ?_⟩
  exact Buffer.memcpy_inside _ _ (Nat.zero_le a)
    ((Nat.zero_add _).symm ▸ (Nat.min_self size.toNat).symm ▸ below)

theorem countingEnv_promises (shift : UInt32) :
    Promises (countingEnv shift) .vanilla2064 id (Bytewise (CountedByte shift)) := by
  intro drive offset size buf succeeded
  rw [vanilla2064_memdump] at succeeded ⊢
  obtain ⟨kept, same, _⟩ := sequencedDump_succeeded succeeded
  constructor
  · have stays := congrArg Prod.fst (countingEnv_ioctl shift drive offset size buf)
    exact kept.trans stays
  · intro i below fits
    exact (congrFun same i).trans ((countingEnv_executed shift drive size fits buf).2 i below)

private theorem shown_number {number : UInt32} {length i : Nat} {bytes : Buffer}
    (shown : ∀ a < length, bytes a = numberedSector (number + (a / 2064).toUInt32) (a % 2064))
    (small : number.toNat + 32 < 2 ^ 24) (near : i < 32) (inside : 2064 * i + 2064 ≤ length) :
    sectorNumber (bytes.advance (2064 * i)) = number + i.toUInt32 := by
  have here : ∀ k < 4, bytes.advance (2064 * i) k = numberedSector (number + i.toUInt32) k := by
    intro k below
    have quotient : (2064 * i + k) / 2064 = i := by omega
    have remainder : (2064 * i + k) % 2064 = k := by omega
    rw [Buffer.advance_apply, shown _ (by omega), quotient, remainder]
  have value : i.toUInt32.toNat = i := Nat.mod_eq_of_lt (Nat.lt_trans near (by decide))
  rw [sectorNumber_congr here, sectorNumber_numberedSector]
  rw [UInt32.toNat_add, value]
  omega

theorem countingEnv_dump (fits : offset.toNat < 2 ^ 24) (positive : 0 < size.toNat)
    (small : size.toNat ≤ 65535) (whole : size.toNat % 2064 = 0)
    (counted : (countedNumber shift lba (offset.toNat / 2064)).toNat + 32 < 2 ^ 24) (buf : Buffer) :
    (dvdMemdump (countingEnv shift) .vanilla2064 lba offset 1 size buf).out = 0 := by
  have accepted : ¬ (size = 0 ∨ 65535 < size) := by
    rintro (zero | large)
    · rw [zero] at positive
      exact absurd positive (by decide)
    · exact absurd (UInt32.lt_iff_toNat_lt.mp large) (Nat.not_lt.mpr small)
  obtain ⟨out, shown⟩ := countingEnv_executed shift lba size fits buf
  have passes : checkSequence ((size.toNat + 2063) / 2064) 0 0x55555555 0
      (dvdExecuteCmd (countingEnv shift) lba (dumpCommand offset size buf) false).buffer =
      (true, (dvdExecuteCmd (countingEnv shift) lba (dumpCommand offset size buf) false).buffer) := by
    refine checkSequence_passes fun i inside => ?_
    have first := @shown_number _ _ 0 _ shown counted (by decide) (by omega)
    rw [Nat.mul_zero, Buffer.advance_zero] at first
    rw [shown_number shown counted (by omega) (by omega), first]
    exact congrArg (· + i.toUInt32) (UInt32.add_zero _).symm
  rw [vanilla2064_memdump, vanilla2064DvdDumpMemblock, sequencedDumpMemblock, if_neg accepted]
  dsimp only [dumpCommand] at passes out ⊢
  rw [passes, out]
  rfl

end Dumps

/-! ## Its passes -/

section Passes

variable {shift lba position blockCnt size sectorNo cnt : UInt32} {w : World UInt32}

private theorem countedNumber_fits {start : Nat} (near : lba.toNat ≤ 65536) (step : shift.toNat ≤ 1)
    (early : start ≤ 128) : (countedNumber shift lba start).toNat + 32 < 2 ^ 24 := by
  have shifted : (if start = 0 then 0 else shift : UInt32).toNat ≤ 1 := by
    split
    · exact Nat.zero_le 1
    · exact step
  rw [countedNumber]
  generalize (if start = 0 then 0 else shift : UInt32) = extra at shifted
  have value : start.toUInt32.toNat = start := Nat.mod_eq_of_lt (by omega)
  simp only [UInt32.toNat_add, value, UInt32.reduceToNat]
  omega

private theorem countingEnv_dumpChunks {chunks : Chunks} {left : Nat}
    (vanilla : w.disc.dvd.memdump = .vanilla2064) (near : w.drive.toNat ≤ 65536)
    (step : shift.toNat ≤ 1) (positive : 0 < size.toNat) (small : size.toNat ≤ 55728)
    (whole : size.toNat % 2064 = 0) (few : chunks.blockLen.toNat ≤ 4)
    (rest : blockCnt.toNat + left = chunks.blockLen.toNat) :
    (dumpChunks (countingEnv shift) chunks position left blockCnt size w).2 = true := by
  induction left generalizing blockCnt w with
  | zero => rfl
  | succ left ih =>
      have offset := chunkOffset (by omega : blockCnt.toNat ≤ 4)
      have start : (blockCnt * 27 * 2064).toNat / 2064 ≤ 128 := by omega
      have next : (blockCnt + 1).toNat = blockCnt.toNat + 1 := toNat_add_one (by omega)
      have success := @countingEnv_dump shift w.drive (blockCnt * 27 * 2064) size (by omega) positive
        (by omega) whole (countedNumber_fits near step start)
        (w.buf.advance (position + blockCnt * 27 * 2064).toNat)
      rw [← vanilla] at success
      rw [dumpChunks_succ rest, if_neg (Int.not_lt.mpr (Int.le_of_eq success.symm))]
      have promises := countingEnv_promises shift
      rw [← vanilla] at promises
      have stays : (dumpedWorld (countingEnv shift) w position blockCnt size).drive = w.drive :=
        (promises _ _ _ _ (Int.le_of_eq success.symm)).1
      exact ih vanilla (stays.symm ▸ near) (by omega)

private theorem chunksOf_fits {m : UInt32} (lower : 16 ≤ m.toNat) (upper : m.toNat ≤ 100) :
    (chunksOf m).blockLen.toNat ≤ 4 ∧ 0 < (chunksOf m).blockSize.toNat ∧
      (chunksOf m).blockSize.toNat ≤ 55728 ∧ (chunksOf m).blockSize.toNat % 2064 = 0 ∧
      0 < (chunksOf m).blockLen.toNat := by
  obtain ⟨one, single, size⟩ | ⟨some, few, _, size, _⟩ := chunksOf_cases lower upper
  · omega
  · omega

private theorem misplaced_counted {bytes : Buffer} {sector : UInt32}
    (number : sectorNumber bytes = 0x30000 + sector) : misplaced bytes sector = false := by
  rw [misplaced, number]
  simp

private theorem countingEnv_streamStep {method : Nat} (vanilla : w.disc.dvd.memdump = .vanilla2064)
    (ranged : Ranged w.disc) (near : (sectorNo + cnt * w.disc.secMem).toNat ≤ 65536)
    (step : shift.toNat ≤ 1) (early : cnt.toNat ≤ 15) :
    (streamStep (countingEnv shift) method sectorNo cnt w).2 = true := by
  have read := (Quiet.frame (countingEnv shift)).readStep method w (sectorNo + cnt * w.disc.secMem)
  have sought : (readStep (countingEnv shift) method w (sectorNo + cnt * w.disc.secMem)).1.drive =
      sectorNo + cnt * w.disc.secMem := readStep_lba (countingEnv_seeks shift) method w _
  have sameDrive : (readStep (countingEnv shift) method w
      (sectorNo + cnt * w.disc.secMem)).1.disc.dvd = w.disc.dvd := by
    rw [read.disc]
  unfold streamStep
  dsimp only
  rw [readStep_out, if_pos (Int.le_refl 0)]
  generalize (readStep (countingEnv shift) method w (sectorNo + cnt * w.disc.secMem)).1 = r
    at sought sameDrive
  obtain ⟨few, positive, small, whole, some⟩ := chunksOf_fits ranged.lower ranged.upper
  rw [← sameDrive] at vanilla
  have success : (dumpChunks (countingEnv shift) (chunksOf w.disc.secMem)
      (cnt * (2064 * w.disc.secMem)) (chunksOf w.disc.secMem).blockLen.toNat 0
      (chunksOf w.disc.secMem).blockSize r).2 = true :=
    countingEnv_dumpChunks vanilla (sought.symm ▸ near) step positive small whole few
      (Nat.zero_add _)
  rcases dump : dumpChunks (countingEnv shift) (chunksOf w.disc.secMem)
    (cnt * (2064 * w.disc.secMem)) (chunksOf w.disc.secMem).blockLen.toNat 0
    (chunksOf w.disc.secMem).blockSize r with ⟨w', out⟩
  rw [dump] at success
  cases success
  have promises := countingEnv_promises shift
  rw [← vanilla] at promises
  have room : (cnt * (2064 * w.disc.secMem)).toNat + 4 * 55728 < 2 ^ 32 := by
    rw [stepPosition early ranged.upper]
    have product := Nat.mul_le_mul early (Nat.mul_le_mul_left 2064 ranged.upper)
    omega
  obtain ⟨_, shown⟩ := dumpChunks_shown (bytewise_rule _) promises small few room
    (Nat.zero_add _) dump
  -- The first sector of the step has the number of the address.
  have first := shown 0 (Nat.le_refl 0) some
  rw [Nat.zero_mul, Nat.add_zero, sought] at first
  have bytes := fun a below => first a below (by decide)
  have fits : (countedNumber shift (sectorNo + cnt * w.disc.secMem) (0 / 2064)).toNat + 32 < 2 ^ 24 :=
    countedNumber_fits near step (by decide)
  have number := shown_number bytes fits (by decide : 0 < 32) (by omega)
  rw [Nat.mul_zero, Buffer.advance_zero] at number
  have placed : misplaced (w'.buf.advance (cnt * (2064 * w.disc.secMem)).toNat)
      (sectorNo + cnt * w.disc.secMem) = false := by
    refine misplaced_counted (number.trans ?_)
    rw [countedNumber]
    grind
  dsimp only
  rw [Bool.not_true, if_neg Bool.false_ne_true, placed, if_neg Bool.false_ne_true]

private theorem address_near {m c : UInt32} (near : sectorNo.toNat ≤ 32768) (early : c.toNat ≤ 15)
    (upper : m.toNat ≤ 100) : (sectorNo + c * m).toNat ≤ 65536 := by
  have product := Nat.mul_le_mul early upper
  rw [UInt32.toNat_add, UInt32.toNat_mul]
  omega

private theorem countingEnv_streamLoop {method left : Nat}
    (vanilla : w.disc.dvd.memdump = .vanilla2064) (ranged : Ranged w.disc)
    (near : sectorNo.toNat ≤ 32768) (step : shift.toNat ≤ 1) (early : cnt.toNat + left ≤ 16) :
    ∃ w', streamLoop (countingEnv shift) method sectorNo left cnt w =
      (w', true, cnt + left.toUInt32) := by
  induction left generalizing cnt w with
  | zero => exact ⟨w, by rw [streamLoop]; simp⟩
  | succ left ih =>
      have quiet := (Quiet.frame (countingEnv shift)).streamStep method sectorNo cnt w
      have success : (streamStep (countingEnv shift) method sectorNo cnt w).2 = true :=
        countingEnv_streamStep vanilla ranged (address_near near (by omega) ranged.upper) step
          (by omega)
      rcases stepped : streamStep (countingEnv shift) method sectorNo cnt w with ⟨w₁, out⟩
      rw [stepped] at quiet success
      cases success
      have next : (cnt + 1).toNat = cnt.toNat + 1 := toNat_add_one (by omega)
      have vanilla₁ : w₁.disc.dvd.memdump = .vanilla2064 := by
        rw [quiet.disc]
        exact vanilla
      have ranged₁ : Ranged w₁.disc := quiet.ranged ranged
      obtain ⟨w', looped⟩ := @ih (cnt + 1) w₁ vanilla₁ ranged₁ (by omega)
      have count : cnt + 1 + left.toUInt32 = cnt + (left + 1).toUInt32 := by
        rw [toUInt32_succ]
        grind
      rw [count] at looped
      exact ⟨w', by rw [streamLoop, stepped]; exact looped⟩

/-- Within a step the shift sets in with the second chunk. -/
def stepNumber (shift lba : UInt32) (i : Nat) : UInt32 :=
  0x30000 + lba + i.toUInt32 + if i < 27 then 0 else shift

private theorem stepNumber_chunk (shift lba : UInt32) (i : Nat) :
    countedNumber shift lba (27 * (i / 27)) + (i % 27).toUInt32 = stepNumber shift lba i := by
  have split : i.toUInt32 = (27 * (i / 27)).toUInt32 + (i % 27).toUInt32 := by
    have parts := UInt32.ofNat_add (27 * (i / 27)) (i % 27)
    rw [Nat.div_add_mod] at parts
    exact parts
  have later : (if 27 * (i / 27) = 0 then 0 else shift) = if i < 27 then 0 else shift :=
    if_congr (by omega) rfl rfl
  rw [countedNumber, stepNumber, later, split]
  grind

/-- The numbers that a whole pass with steps of `m` sectors sees. -/
def passNumber (shift : UInt32) (m : Nat) (sectorNo : UInt32) (q : Nat) : UInt32 :=
  0x30000 + sectorNo + q.toUInt32 + if q % m < 27 then 0 else shift

private theorem passNumber_fits {m q : Nat} (near : sectorNo.toNat ≤ 32768)
    (step : shift.toNat ≤ 1) (few : q ≤ 1600) : (passNumber shift m sectorNo q).toNat < 2 ^ 24 := by
  have shifted : (if q % m < 27 then 0 else shift : UInt32).toNat ≤ 1 := by
    split
    · exact Nat.zero_le 1
    · exact step
  rw [passNumber]
  generalize (if q % m < 27 then 0 else shift : UInt32) = extra at shifted
  have value : q.toUInt32.toNat = q := Nat.mod_eq_of_lt (by omega)
  simp only [UInt32.toNat_add, value, UInt32.reduceToNat]
  omega

theorem countingEnv_pass {method : Nat} (vanilla : w.disc.dvd.memdump = .vanilla2064)
    (ranged : Ranged w.disc) (near : sectorNo.toNat ≤ 32768) (step : shift.toNat ≤ 1) :
    ∃ w' cnt, streamLoop (countingEnv shift) method sectorNo (w.disc.maxCnt.toNat + 1) 0 w =
      (w', true, cnt) ∧ w.disc.maxCnt < cnt := by
  have rounds := ranged.rounds
  obtain ⟨w', looped⟩ := @countingEnv_streamLoop shift sectorNo 0 w method (w.disc.maxCnt.toNat + 1)
    vanilla ranged near step (by simp only [UInt32.reduceToNat]; omega)
  refine ⟨w', _, looped, UInt32.lt_iff_toNat_lt.mpr ?_⟩
  have value : (w.disc.maxCnt.toNat + 1).toUInt32.toNat = w.disc.maxCnt.toNat + 1 :=
    Nat.mod_eq_of_lt (by omega)
  rw [UInt32.zero_add, value]
  exact Nat.lt_succ_self _

theorem countingEnv_numbered {method : Nat} (vanilla : w.disc.dvd.memdump = .vanilla2064)
    (ranged : Ranged w.disc) {w' : World UInt32}
    (loop : streamLoop (countingEnv shift) method sectorNo (w.disc.maxCnt.toNat + 1) 0 w =
      (w', true, cnt)) {q a : Nat} (inside : q < w.disc.secMem.toNat * (w.disc.maxCnt.toNat + 1))
    (below : a < 2064) :
    w'.buf (2064 * q + a) = numberedSector (passNumber shift w.disc.secMem.toNat sectorNo q) a := by
  have promises := countingEnv_promises shift
  rw [← vanilla] at promises
  have positive : 0 < w.disc.secMem.toNat := Nat.lt_of_lt_of_le (by decide) ranged.lower
  have within := Nat.mod_lt q positive
  have upper := ranged.upper
  have split := Nat.div_add_mod q w.disc.secMem.toNat
  have byte := streamLoop_byte ranged promises (countingEnv_seeks shift) loop inside below (by omega)
  have start : q % w.disc.secMem.toNat / 27 * 55728 / 2064 =
      27 * (q % w.disc.secMem.toNat / 27) := by omega
  have sector : (2064 * (q % w.disc.secMem.toNat % 27) + a) / 2064 =
      q % w.disc.secMem.toNat % 27 := by omega
  have place : (2064 * (q % w.disc.secMem.toNat % 27) + a) % 2064 = a := by omega
  rw [start, sector, place, stepNumber_chunk] at byte
  have number : stepNumber shift (sectorNo + (q / w.disc.secMem.toNat).toUInt32 * w.disc.secMem)
      (q % w.disc.secMem.toNat) = passNumber shift w.disc.secMem.toNat sectorNo q := by
    have parts : q.toUInt32 = w.disc.secMem * (q / w.disc.secMem.toNat).toUInt32 +
        (q % w.disc.secMem.toNat).toUInt32 := by
      have sum := UInt32.ofNat_add (w.disc.secMem.toNat * (q / w.disc.secMem.toNat))
        (q % w.disc.secMem.toNat)
      rw [split, UInt32.ofNat_mul, UInt32.ofNat_toNat] at sum
      exact sum
    rw [stepNumber, passNumber, parts]
    grind
  rw [id, number] at byte
  exact byte

/-! ## Its reads -/

private theorem unscrambleBlocks_passes {n : Nat} (seedless : Seedless w.disc.u)
    (passes : ∀ c < n, Passes (w.buf.advance (c * 33024))) :
    (unscrambleBlocks sectorNo n w true).2 = true ∧
      Seedless (unscrambleBlocks sectorNo n w true).1.disc.u := by
  induction n generalizing w with
  | zero => exact ⟨rfl, seedless⟩
  | succ n ih =>
      have block := passes n (Nat.lt_succ_self n)
      obtain ⟨shown, seedless'⟩ := seedless.unscramble ⟨w.disctype, sectorNo + n.toUInt32 * 16,
        w.buf.advance (n * 33024), w.bufUnscrambled.advance (n * 32768)⟩ block.accepts
      have success : (w.unscrambleBuf (sectorNo + n.toUInt32 * 16) n).2 = true :=
        (congrArg Frame.out shown).trans (block.out _ _)
      rw [unscrambleBlocks_succ, success, if_pos rfl]
      refine ih seedless' fun c below k inside => ?_
      rw [← passes c (Nat.lt_succ_of_lt below) k inside]
      refine sectorSyndrome_congr fun i early => ?_
      have within : 2064 * k + i < 33024 := by omega
      exact unscrambleAt_buf_outside seedless.formed (.inl (Buffer.position_lt below within))

theorem cacheBlocks_u {σ : Type} (startBlock : UInt32) (n : Nat) (w : World σ) :
    (cacheBlocks startBlock n w).disc.u = w.disc.u := by
  induction n generalizing w with
  | zero => rfl
  | succ n ih => exact ih _

def PassBlock (shift : UInt32) (m : Nat) (sectorNo : UInt32) (entry : CachedBlock) : Prop :=
  ∃ c < 100, entry.block = sectorNo / 16 + c.toUInt32 ∧
    ∀ k < 16, sectorNumber (entry.rawdata.advance (2064 * k)) = passNumber shift m sectorNo (16 * c + k)

private theorem countingEnv_unscrambled {method : Nat} (vanilla : w.disc.dvd.memdump = .vanilla2064)
    (ranged : Ranged w.disc) (near : sectorNo.toNat ≤ 32768) (step : shift.toNat ≤ 1)
    (seedless : Seedless w.disc.u) :
    ∃ w₁, streamingRead (countingEnv shift) method sectorNo w =
      (cacheBlocks (sectorNo / 16) w.disc.maxBlk.toNat w₁, true) ∧ Seedless w₁.disc.u := by
  have blocks := ranged.blocks
  obtain ⟨w₁, cnt, loop, late⟩ := countingEnv_pass vanilla ranged near step
  have same := (sameSeeds_frame (countingEnv shift)).streamLoop method sectorNo (w.disc.maxCnt.toNat + 1) 0 w
  rw [loop] at same
  obtain ⟨success, seedless'⟩ := @unscrambleBlocks_passes sectorNo w₁ w.disc.maxBlk.toNat
    (same.symm ▸ seedless) fun c below k inside => by
      have within : 16 * c + k < w.disc.secMem.toNat * (w.disc.maxCnt.toNat + 1) := by omega
      rw [← sectorSyndrome_numberedSector (passNumber shift w.disc.secMem.toNat sectorNo (16 * c + k))]
      refine sectorSyndrome_congr fun i early => ?_
      have position : c * 33024 + (2064 * k + i) = 2064 * (16 * c + k) + i := by omega
      rw [Buffer.advance_apply, Buffer.advance_apply, position]
      exact countingEnv_numbered vanilla ranged loop within early
  refine ⟨(unscrambleBlocks sectorNo w.disc.maxBlk.toNat w₁ true).1, ?_, seedless'⟩
  rw [streamingRead]
  dsimp only
  rw [loop]
  dsimp only
  rw [if_neg (UInt32.not_lt.mpr (UInt32.le_of_lt late)), success]
  rfl

theorem countingEnv_streamingRead {method : Nat} (vanilla : w.disc.dvd.memdump = .vanilla2064)
    (ranged : Ranged w.disc) (near : sectorNo.toNat ≤ 32768) (step : shift.toNat ≤ 1)
    (seedless : Seedless w.disc.u) :
    ∃ w₁, streamingRead (countingEnv shift) method sectorNo w =
      (cacheBlocks (sectorNo / 16) w.disc.maxBlk.toNat w₁, true) := by
  obtain ⟨w₁, ended, -⟩ := @countingEnv_unscrambled shift sectorNo w method vanilla ranged near step seedless
  exact ⟨w₁, ended⟩

/-- A read from this drive succeeds, and caches all blocks of the pass. -/
theorem countingEnv_read {method : Nat} (vanilla : w.disc.dvd.memdump = .vanilla2064)
    (ranged : Ranged w.disc) (near : sectorNo.toNat ≤ 32768) (step : shift.toNat ≤ 1)
    (seedless : Seedless w.disc.u) :
    ∃ w', discReadSectorGeneric (countingEnv shift) method sectorNo w = (w', true) ∧
      Extends (PassBlock shift w.disc.secMem.toNat sectorNo) w w' ∧
      ∀ c < w.disc.maxBlk.toNat, ∃ entry ∈ w'.added, entry.block = sectorNo / 16 + c.toUInt32 := by
  have blocks := ranged.blocks
  have sectors : w.disc.secMem.toNat * (w.disc.maxCnt.toNat + 1) ≤ 100 * 16 :=
    Nat.mul_le_mul ranged.upper (Nat.succ_le_succ ranged.rounds)
  obtain ⟨w₁, ended⟩ : ∃ w₁, streamingRead (countingEnv shift) method sectorNo w =
      (cacheBlocks (sectorNo / 16) w.disc.maxBlk.toNat w₁, true) :=
    countingEnv_streamingRead vanilla ranged near step seedless
  refine ⟨cacheBlocks (sectorNo / 16) w.disc.maxBlk.toNat w₁, ?_, ?_,
    fun c below => cacheBlocks_member _ below _⟩
  · unfold discReadSectorGeneric
    refine @retryLoop_first _ _ _ _ false ?_
    dsimp only
    rw [if_pos (by decide), ended]
  · have kept : Extends (PassBlock shift w.disc.secMem.toNat sectorNo) w
        (streamingRead (countingEnv shift) method sectorNo w).1 := by
      refine streamingRead_extends (countingEnv shift) seedless.formed
        fun w' cnt loop _ c below raw data j handed => ?_
      obtain ⟨early, small⟩ := w.disc.copyOffset_bounds
      refine ⟨c, by omega, rfl, fun k inside => ?_⟩
      have within : 16 * c + k < w.disc.secMem.toNat * (w.disc.maxCnt.toNat + 1) := by omega
      have few : 16 * c + k ≤ 1600 := by omega
      rw [handed.sectorNumber inside early small, ← sectorNumber_numberedSector
        (passNumber_fits near step few)]
      refine sectorNumber_congr fun i header => ?_
      have position : c * 33024 + (2064 * k + i) = 2064 * (16 * c + k) + i := by omega
      rw [Buffer.advance_apply, Buffer.advance_apply, position]
      exact countingEnv_numbered vanilla ranged loop within (by omega)
    rw [ended] at kept
    exact kept

/-- The seed cache never gets to know another seed than 0. -/
theorem countingEnv_seedless {method : Nat} (vanilla : w.disc.dvd.memdump = .vanilla2064)
    (ranged : Ranged w.disc) (near : sectorNo.toNat ≤ 32768) (step : shift.toNat ≤ 1)
    (seedless : Seedless w.disc.u) :
    Seedless (discReadSectorGeneric (countingEnv shift) method sectorNo w).1.disc.u := by
  obtain ⟨w₁, ended, kept⟩ := @countingEnv_unscrambled shift sectorNo w method vanilla ranged near step
    seedless
  have read : discReadSectorGeneric (countingEnv shift) method sectorNo w =
      (cacheBlocks (sectorNo / 16) w.disc.maxBlk.toNat w₁, true) := by
    unfold discReadSectorGeneric
    refine @retryLoop_first _ _ _ _ false ?_
    dsimp only
    rw [if_pos (by decide), ended]
  rw [read, cacheBlocks_u]
  exact kept

end Passes

end Friidump
