import Friidump.SeedCache

/-!
# Scrambled blocks

Blocks as a disc carries them: which of them the unscrambler takes, and what
it makes of them.
-/

set_option autoImplicit false

namespace Friidump

/-- `word` in big-endian order from the offset on. -/
def Buffer.storeWordBig (pointer : Buffer) (offset : Nat) (word : UInt32) : Buffer := fun i =>
  if offset ≤ i ∧ i < offset + 4 then
    ⟨(word.toBitVec >>> (24 - 8 * (i - offset))).setWidth 8⟩
  else pointer i

def plainSector (plain : Buffer) : Buffer :=
  plain.storeWordBig 2060 (edcCalc 0 (plain.bytes 2060))

/-- Bytes 12 to 2059 of all 16 sectors, scrambled with the stream of one seed. -/
def scrambledBlock (plain : Nat → Buffer) (seed : BitVec 15) : Buffer := fun a =>
  ((plainSector (plain (a / 2064))).xor (cipherPad (seedOf seed))) (a % 2064)

def corruptedBlock (block : Buffer) (sector : Nat) (pattern : Buffer) : Buffer := fun a =>
  if a / 2064 = sector then block a ^^^ pattern (a % 2064) else block a

/-! ## Plain sectors -/

private theorem loadWordBig_storeWordBig (pointer : Buffer) (offset : Nat) (word : UInt32) :
    ((pointer.storeWordBig offset word).advance offset).loadWordBig = word := by
  have byte : ∀ k < 4, ((pointer.storeWordBig offset word).advance offset k).toBitVec =
      (word.toBitVec >>> (24 - 8 * k)).setWidth 8 := by
    intro k inside
    rw [Buffer.advance_apply, Buffer.storeWordBig, if_pos (by omega), Nat.add_sub_cancel_left]
  have spread : ∀ i, (((pointer.storeWordBig offset word).advance offset).loadWordBig.toBitVec).getLsbD i =
      ((word.toBitVec >>> 24).setWidth 8 ++ (word.toBitVec >>> 16).setWidth 8 ++
        (word.toBitVec >>> 8).setWidth 8 ++ (word.toBitVec >>> 0).setWidth 8 :
          BitVec (8 + 8 + 8 + 8)).getLsbD i := by
    intro i
    rw [Buffer.loadWordBig, byte 0 (by decide), byte 1 (by decide), byte 2 (by decide),
      byte 3 (by decide)]
  apply UInt32.toBitVec_inj.mp
  apply BitVec.eq_of_getLsbD_eq
  intro i inside
  rw [spread]
  simp only [BitVec.getLsbD_append, BitVec.getLsbD_setWidth, BitVec.getLsbD_ushiftRight]
  by_cases first : i < 8
  · simp [first]
  · by_cases second : i - 8 < 8
    · have place : 8 + (i - 8) = i := by omega
      simp [first, second, place]
    · by_cases third : i - 8 - 8 < 8
      · have place : 16 + (i - 8 - 8) = i := by omega
        simp [first, second, third, place]
      · have last : i - 8 - 8 - 8 < 8 := by omega
        have place : 24 + (i - 8 - 8 - 8) = i := by omega
        simp [first, second, third, last, place]

theorem plainSector_apply (plain : Buffer) {i : Nat} (inside : i < 2060) :
    plainSector plain i = plain i :=
  if_neg fun field => Nat.not_lt.mpr field.1 inside

theorem sectorSyndrome_plainSector (plain : Buffer) : sectorSyndrome (plainSector plain) = 0 := by
  have kept : (plainSector plain).bytes 2060 = plain.bytes 2060 :=
    Buffer.bytes_congr fun i inside => plainSector_apply plain inside
  rw [sectorSyndrome_eq_zero_iff, kept, plainSector, loadWordBig_storeWordBig]

/-! ## Sectors of a scrambled block -/

private theorem sector_position {k i : Nat} (inside : i < 2064) :
    (2064 * k + i) / 2064 = k ∧ (2064 * k + i) % 2064 = i := by
  omega

private theorem decodedSector_scrambledBlock (plain : Nat → Buffer) (seed s : BitVec 15)
    (k : Nat) : ∀ i < 2064, decodedSector (scrambledBlock plain seed) (seedOf s) k i =
      ((plainSector (plain k)).xor (cipherPad (seedOf (seed ^^^ s)))) i := by
  intro i inside
  obtain ⟨quotient, offset⟩ := sector_position (k := k) inside
  rw [← cipherPad_xor]
  simp only [decodedSector, scrambledBlock, Buffer.xor, Buffer.advance_apply, quotient, offset,
    UInt8.xor_assoc]

theorem decodedSector_passes_iff (plain : Nat → Buffer) (seed s : BitVec 15) (k : Nat) :
    sectorSyndrome (decodedSector (scrambledBlock plain seed) (seedOf s) k) = 0 ↔ s = seed := by
  rw [sectorSyndrome_congr (decodedSector_scrambledBlock plain seed s k), sectorSyndrome_xor,
    sectorSyndrome_plainSector, UInt32.zero_xor, sectorSyndrome_cipherPad_eq_zero_iff,
    BitVec.xor_eq_zero_iff]
  exact eq_comm

/-- With the right seed the whole sector comes back. -/
theorem decodedSector_whole (plain : Nat → Buffer) (seed : BitVec 15) (k : Nat) {i : Nat}
    (inside : i < 2064) :
    decodedSector (scrambledBlock plain seed) (seedOf seed) k i = plainSector (plain k) i := by
  rw [decodedSector_scrambledBlock plain seed seed k i inside, BitVec.xor_self, Buffer.xor, cipherPad]
  have silent : lfsrStream (seedOf 0#15) (i - 12) = 0 := lfsrStream_zero _
  rw [silent, ite_self, UInt8.xor_zero]

theorem decodedSector_plain (plain : Nat → Buffer) (seed : BitVec 15) (k : Nat) {i : Nat}
    (inside : i < 2060) :
    decodedSector (scrambledBlock plain seed) (seedOf seed) k i = plain k i :=
  (decodedSector_whole plain seed k (Nat.lt_trans inside (by decide))).trans
    (plainSector_apply _ inside)

theorem accepts_scrambledBlock (plain : Nat → Buffer) (seed : BitVec 15) (j : Nat) :
    Accepts (scrambledBlock plain seed) j ↔ j < 0x7FFF ∧ j = seed.toNat := by
  refine and_congr_right fun small => ?_
  have wide : j < 0x8000 := Nat.lt_succ_of_lt small
  have first : (scrambledBlock plain seed).xor (cipherPad (seedOf (BitVec.ofNat 15 j))) =
      decodedSector (scrambledBlock plain seed) (seedOf (BitVec.ofNat 15 j)) 0 := by
    rw [decodedSector, Nat.mul_zero, Buffer.advance_zero]
  rw [testSeed_iff, toUInt16_eq_seedOf wide, first, decodedSector_passes_iff]
  constructor
  · rintro rfl
    rw [BitVec.toNat_ofNat, Nat.mod_eq_of_lt wide]
  · rintro rfl
    rw [BitVec.ofNat_toNat, BitVec.setWidth_eq]

theorem directFrame_scrambledBlock (disctype : UInt8) (plain : Nat → Buffer) {seed : BitVec 15}
    (searched : seed.toNat < 0x7FFF) (outbuf : Buffer) :
    directFrame disctype (scrambledBlock plain seed) outbuf =
      decodedFrame disctype (seedOf seed) (scrambledBlock plain seed) outbuf 16 := by
  rw [directFrame_of_accepts ((accepts_scrambledBlock plain seed _).mpr ⟨searched, rfl⟩),
    toUInt16_eq_seedOf seed.isLt, BitVec.ofNat_toNat, BitVec.setWidth_eq]

theorem directFrame_scrambledBlock_out (disctype : UInt8) (plain : Nat → Buffer) {seed : BitVec 15}
    (searched : seed.toNat < 0x7FFF) (outbuf : Buffer) :
    (directFrame disctype (scrambledBlock plain seed) outbuf).out = true := by
  rw [directFrame_scrambledBlock disctype plain searched, decodedFrame_out_iff]
  exact fun k _ => (decodedSector_passes_iff plain seed seed k).mpr rfl

/-! ## Unscrambling undoes scrambling -/

/-- The call succeeds with the 16 plain user data fields. -/
def RecoversUserData (disctype : UInt8) (plain : Nat → Buffer) (result : Unscrambled) : Prop :=
  result.out = true ∧ ∀ k < 16, ∀ i < 2048,
    result.outbuf (2048 * k + i) = plain k ((if disctype = 3 then 12 else 6) + i)

section Search

variable (memory : Unscrambler) (disctype : UInt8) (sectorNo : UInt32) (plain : Nat → Buffer)
  (outbuf : Buffer)

private theorem unscramble_topSeed :
    (unscramblerUnscramble16sectors disctype (unscramblerNew memory) sectorNo
      (scrambledBlock plain 0x7FFF#15) outbuf).out = false := by
  have rejects : ∀ j, ¬ Accepts (scrambledBlock plain 0x7FFF#15) j := by
    intro j accepted
    obtain ⟨small, same⟩ := (accepts_scrambledBlock plain _ j).mp accepted
    exact Nat.ne_of_lt small same
  have direct := unscramblerNew_direct memory disctype sectorNo (scrambledBlock plain 0x7FFF#15)
    outbuf
  rw [← Unscrambled.frame_out, direct, directFrame_of_rejects rejects]

/-- A fresh unscrambler recovers the user data of a scrambled block exactly when
its seed is not the last one of the documented range. -/
theorem unscramble_scrambled_iff (seed : BitVec 15) :
    RecoversUserData disctype plain
        (unscramblerUnscramble16sectors disctype (unscramblerNew memory) sectorNo
          (scrambledBlock plain seed) outbuf) ↔
      seed ≠ 0x7FFF#15 := by
  constructor
  · rintro recovered rfl
    exact absurd (recovered.1.symm.trans (unscramble_topSeed ..)) (by decide)
  · intro searched
    have small : seed.toNat < 0x7FFF := by
      have inside := seed.isLt
      have notTop : seed.toNat ≠ 0x7FFF := fun top => searched (BitVec.eq_of_toNat_eq top)
      omega
    have direct := unscramblerNew_direct memory disctype sectorNo (scrambledBlock plain seed) outbuf
    constructor
    · rw [← Unscrambled.frame_out, direct]
      exact directFrame_scrambledBlock_out disctype plain small outbuf
    · intro k insideBlock i insideSector
      have inside : dataOffset disctype + i < 2060 := by
        rw [dataOffset]
        split <;> omega
      rw [← Unscrambled.frame_bout, direct, directFrame_scrambledBlock disctype plain small,
        decodedFrame_bout _ _ _ _ insideBlock insideSector, decodedSector_plain plain seed k inside,
        dataOffset]

/-- Seed `7FFFh` is never tried. -/
theorem unscramble_topSeed_lost :
    ¬ RecoversUserData 3 (fun _ _ => 0)
      (unscramblerUnscramble16sectors 3
        (unscramblerNew { seeds := fun _ => { seed := 0, streamcipher := fun _ => 0 },
                          bruteforceSeeds := false })
        0 (scrambledBlock (fun _ _ => 0) 0x7FFF#15) (fun _ => 0)) := by
  intro recovered
  exact absurd (recovered.1.symm.trans (unscramble_topSeed ..)) (by decide)

end Search

/-! ## Read errors -/

private theorem decodedSector_corruptedBlock (block pattern : Buffer) (sector k : Nat)
    (seed : UInt16) : ∀ i < 2064,
      decodedSector (corruptedBlock block sector pattern) seed k i =
        if k = sector then ((decodedSector block seed k).xor pattern) i
        else decodedSector block seed k i := by
  intro i inside
  obtain ⟨quotient, offset⟩ := sector_position (k := k) inside
  simp only [decodedSector, corruptedBlock, Buffer.xor, Buffer.advance_apply, quotient, offset]
  split
  · rw [UInt8.xor_assoc, UInt8.xor_assoc, UInt8.xor_comm (pattern i)]
  · rfl

/-- No state of the unscrambler takes a block with an error burst in one sector. -/
theorem unscramble_burst_rejected {u : Unscrambler} (reachable : Reachable u) (disctype : UInt8)
    (sectorNo : UInt32) (plain : Nat → Buffer) (seed : BitVec 15) {sector : Nat}
    (inside : sector < 16) (pattern : Buffer) (start : Nat)
    (confined : ∀ i < 2064 * 8, pattern.bit i = true → start ≤ i ∧ i < start + 32)
    (nonzero : ∃ i < 2064 * 8, pattern.bit i = true) (outbuf : Buffer) :
    (unscramblerUnscramble16sectors disctype u sectorNo
      (corruptedBlock (scrambledBlock plain seed) sector pattern) outbuf).out = false := by
  refine Bool.eq_false_iff.mpr fun success => ?_
  obtain ⟨j, accepted, passes, _⟩ := (outcome reachable.formed).accepts success
  rw [toUInt16_eq_seedOf (Nat.lt_succ_of_lt accepted.1)] at passes
  -- An undamaged sector of the block forces the seed that the block was made with.
  obtain ⟨whole, insideBlock, undamaged⟩ : ∃ k < 16, k ≠ sector := by
    by_cases first : sector = 0
    · exact ⟨1, by decide, by omega⟩
    · exact ⟨0, by decide, by omega⟩
  have kept := passes whole insideBlock
  rw [sectorSyndrome_congr (decodedSector_corruptedBlock _ pattern sector whole _)] at kept
  simp only [if_neg undamaged] at kept
  have sameSeed := (decodedSector_passes_iff plain seed _ whole).mp kept
  have damaged := passes sector inside
  rw [sectorSyndrome_congr (decodedSector_corruptedBlock _ pattern sector sector _)] at damaged
  simp only [if_true] at damaged
  rw [sameSeed] at damaged
  have split := sectorSyndrome_xor
    (decodedSector (scrambledBlock plain seed) (seedOf seed) sector) pattern
  rw [(decodedSector_passes_iff plain seed seed sector).mpr rfl, UInt32.zero_xor] at split
  exact sectorSyndrome_burst_ne_zero pattern start confined nonzero (split.symm.trans damaged)

/-- A single wrong bit in the first byte of a block of zeroes. -/
theorem unscramble_burst_rejected_header :
    (unscramblerUnscramble16sectors 3
      (unscramblerNew { seeds := fun _ => { seed := 0, streamcipher := fun _ => 0 },
                        bruteforceSeeds := false })
      0 (corruptedBlock (scrambledBlock (fun _ _ => 0) 0#15) 0
        (fun i => if i = 0 then 0x80 else 0)) (fun _ => 0)).out = false := by
  refine unscramble_burst_rejected (.new _) 3 0 (fun _ _ => 0) 0#15 (by decide)
    (fun i => if i = 0 then 0x80 else 0) 0 ?_ ?_ _
  · intro i _ set
    refine ⟨Nat.zero_le i, Nat.not_le.mp fun beyond => ?_⟩
    have later : i / 8 ≠ 0 := by omega
    rw [Buffer.bit, if_neg later] at set
    exact absurd set (by simp [BitVec.getMsbD])
  · exact ⟨0, by decide, by decide⟩

end Friidump
