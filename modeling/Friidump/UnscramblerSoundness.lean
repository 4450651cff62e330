import Friidump.BlockScrambling

/-!
# Soundness of the unscrambler

A seed that passes the check is the only one, and a call that returns `true` has
decoded all 16 sectors with one searched seed.
-/

set_option autoImplicit false

namespace Friidump

/-! ## One seed for each sector -/

/-- At most one 15-bit seed fits a sector, so a search that ends with a seed ends
with the one that fits. -/
theorem seed_unique (buf : Buffer) (entry : TSeed) :
    (∀ s ≤ 0x7FFF, ∀ s' ≤ 0x7FFF, testSeed buf s = true → testSeed buf s' = true → s = s') ∧
      ∀ added, bruteforceSeed buf entry 0x7FFF 0 = some added →
        ∀ s ≤ 0x7FFF, testSeed buf s = true → added.seed = s := by
  constructor
  · intro s small s' small' passes passes'
    exact testSeed_inj (Nat.lt_succ_of_le small) (Nat.lt_succ_of_le small') passes passes'
  · intro added found s small passes
    obtain ⟨tried, below, passed, stored⟩ := bruteforceSeed_some found
    rw [Nat.zero_add] at below
    have same : tried = s :=
      testSeed_inj (Nat.lt_succ_of_lt below) (Nat.lt_succ_of_le small) passed passes
    exact (addSeed_some below stored).2.number.trans (congrArg Nat.cast same)

/-- The first sector of a block scrambled with seed 5. -/
theorem seed_unique_five :
    ∀ s ≤ 0x7FFF, testSeed (scrambledBlock (fun _ _ => 0) 5#15) s = true → s = 5 := by
  intro s small passes
  have fits := (accepts_scrambledBlock (fun _ _ => 0) 5#15 5).mpr ⟨by decide, rfl⟩
  exact (seed_unique (scrambledBlock (fun _ _ => 0) 5#15) ⟨-1, fun _ => 0⟩).1 s small 5 (by decide)
    passes fits.2

/-! ## Genuine successes -/

/-- What a call may show after it has unscrambled a block with a seed. -/
structure Genuine (disctype : UInt8) (seed : UInt16) (inbuf : Buffer) (result : Unscrambled) :
    Prop where
  checked : ∀ k < 16, edcCalc 0 ((decodedSector inbuf seed k).bytes 2060) =
    ((decodedSector inbuf seed k).advance 2060).loadWordBig
  userData : ∀ k < 16, ∀ i < 2048, result.outbuf (2048 * k + i) =
    decodedSector inbuf seed k ((if disctype = 3 then 12 else 6) + i)
  patched : disctype ≠ 3 → ∀ k < 16, ∀ i, 2054 ≤ i → i < 2060 →
    result.inbuf (2064 * k + i) = decodedSector inbuf seed k i
  kept : ∀ a, (disctype ≠ 3 → a < 16 * 2064 → ¬ (2054 ≤ a % 2064 ∧ a % 2064 < 2060)) →
    result.inbuf a = inbuf a

private theorem genuine_of_decodedFrame {disctype : UInt8} {seed : UInt16} {inbuf outbuf : Buffer}
    {result : Unscrambled}
    (passes : ∀ k < 16, sectorSyndrome (decodedSector inbuf seed k) = 0)
    (shown : result.frame = decodedFrame disctype seed inbuf outbuf 16) :
    Genuine disctype seed inbuf result := by
  have bin : result.inbuf = (decodedFrame disctype seed inbuf outbuf 16).bin :=
    congrArg Frame.bin shown
  have bout : result.outbuf = (decodedFrame disctype seed inbuf outbuf 16).bout :=
    congrArg Frame.bout shown
  constructor
  · intro k inside
    exact (sectorSyndrome_eq_zero_iff _).mp (passes k inside)
  · intro k insideBlock i insideSector
    rw [bout, decodedFrame_bout _ _ _ _ insideBlock insideSector, dataOffset]
  · intro other k inside i lower upper
    rw [bin, decodedFrame_bin _ _ _ _ inside (Nat.lt_trans upper (by decide)),
      if_pos ⟨other, lower, upper⟩]
  · intro a outside
    rw [bin, decodedFrame]
    refine if_neg ?_
    rintro ⟨other, inside, field⟩
    have below : a < 16 * 2064 := Nat.lt_mul_of_div_lt inside (by decide)
    exact outside other below field

/-- Whatever the seed cache holds, a success comes from one searched seed that fits
all 16 sectors. -/
theorem unscramble_genuine {u : Unscrambler} (reachable : Reachable u) (disctype : UInt8)
    (sectorNo : UInt32) (inbuf outbuf : Buffer)
    (success :
      (unscramblerUnscramble16sectors disctype u sectorNo inbuf outbuf).out = true) :
    ∃ s ≤ 0x7FFE, Genuine disctype s.toUInt16 inbuf
      (unscramblerUnscramble16sectors disctype u sectorNo inbuf outbuf) := by
  obtain ⟨s, accepted, passes, shown⟩ := (outcome reachable.formed).accepts success
  exact ⟨s, Nat.le_of_lt_succ accepted.1, genuine_of_decodedFrame passes shown⟩

/-- Zero sectors scrambled with seed 5, on a fresh unscrambler outside DVD mode. -/
theorem unscramble_genuine_zero :
    ∃ s ≤ 0x7FFE, Genuine 0 s.toUInt16 (scrambledBlock (fun _ _ => 0) 5#15)
      (unscramblerUnscramble16sectors 0
        (unscramblerNew { seeds := fun _ => { seed := 0, streamcipher := fun _ => 0 },
                          bruteforceSeeds := false })
        0 (scrambledBlock (fun _ _ => 0) 5#15) (fun _ => 0)) := by
  refine unscramble_genuine (.new _) 0 0 _ _ ?_
  rw [← Unscrambled.frame_out, unscramblerNew_direct]
  exact directFrame_scrambledBlock_out 0 _ (by decide) _

end Friidump
