import Friidump.ZoneInterference

/-!
# The shape of the seed cache

Which entries a call can touch, and how the entries of a group are filled.
-/

set_option autoImplicit false

namespace Friidump

/-- In every group of four the filled entries precede the free ones. -/
def GroupsPacked (u : Unscrambler) : Prop :=
  ∀ i k, i ≤ k → k < 64 → i / 4 = k / 4 → 0 ≤ (u.seeds k).seed → 0 ≤ (u.seeds i).seed

/-- The entry at which the walk of a call ends. -/
def scanStop (u : Unscrambler) (sectorNo : UInt32) (inbuf : Buffer) : Nat :=
  (scanSeeds u.seeds inbuf (80 - seedZone sectorNo * 4) (seedZone sectorNo * 4)).2

/-- What the entries up to the sentinel say of a cache. -/
structure SameEntries (u u' : Unscrambler) : Prop where
  entries : ∀ i ≤ 64, u'.seeds i = u.seeds i
  bruteforceSeeds : u'.bruteforceSeeds = u.bruteforceSeeds

/-- A call neither reads nor writes the entries behind the sentinel. -/
structure StaysBefore (u : Unscrambler) (disctype : UInt8) (sectorNo : UInt32)
    (inbuf outbuf : Buffer) : Prop where
  start : seedZone sectorNo * 4 = 4 * (sectorNo.toNat / 16 % 16)
  stop : scanStop u sectorNo inbuf ≤ 64
  unread : ∀ u', SameEntries u u' →
    (unscramblerUnscramble16sectors disctype u' sectorNo inbuf outbuf).frame =
        (unscramblerUnscramble16sectors disctype u sectorNo inbuf outbuf).frame ∧
      SameEntries (unscramblerUnscramble16sectors disctype u sectorNo inbuf outbuf).u
        (unscramblerUnscramble16sectors disctype u' sectorNo inbuf outbuf).u
  unwritten : ∀ i, 64 < i →
    (unscramblerUnscramble16sectors disctype u sectorNo inbuf outbuf).u.seeds i = u.seeds i

/-! ## Packed groups -/

theorem unscramblerNew_packed (memory : Unscrambler) : GroupsPacked (unscramblerNew memory) := by
  intro i k _ inside _ filled
  simp [unscramblerNew_free memory inside] at filled

theorem Outcome.packed {disctype : UInt8} {u : Unscrambler} {zone : Nat} {inbuf outbuf : Buffer}
    {result : Unscrambled} (ended : Outcome disctype u zone inbuf outbuf result)
    (packed : GroupsPacked u) : GroupsPacked result.u := by
  cases ended with
  | cached => exact packed
  | rejected => exact packed
  | @added free j entry _ lower _ skipped _ held _ =>
      intro i k order inside group filled
      rw [unscrambleWith_u] at filled ⊢
      by_cases here : i = free
      · rw [here, u.setSeed_here, held.number]
        exact Int.natCast_nonneg j
      · rw [u.setSeed_elsewhere _ here]
        by_cases last : k = free
        · -- The walk came past everything before the new entry of its group.
          subst last
          exact (skipped i (by omega) (by omega)).1
        · rw [u.setSeed_elsewhere _ last] at filled
          exact packed i k order inside group filled

theorem Reachable.packed {u : Unscrambler} (reachable : Reachable u) : GroupsPacked u := by
  induction reachable with
  | new memory => exact unscramblerNew_packed memory
  | unscramble reachable _ _ _ _ packed => exact (outcome reachable.formed).packed packed
  | setBruteforce _ _ packed => exact packed

/-! ## The entries behind the sentinel -/

private theorem scanSeeds_congr {seeds seeds' : Nat → TSeed} {inbuf : Buffer} {entries i last : Nat}
    (same : ∀ k ≤ last, seeds' k = seeds k) (stops : (scanSeeds seeds inbuf entries i).2 ≤ last) :
    scanSeeds seeds' inbuf entries i = scanSeeds seeds inbuf entries i := by
  induction entries generalizing i with
  | zero => rfl
  | succ entries ih =>
      have here : i ≤ last := Nat.le_trans (le_scanSeeds _ _ _ _) stops
      rw [scanSeeds] at stops ⊢
      rw [scanSeeds, same i here]
      split
      · rename_i filled
        rw [if_pos filled] at stops
        split
        · rfl
        · rename_i fails
          rw [if_neg fails] at stops
          exact ih stops
      · rfl

theorem SameEntries.setSeed {u u' : Unscrambler} (same : SameEntries u u') (i : Nat) (entry : TSeed) :
    SameEntries (u.setSeed i entry) (u'.setSeed i entry) where
  entries k inside := by
    by_cases here : k = i
    · rw [here, u.setSeed_here, u'.setSeed_here]
    · rw [u.setSeed_elsewhere _ here, u'.setSeed_elsewhere _ here, same.entries k inside]
  bruteforceSeeds := same.bruteforceSeeds

theorem SeedsWellFormed.unread {u u' : Unscrambler} (formed : SeedsWellFormed u)
    (same : SameEntries u u') (disctype : UInt8) (sectorNo : UInt32) (inbuf outbuf : Buffer) :
    (unscramblerUnscramble16sectors disctype u' sectorNo inbuf outbuf).frame =
        (unscramblerUnscramble16sectors disctype u sectorNo inbuf outbuf).frame ∧
      SameEntries (unscramblerUnscramble16sectors disctype u sectorNo inbuf outbuf).u
        (unscramblerUnscramble16sectors disctype u' sectorNo inbuf outbuf).u := by
  have stops : scanStop u sectorNo inbuf ≤ 64 := formed.scan_stops sectorNo inbuf
  have walk := scanSeeds_congr same.entries stops
  unfold scanStop at stops
  unfold unscramblerUnscramble16sectors
  rw [walk]
  cases scan : scanSeeds u.seeds inbuf (80 - seedZone sectorNo * 4) (seedZone sectorNo * 4) with
  | mk found i =>
      rw [scan] at stops
      cases found with
      | true =>
          dsimp only at stops ⊢
          rw [same.entries i stops]
          exact ⟨rfl, same⟩
      | false =>
          dsimp only at stops ⊢
          rw [same.entries i stops, same.bruteforceSeeds]
          split
          · cases bruteforceSeed inbuf (u.seeds i) 0x7FFF 0 with
            | some entry => exact ⟨rfl, same.setSeed i entry⟩
            | none => exact ⟨rfl, same⟩
          · exact ⟨rfl, same⟩

theorem Outcome.unwritten {disctype : UInt8} {u : Unscrambler} {zone : Nat} {inbuf outbuf : Buffer}
    {result : Unscrambled} (ended : Outcome disctype u zone inbuf outbuf result) {i : Nat}
    (behind : 64 < i) : result.u.seeds i = u.seeds i := by
  cases ended with
  | cached => rfl
  | rejected => rfl
  | added _ _ upper => exact u.setSeed_elsewhere _ (Nat.ne_of_gt (Nat.lt_trans upper behind))

theorem Reachable.run {u : Unscrambler} (reachable : Reachable u) (calls : List Call) :
    Reachable (runCalls u calls) := by
  induction calls generalizing u with
  | nil => exact reachable
  | cons call rest ih => exact ih (reachable.unscramble call.disctype call.sectorNo call.inbuf call.outbuf)

/-- Every cache that calls can lead to is well formed and packed, and no call on it touches
the entries that the initialisation has left out. -/
theorem seedCache_invariant {u : Unscrambler} (reachable : Reachable u) :
    (∀ i < 64, (u.seeds i).seed = -1 ∨ ∃ j ≤ 0x7FFE, (u.seeds i).Holds j) ∧
      (u.seeds 64).seed = -2 ∧ GroupsPacked u ∧
      ∀ disctype sectorNo inbuf outbuf, StaysBefore u disctype sectorNo inbuf outbuf := by
  have formed := reachable.formed
  refine ⟨fun i inside => ?_, formed.sentinel, reachable.packed, fun disctype sectorNo inbuf outbuf => ?_⟩
  · refine (formed.entry i inside).imp_right ?_
    rintro ⟨j, small, held⟩
    exact ⟨j, Nat.le_of_lt_succ small, held⟩
  · refine ⟨?_, formed.scan_stops sectorNo inbuf, fun u' same => ?_, fun i behind => ?_⟩
    · rw [seedZone_eq, Nat.mul_comm]
    · exact formed.unread same disctype sectorNo inbuf outbuf
    · exact (outcome formed).unwritten behind

/-- Zone 14 has run over: its eighth seed is in the last entry of zone 15. -/
theorem seedCache_invariant_crowded :
    ∃ u, u = runCalls (unscramblerNew blankUnscrambler) (crowdingCalls 8) ∧
      ((u.seeds 56).Holds 1 ∧ (u.seeds 63).Holds 8) ∧
      (∀ i < 64, (u.seeds i).seed = -1 ∨ ∃ j ≤ 0x7FFE, (u.seeds i).Holds j) ∧
      (u.seeds 64).seed = -2 ∧ GroupsPacked u ∧
      ∀ disctype sectorNo inbuf outbuf, StaysBefore u disctype sectorNo inbuf outbuf :=
  ⟨_, rfl, (crowdingCalls_crowding 8 (Nat.le_refl 8)).ends,
    seedCache_invariant ((Reachable.new blankUnscrambler).run (crowdingCalls 8))⟩

end Friidump
