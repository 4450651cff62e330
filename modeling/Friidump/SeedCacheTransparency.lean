import Friidump.BlockScrambling
import Mathlib.Data.List.Nodup
import Mathlib.Data.List.Perm.Subperm
import Mathlib.Tactic.Choose

/-!
# What the seed cache changes

Over a run of calls the cache shows only where a zone has run out of entries.
-/

set_option autoImplicit false

namespace Friidump

structure Call where
  disctype : UInt8
  sectorNo : UInt32
  inbuf : Buffer
  outbuf : Buffer

def Call.zone (call : Call) : Nat := seedZone call.sectorNo

def Call.on (call : Call) (u : Unscrambler) : Unscrambled :=
  unscramblerUnscramble16sectors call.disctype u call.sectorNo call.inbuf call.outbuf

theorem Call.outcome {u : Unscrambler} (formed : SeedsWellFormed u) (call : Call) :
    Outcome call.disctype u call.zone call.inbuf call.outbuf (call.on u) :=
  Friidump.outcome formed

theorem Call.on_new (memory : Unscrambler) (call : Call) :
    (call.on (unscramblerNew memory)).frame =
      directFrame call.disctype call.inbuf call.outbuf :=
  unscramblerNew_direct memory ..

def runCalls (u : Unscrambler) : List Call → Unscrambler
  | [] => u
  | call :: rest => runCalls (call.on u).u rest

def callFrames (u : Unscrambler) : List Call → List Frame
  | [] => []
  | call :: rest => (call.on u).frame :: callFrames (call.on u).u rest

theorem runCalls_append (u : Unscrambler) (first second : List Call) :
    runCalls u (first ++ second) = runCalls (runCalls u first) second := by
  induction first generalizing u with
  | nil => rfl
  | cons call rest ih => exact ih _

theorem runCalls_formed {u : Unscrambler} (formed : SeedsWellFormed u) (calls : List Call) :
    SeedsWellFormed (runCalls u calls) := by
  induction calls generalizing u with
  | nil => exact formed
  | cons call rest ih => exact ih ((call.outcome formed).formed formed)

theorem runCalls_bruteforceSeeds {u : Unscrambler} (formed : SeedsWellFormed u)
    (calls : List Call) : (runCalls u calls).bruteforceSeeds = u.bruteforceSeeds := by
  induction calls generalizing u with
  | nil => rfl
  | cons call rest ih =>
      exact (ih ((call.outcome formed).formed formed)).trans (call.outcome formed).bruteforceSeeds

/-! ## Zones with at most four seeds -/

/-- The entries of one zone: seeds of a list, each at most once, without a gap. -/
structure ZoneEntries (u : Unscrambler) (zone : Nat) (seeds : List Nat) : Prop where
  known : ∀ i, zone * 4 ≤ i → i < zone * 4 + 4 → 0 ≤ (u.seeds i).seed →
    (u.seeds i).seed.toNat ∈ seeds
  filled : ∀ i k, zone * 4 ≤ i → i < k → k < zone * 4 + 4 → 0 ≤ (u.seeds k).seed →
    0 ≤ (u.seeds i).seed
  distinct : ∀ i k, zone * 4 ≤ i → i < k → k < zone * 4 + 4 → 0 ≤ (u.seeds k).seed →
    (u.seeds i).seed ≠ (u.seeds k).seed

/-- A zone whose four entries are all taken knows every seed it may meet. -/
theorem ZoneEntries.roomy {u : Unscrambler} {zone j : Nat} {seeds : List Nat} {inbuf : Buffer}
    (entries : ZoneEntries u zone seeds) (short : seeds.length ≤ 4) (member : j ∈ seeds)
    (accepted : Accepts inbuf j) :
    ¬ ∀ i, zone * 4 ≤ i → i < zone * 4 + 4 → (u.seeds i).Skipped inbuf := by
  intro skipped
  have apart : ∀ i k, zone * 4 ≤ i → i < k → k < zone * 4 + 4 →
      (u.seeds i).seed.toNat ≠ (u.seeds k).seed.toNat := by
    intro i k lower before upper same
    have filledK := (skipped k (by omega) upper).1
    have filledI := (skipped i lower (by omega)).1
    exact entries.distinct i k lower before upper filledK (by omega)
  let taken := (List.range' (zone * 4) 4).map fun i => (u.seeds i).seed.toNat
  have nodup : taken.Nodup := by
    refine List.Nodup.map_on ?_ List.nodup_range'
    intro i memberI k memberK same
    obtain ⟨lowerI, upperI⟩ := List.mem_range'_1.mp memberI
    obtain ⟨lowerK, upperK⟩ := List.mem_range'_1.mp memberK
    obtain before | here | after := Nat.lt_trichotomy i k
    · exact absurd same (apart i k lowerI before upperK)
    · exact here
    · exact absurd same.symm (apart k i lowerK after upperI)
  have fresh : j ∉ taken := by
    intro found
    obtain ⟨i, memberI, same⟩ := List.mem_map.mp found
    obtain ⟨lower, upper⟩ := List.mem_range'_1.mp memberI
    have fails := (skipped i lower upper).2
    rw [same, accepted.2] at fails
    cases fails
  have contained : j :: taken ⊆ seeds := by
    refine List.cons_subset.mpr ⟨member, fun s found => ?_⟩
    obtain ⟨i, memberI, rfl⟩ := List.mem_map.mp found
    obtain ⟨lower, upper⟩ := List.mem_range'_1.mp memberI
    exact entries.known i lower upper (skipped i lower upper).1
  have long := (List.subperm_of_subset (List.nodup_cons.mpr ⟨fresh, nodup⟩) contained).length_le
  rw [List.length_cons, List.length_map, List.length_range'] at long
  exact absurd (Nat.le_trans long short) (by decide)

/-- No zone has met more than its four seeds. -/
def ZonesRoomy (u : Unscrambler) (seeds : Nat → List Nat) : Prop :=
  ∀ zone < 16, ZoneEntries u zone (seeds zone)

theorem unscramblerNew_zonesRoomy (memory : Unscrambler) (seeds : Nat → List Nat) :
    ZonesRoomy (unscramblerNew memory) seeds := by
  intro zone inside
  have free : ∀ i, i < zone * 4 + 4 → ¬ 0 ≤ ((unscramblerNew memory).seeds i).seed := by
    intro i below
    rw [unscramblerNew_free memory (by omega)]
    decide
  exact ⟨fun i _ upper filled => absurd filled (free i upper),
    fun _ k _ _ upper filled => absurd filled (free k upper),
    fun _ k _ _ upper filled => absurd filled (free k upper)⟩

/-- The blocks of a call's zone are scrambled with seeds of the zone's list. -/
def Call.Within (seeds : Nat → List Nat) (call : Call) : Prop :=
  ∀ j, Accepts call.inbuf j → j ∈ seeds call.zone

section Run

variable {u : Unscrambler} {seeds : Nat → List Nat} {call : Call}

theorem Call.not_crowded (roomy : ZonesRoomy u seeds)
    (short : ∀ zone < 16, (seeds zone).length ≤ 4) (within : call.Within seeds) :
    ∀ j, Accepts call.inbuf j → ¬ Crowded u call.zone call.inbuf := by
  intro j accepted crowded
  have inside : call.zone < 16 := seedZone_lt _
  refine (roomy _ inside).roomy (short _ inside) (within j accepted) accepted ?_
  exact fun i lower upper => crowded i lower (by omega)

private theorem ZoneEntries.setSeed_elsewhere {zone i : Nat} {known : List Nat} {entry : TSeed}
    (entries : ZoneEntries u zone known) (elsewhere : i < zone * 4 ∨ zone * 4 + 4 ≤ i) :
    ZoneEntries (u.setSeed i entry) zone known := by
  have kept : ∀ k, zone * 4 ≤ k → k < zone * 4 + 4 →
      (u.setSeed i entry).seeds k = u.seeds k :=
    fun k lower upper => u.setSeed_elsewhere entry (by omega)
  constructor
  · intro k lower upper
    rw [kept k lower upper]
    exact entries.known k lower upper
  · intro k l lower before upper
    rw [kept k lower (by omega), kept l (by omega) upper]
    exact entries.filled k l lower before upper
  · intro k l lower before upper
    rw [kept k lower (by omega), kept l (by omega) upper]
    exact entries.distinct k l lower before upper

private theorem ZoneEntries.setSeed_next {zone i j : Nat} {known : List Nat} {entry : TSeed}
    {inbuf : Buffer} (entries : ZoneEntries u zone known) (member : j ∈ known)
    (skipped : ∀ k, zone * 4 ≤ k → k < i → (u.seeds k).Skipped inbuf)
    (free : (u.seeds i).seed = -1) (held : entry.Holds j) (accepted : Accepts inbuf j) :
    ZoneEntries (u.setSeed i entry) zone known := by
  have here := u.setSeed_here i entry
  have kept : ∀ k, k ≠ i → (u.setSeed i entry).seeds k = u.seeds k :=
    fun _ => u.setSeed_elsewhere entry
  -- The gap-free filling leaves nothing behind the entry that was free.
  have behind : ∀ k, zone * 4 ≤ i → i < k → k < zone * 4 + 4 → ¬ 0 ≤ (u.seeds k).seed := by
    intro k lower before upper filled
    have filledI := entries.filled i k lower before upper filled
    rw [free] at filledI
    exact absurd filledI (by decide)
  constructor
  · intro k lower upper
    by_cases same : k = i
    · rw [same, here, held.number]
      exact fun _ => member
    · rw [kept k same]
      exact entries.known k lower upper
  · intro k l lower before upper
    by_cases sameL : l = i
    · rw [kept k (by omega)]
      exact fun _ => (skipped k lower (by omega)).1
    · by_cases sameK : k = i
      · rw [kept l sameL]
        exact fun filled => absurd filled (behind l (by omega) (by omega) upper)
      · rw [kept l sameL, kept k sameK]
        exact entries.filled k l lower before upper
  · intro k l lower before upper
    by_cases sameL : l = i
    · rw [kept k (by omega), sameL, here]
      intro _ same
      have fails := (skipped k lower (by omega)).2
      rw [same, held.number, Int.toNat_natCast, accepted.2] at fails
      cases fails
    · by_cases sameK : k = i
      · rw [kept l sameL]
        exact fun filled => absurd filled (behind l (by omega) (by omega) upper)
      · rw [kept l sameL, kept k sameK]
        exact entries.distinct k l lower before upper

theorem Call.zonesRoomy (formed : SeedsWellFormed u) (roomy : ZonesRoomy u seeds)
    (short : ∀ zone < 16, (seeds zone).length ≤ 4) (within : call.Within seeds) :
    ZonesRoomy (call.on u).u seeds := by
  have ended := call.outcome formed
  have zoneInside : call.zone < 16 := seedZone_lt _
  generalize call.on u = result at ended
  cases ended with
  | cached => exact roomy
  | rejected => exact roomy
  | @added i j entry _ lower upper skipped free held accepted =>
      intro zone inside
      by_cases same : zone = call.zone
      · rw [same]
        exact (roomy _ zoneInside).setSeed_next (within j accepted) skipped free held accepted
      · have near : i < call.zone * 4 + 4 := by
          refine Nat.not_le.mp fun beyond => ?_
          refine (roomy _ zoneInside).roomy (short _ zoneInside) (within j accepted) accepted ?_
          exact fun k lowerK upperK => skipped k lowerK (by omega)
        exact (roomy zone inside).setSeed_elsewhere (by omega)

private theorem callFrames_direct (formed : SeedsWellFormed u) (enabled : u.bruteforceSeeds = true)
    (roomy : ZonesRoomy u seeds) (short : ∀ zone < 16, (seeds zone).length ≤ 4)
    (calls : List Call) (within : ∀ call ∈ calls, call.Within seeds) :
    callFrames u calls =
      calls.map fun call => directFrame call.disctype call.inbuf call.outbuf := by
  induction calls generalizing u with
  | nil => rfl
  | cons call rest ih =>
      have first := within call List.mem_cons_self
      rw [callFrames, List.map_cons]
      congr 1
      · exact (call.outcome formed).direct enabled (call.not_crowded roomy short first)
      · exact ih ((call.outcome formed).formed formed)
          ((call.outcome formed).bruteforceSeeds.trans enabled)
          (call.zonesRoomy formed roomy short first)
          fun later member => within later (List.mem_cons_of_mem call member)

end Run

/-- While no zone meets more than four seeds, every call shows what it would
show on a fresh unscrambler. -/
theorem seedCache_transparent (memory memory' : Unscrambler) (calls : List Call)
    (limited : ∀ zone < 16, ∃ seeds : List Nat, seeds.length ≤ 4 ∧
      ∀ call ∈ calls, call.zone = zone →
        ∀ j < 0x7FFF, testSeed call.inbuf j = true → j ∈ seeds) :
    callFrames (unscramblerNew memory) calls =
      calls.map fun call => (call.on (unscramblerNew memory')).frame := by
  choose! seeds short within using limited
  simp only [Call.on_new]
  refine callFrames_direct (unscramblerNew_formed memory) rfl
    (unscramblerNew_zonesRoomy memory seeds) short calls fun call member j accepted => ?_
  exact within call.zone (seedZone_lt _) call member rfl j accepted.1 accepted.2

theorem seedCache_transparent_twice :
    callFrames (unscramblerNew ⟨fun _ => ⟨0, fun _ => 0⟩, false⟩)
        (List.replicate 2 ⟨3, 0, scrambledBlock (fun _ _ => 0) 5#15, fun _ => 0⟩) =
      (List.replicate 2 (⟨3, 0, scrambledBlock (fun _ _ => 0) 5#15, fun _ => 0⟩ : Call)).map
        fun call => (call.on (unscramblerNew ⟨fun _ => ⟨0, fun _ => 0⟩, false⟩)).frame := by
  refine seedCache_transparent _ _ _ fun zone _ => ⟨[5], by decide, ?_⟩
  intro call member _ j small passes
  have same := List.eq_of_mem_replicate member
  subst same
  have fits := (accepts_scrambledBlock (fun _ _ => 0) 5#15 j).mp ⟨small, passes⟩
  exact List.mem_singleton.mpr fits.2

end Friidump
