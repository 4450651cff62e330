import Friidump.UnscramblerProperties

/-!
# The seed cache over whole runs

What one call can do to the cache, and the shape every reachable cache has.
-/

set_option autoImplicit false

namespace Friidump

/-- The seeds the search takes for a block. -/
def Accepts (inbuf : Buffer) (j : Nat) : Prop := j < 0x7FFF ∧ testSeed inbuf j = true

theorem Accepts.unique {inbuf : Buffer} {j j' : Nat} (first : Accepts inbuf j)
    (second : Accepts inbuf j') : j = j' :=
  testSeed_inj (Nat.lt_succ_of_lt first.1) (Nat.lt_succ_of_lt second.1) first.2 second.2

/-- An entry the walk over the cache steps over. -/
def TSeed.Skipped (inbuf : Buffer) (entry : TSeed) : Prop :=
  0 ≤ entry.seed ∧ testSeed inbuf entry.seed.toNat = false

/-! ## The walk and the search -/

private theorem scanSeeds_spec (seeds : Nat → TSeed) (inbuf : Buffer) (entries i : Nat) :
    i ≤ (scanSeeds seeds inbuf entries i).2 ∧
    (scanSeeds seeds inbuf entries i).2 ≤ i + entries ∧
    (∀ k, i ≤ k → k < (scanSeeds seeds inbuf entries i).2 → (seeds k).Skipped inbuf) ∧
    ((scanSeeds seeds inbuf entries i).1 = true →
      0 ≤ (seeds (scanSeeds seeds inbuf entries i).2).seed ∧
        testSeed inbuf (seeds (scanSeeds seeds inbuf entries i).2).seed.toNat = true) ∧
    ((scanSeeds seeds inbuf entries i).1 = false →
      (scanSeeds seeds inbuf entries i).2 = i + entries ∨
        (seeds (scanSeeds seeds inbuf entries i).2).seed < 0) := by
  induction entries generalizing i with
  | zero =>
      exact ⟨Nat.le_refl _, Nat.le_refl _,
        fun _ lower upper => absurd upper (Nat.not_lt.mpr lower), nofun, fun _ => .inl rfl⟩
  | succ entries ih =>
      rw [scanSeeds]
      split
      · rename_i filled
        split
        · rename_i passes
          exact ⟨Nat.le_refl _, Nat.le_add_right _ _, by intro k _ _; omega,
            fun _ => ⟨filled, passes⟩, nofun⟩
        · rename_i fails
          obtain ⟨lower, upper, skipped, hit, miss⟩ := ih (i + 1)
          refine ⟨by omega, by omega, ?_, hit, fun missed => (miss missed).imp (by omega) id⟩
          intro k atLeast below
          by_cases here : k = i
          · exact here ▸ ⟨filled, Bool.eq_false_iff.mpr fails⟩
          · exact skipped k (by omega) below
      · rename_i negative
        exact ⟨Nat.le_refl _, Nat.le_add_right _ _, by intro k _ _; omega, nofun,
          fun _ => .inr (Int.not_le.mp negative)⟩

theorem le_scanSeeds (seeds : Nat → TSeed) (inbuf : Buffer) (entries i : Nat) :
    i ≤ (scanSeeds seeds inbuf entries i).2 :=
  (scanSeeds_spec seeds inbuf entries i).1

theorem bruteforceSeed_some {inbuf : Buffer} {entry added : TSeed} {count j : Nat}
    (found : bruteforceSeed inbuf entry count j = some added) :
    ∃ s < j + count, testSeed inbuf s = true ∧ addSeed entry s.toUInt16 = some added := by
  induction count generalizing j with
  | zero => cases found
  | succ count ih =>
      rw [bruteforceSeed] at found
      split at found
      · rename_i passes
        cases stored : addSeed entry j.toUInt16 with
        | some value =>
            rw [stored] at found
            exact ⟨j, by omega, passes, stored.trans found⟩
        | none =>
            rw [stored] at found
            obtain ⟨s, below, rest⟩ := ih found
            exact ⟨s, by omega, rest⟩
      · obtain ⟨s, below, rest⟩ := ih found
        exact ⟨s, by omega, rest⟩

private theorem bruteforceSeed_none {inbuf : Buffer} {entry : TSeed} {count j : Nat}
    (missed : bruteforceSeed inbuf entry count j = none) :
    ∀ s, j ≤ s → s < j + count → testSeed inbuf s = true → addSeed entry s.toUInt16 = none := by
  induction count generalizing j with
  | zero => intro s _ _; omega
  | succ count ih =>
      rw [bruteforceSeed] at missed
      intro s atLeast below passes
      by_cases here : s = j
      · subst here
        rw [if_pos passes] at missed
        cases stored : addSeed entry s.toUInt16 with
        | none => rfl
        | some value =>
            rw [stored] at missed
            cases missed
      · have later : bruteforceSeed inbuf entry count (j + 1) = none := by
          split at missed
          · cases stored : addSeed entry j.toUInt16 with
            | none => rwa [stored] at missed
            | some value =>
                rw [stored] at missed
                cases missed
          · exact missed
        exact ih later s (by omega) (by omega) passes

private theorem addSeed_none {entry : TSeed} {seed : UInt16} (full : addSeed entry seed = none) :
    entry.seed = -2 := by
  rw [addSeed] at full
  split at full
  · assumption
  · cases full

theorem addSeed_some {entry added : TSeed} {j : Nat} (small : j < 0x7FFF)
    (stored : addSeed entry j.toUInt16 = some added) : entry.seed ≠ -2 ∧ added.Holds j := by
  rw [addSeed] at stored
  split at stored
  · cases stored
  · rename_i free
    cases stored
    refine ⟨free, ?_, fun i inside => ?_⟩
    · have value : j.toUInt16.toNat = j := Nat.mod_eq_of_lt (Nat.lt_trans small (by decide))
      rw [value]
    · exact Buffer.memcpy_inside _ _ (Nat.zero_le i) (Nat.lt_of_lt_of_eq inside (Nat.zero_add _).symm)

/-! ## One call -/

/-- The shape of every reachable cache: up to the one sentinel left by the
initialisation, an entry is free or holds a searched seed with its stream. -/
structure SeedsWellFormed (u : Unscrambler) : Prop where
  entry : ∀ i < 64, (u.seeds i).seed = -1 ∨ ∃ j < 0x7FFF, (u.seeds i).Holds j
  sentinel : (u.seeds 64).seed = -2

/-- What the caller sees of a call. -/
def Unscrambled.frame (result : Unscrambled) : Frame :=
  { out := result.out, bin := result.inbuf, bout := result.outbuf }

theorem Unscrambler.setSeed_here (u : Unscrambler) (i : Nat) (entry : TSeed) :
    (u.setSeed i entry).seeds i = entry := if_pos rfl

theorem Unscrambler.setSeed_elsewhere (u : Unscrambler) (entry : TSeed) {i k : Nat} (elsewhere : k ≠ i) :
    (u.setSeed i entry).seeds k = u.seeds k := if_neg elsewhere

@[simp] theorem Unscrambled.frame_out (result : Unscrambled) : result.frame.out = result.out := rfl

@[simp] theorem Unscrambled.frame_bin (result : Unscrambled) :
    result.frame.bin = result.inbuf := rfl

@[simp] theorem Unscrambled.frame_bout (result : Unscrambled) :
    result.frame.bout = result.outbuf := rfl

/-- All entries from the zone's first one up to the sentinel are taken by other seeds. -/
def Crowded (u : Unscrambler) (zone : Nat) (inbuf : Buffer) : Prop :=
  ∀ i, zone * 4 ≤ i → i < 64 → (u.seeds i).Skipped inbuf

inductive Outcome (disctype : UInt8) (u : Unscrambler) (zone : Nat) (inbuf outbuf : Buffer) :
    Unscrambled → Prop
  | cached {i j : Nat} (lower : zone * 4 ≤ i) (upper : i < 64)
      (skipped : ∀ k, zone * 4 ≤ k → k < i → (u.seeds k).Skipped inbuf)
      (held : (u.seeds i).Holds j) (accepted : Accepts inbuf j) :
      Outcome disctype u zone inbuf outbuf
        (unscrambleWith disctype u (u.seeds i) inbuf outbuf)
  | added {i j : Nat} {entry : TSeed} (enabled : u.bruteforceSeeds = true)
      (lower : zone * 4 ≤ i) (upper : i < 64)
      (skipped : ∀ k, zone * 4 ≤ k → k < i → (u.seeds k).Skipped inbuf)
      (free : (u.seeds i).seed = -1) (held : entry.Holds j) (accepted : Accepts inbuf j) :
      Outcome disctype u zone inbuf outbuf
        (unscrambleWith disctype (u.setSeed i entry) entry inbuf outbuf)
  | rejected (reason : u.bruteforceSeeds = false ∨ (∀ j, ¬ Accepts inbuf j) ∨
        Crowded u zone inbuf) :
      Outcome disctype u zone inbuf outbuf
        { out := false, u := u, inbuf := inbuf, outbuf := outbuf }

theorem seedZone_eq (sectorNo : UInt32) : seedZone sectorNo = sectorNo.toNat / 16 % 16 := by
  rw [seedZone, UInt32.toNat_and, UInt32.toNat_div]
  exact Nat.and_two_pow_sub_one_eq_mod (sectorNo.toNat / 16) 4

theorem seedZone_lt (sectorNo : UInt32) : seedZone sectorNo < 16 := by
  rw [seedZone_eq]
  exact Nat.mod_lt _ (by decide)

private theorem TSeed.Holds.filled {entry : TSeed} {j : Nat} (held : entry.Holds j) :
    0 ≤ entry.seed := by
  rw [held.number]
  exact Int.natCast_nonneg j

private theorem TSeed.Holds.toNat_seed {entry : TSeed} {j : Nat} (held : entry.Holds j) :
    entry.seed.toNat = j := by
  rw [held.number]
  exact Int.toNat_natCast j

section Call

variable {disctype : UInt8} {u : Unscrambler} {sectorNo : UInt32} {inbuf outbuf : Buffer}
  {i j : Nat} {entry : TSeed}

private theorem unscramble_cached
    (walk : scanSeeds u.seeds inbuf (80 - seedZone sectorNo * 4) (seedZone sectorNo * 4) =
      (true, i)) :
    unscramblerUnscramble16sectors disctype u sectorNo inbuf outbuf =
      unscrambleWith disctype u (u.seeds i) inbuf outbuf := by
  rw [unscramblerUnscramble16sectors, walk]

private theorem unscramble_added (enabled : u.bruteforceSeeds = true)
    (walk : scanSeeds u.seeds inbuf (80 - seedZone sectorNo * 4) (seedZone sectorNo * 4) =
      (false, i))
    (search : bruteforceSeed inbuf (u.seeds i) 0x7FFF 0 = some entry) :
    unscramblerUnscramble16sectors disctype u sectorNo inbuf outbuf =
      unscrambleWith disctype (u.setSeed i entry) entry inbuf outbuf := by
  rw [unscramblerUnscramble16sectors, walk]
  dsimp only
  rw [if_pos enabled, search]

private theorem unscramble_missed (enabled : u.bruteforceSeeds = true)
    (walk : scanSeeds u.seeds inbuf (80 - seedZone sectorNo * 4) (seedZone sectorNo * 4) =
      (false, i))
    (search : bruteforceSeed inbuf (u.seeds i) 0x7FFF 0 = none) :
    unscramblerUnscramble16sectors disctype u sectorNo inbuf outbuf =
      { out := false, u := u, inbuf := inbuf, outbuf := outbuf } := by
  rw [unscramblerUnscramble16sectors, walk]
  dsimp only
  rw [if_pos enabled, search]

private theorem unscramble_unsearched (disabled : u.bruteforceSeeds = false)
    (walk : scanSeeds u.seeds inbuf (80 - seedZone sectorNo * 4) (seedZone sectorNo * 4) =
      (false, i)) :
    unscramblerUnscramble16sectors disctype u sectorNo inbuf outbuf =
      { out := false, u := u, inbuf := inbuf, outbuf := outbuf } := by
  rw [unscramblerUnscramble16sectors, walk]
  dsimp only
  rw [if_neg (Bool.eq_false_iff.mp disabled)]

private theorem SeedsWellFormed.negative (formed : SeedsWellFormed u) (inside : i ≤ 64)
    (empty : (u.seeds i).seed < 0) : i < 64 ∧ (u.seeds i).seed = -1 ∨ i = 64 := by
  obtain below | last := Nat.lt_or_eq_of_le inside
  · refine .inl ⟨below, ?_⟩
    obtain free | ⟨j, _, held⟩ := formed.entry i below
    · exact free
    · exact absurd held.filled (Int.not_le.mpr empty)
  · exact .inr last

private theorem SeedsWellFormed.filled (formed : SeedsWellFormed u) (inside : i ≤ 64)
    (filled : 0 ≤ (u.seeds i).seed) : i < 64 ∧ ∃ j < 0x7FFF, (u.seeds i).Holds j := by
  obtain below | rfl := Nat.lt_or_eq_of_le inside
  · obtain free | held := formed.entry i below
    · rw [free] at filled
      exact absurd filled (by decide)
    · exact ⟨below, held⟩
  · rw [formed.sentinel] at filled
    exact absurd filled (by decide)

theorem unscrambleWith_u (entry : TSeed) :
    (unscrambleWith disctype u entry inbuf outbuf).u = u := rfl

theorem unscrambleWith_frame (held : entry.Holds j) :
    (unscrambleWith disctype u entry inbuf outbuf).frame =
      decodedFrame disctype j.toUInt16 inbuf outbuf 16 := by
  rw [← unscrambleFrame_eq held, unscrambleWith]
  generalize unscrambleFrame disctype entry inbuf outbuf = frame
  rfl

theorem SeedsWellFormed.scan_stops (formed : SeedsWellFormed u) (sectorNo : UInt32) (inbuf : Buffer) :
    (scanSeeds u.seeds inbuf (80 - seedZone sectorNo * 4) (seedZone sectorNo * 4)).2 ≤ 64 := by
  have zoneBelow := seedZone_lt sectorNo
  obtain ⟨-, -, skipped, -, -⟩ :=
    scanSeeds_spec u.seeds inbuf (80 - seedZone sectorNo * 4) (seedZone sectorNo * 4)
  refine Nat.not_lt.mp fun beyond => ?_
  have passed := skipped 64 (by omega) beyond
  exact absurd (formed.filled (Nat.le_refl 64) passed.1).1 (Nat.lt_irrefl 64)

theorem outcome (formed : SeedsWellFormed u) :
    Outcome disctype u (seedZone sectorNo) inbuf outbuf
      (unscramblerUnscramble16sectors disctype u sectorNo inbuf outbuf) := by
  have zoneBelow := seedZone_lt sectorNo
  obtain ⟨lower, _, skipped, hit, miss⟩ :=
    scanSeeds_spec u.seeds inbuf (80 - seedZone sectorNo * 4) (seedZone sectorNo * 4)
  have stops := formed.scan_stops sectorNo inbuf
  cases walk : scanSeeds u.seeds inbuf (80 - seedZone sectorNo * 4) (seedZone sectorNo * 4) with
  | mk found i =>
      rw [walk] at lower skipped hit miss stops
      cases found with
      | true =>
          obtain ⟨filled, passes⟩ := hit rfl
          obtain ⟨below, j, small, held⟩ := formed.filled stops filled
          rw [held.toNat_seed] at passes
          rw [unscramble_cached walk]
          exact .cached lower below skipped held ⟨small, passes⟩
      | false =>
          have empty : (u.seeds i).seed < 0 := by
            obtain ended | empty := miss rfl
            · have atEnd : i = seedZone sectorNo * 4 + (80 - seedZone sectorNo * 4) := ended
              have early : i ≤ 64 := stops
              omega
            · exact empty
          cases enabled : u.bruteforceSeeds with
          | false =>
              rw [unscramble_unsearched enabled walk]
              exact .rejected (.inl enabled)
          | true =>
              cases search : bruteforceSeed inbuf (u.seeds i) 0x7FFF 0 with
              | some entry =>
                  obtain ⟨j, small, passes, stored⟩ := bruteforceSeed_some search
                  rw [Nat.zero_add] at small
                  obtain ⟨unsealed, held⟩ := addSeed_some small stored
                  rw [unscramble_added enabled walk search]
                  obtain ⟨below, free⟩ | last := formed.negative stops empty
                  · exact .added enabled lower below skipped free held ⟨small, passes⟩
                  · have sealed : i = 64 := last
                    rw [sealed] at unsealed
                    exact absurd formed.sentinel unsealed
              | none =>
                  rw [unscramble_missed enabled walk search]
                  refine .rejected (.inr ?_)
                  obtain ⟨below, free⟩ | last := formed.negative stops empty
                  · refine .inl fun j accepted => ?_
                    have refused := addSeed_none (bruteforceSeed_none search j (Nat.zero_le j)
                      (Nat.lt_of_lt_of_eq accepted.1 (Nat.zero_add _).symm) accepted.2)
                    exact absurd (free.symm.trans refused) (by decide)
                  · exact .inr fun k atLeast before =>
                      skipped k atLeast (Nat.lt_of_lt_of_eq before last.symm)

end Call

/-! ## Reachable caches -/

private theorem unscramblerInitSeeds_round (u : Unscrambler) (zone n i : Nat) :
    (((List.range n).foldl (fun u j => u.setSeed (zone * 4 + j)
      { u.seeds (zone * 4 + j) with seed := -1 }) u).seeds i).seed =
      if zone * 4 ≤ i ∧ i < zone * 4 + n then -1 else (u.seeds i).seed := by
  induction n with
  | zero =>
      rw [if_neg (by omega)]
      rfl
  | succ n ih =>
      rw [List.range_succ, List.foldl_append, List.foldl_cons, List.foldl_nil, Unscrambler.setSeed]
      by_cases here : i = zone * 4 + n
      · subst here
        simp
      · simp only [if_neg here, ih]
        by_cases earlier : zone * 4 ≤ i ∧ i < zone * 4 + n
        · rw [if_pos earlier, if_pos (by omega)]
        · rw [if_neg earlier, if_neg (by omega)]

private theorem unscramblerInitSeeds_succ (memory : Unscrambler) (zones i : Nat) :
    ((unscramblerInitSeeds memory (zones + 1)).seeds i).seed =
      if i = zones * 4 + 4 then -2
      else if zones * 4 ≤ i ∧ i < zones * 4 + 4 then -1
      else ((unscramblerInitSeeds memory zones).seeds i).seed := by
  have slots := unscramblerInitSeeds_round (unscramblerInitSeeds memory zones) zones 4 i
  rw [unscramblerInitSeeds]
  by_cases last : i = zones * 4 + 4
  · rw [if_pos last]
    exact congrArg TSeed.seed (if_pos last)
  · rw [if_neg last, ← slots]
    exact congrArg TSeed.seed (if_neg last)

/-- The next round overwrites a sentinel: only the last one survives. -/
theorem unscramblerInitSeeds_seed (memory : Unscrambler) (zones i : Nat) :
    ((unscramblerInitSeeds memory (zones + 1)).seeds i).seed =
      if i < (zones + 1) * 4 then -1 else if i = (zones + 1) * 4 then -2
      else (memory.seeds i).seed := by
  induction zones with
  | zero =>
      rw [unscramblerInitSeeds_succ]
      by_cases last : i = 4
      · rw [last]
        rfl
      · by_cases inside : i < 4
        · rw [if_neg (by omega), if_pos (by omega), if_pos (by omega)]
        · rw [if_neg (by omega), if_neg (by omega), if_neg (by omega), if_neg (by omega)]
          rfl
  | succ zones ih =>
      rw [unscramblerInitSeeds_succ, ih]
      by_cases last : i = (zones + 1) * 4 + 4
      · rw [if_pos last, if_neg (by omega), if_pos (by omega)]
      · rw [if_neg last]
        by_cases inside : i < (zones + 1) * 4 + 4
        · have within : i < (zones + 1 + 1) * 4 := by omega
          rw [if_pos within]
          by_cases here : (zones + 1) * 4 ≤ i
          · rw [if_pos ⟨here, inside⟩]
          · rw [if_neg fun slot => here slot.1, if_pos (by omega)]
        · rw [if_neg fun slot => inside slot.2, if_neg (by omega), if_neg (by omega),
            if_neg (by omega), if_neg (by omega)]

theorem unscramblerNew_free (memory : Unscrambler) {i : Nat} (inside : i < 64) :
    ((unscramblerNew memory).seeds i).seed = -1 :=
  (unscramblerInitSeeds_seed memory 15 i).trans (if_pos inside)

theorem unscramblerNew_formed (memory : Unscrambler) : SeedsWellFormed (unscramblerNew memory) where
  entry _ inside := .inl (unscramblerNew_free memory inside)
  sentinel := unscramblerInitSeeds_seed memory 15 64

section Step

variable {disctype : UInt8} {u : Unscrambler} {zone : Nat} {inbuf outbuf : Buffer}
  {result : Unscrambled} {j : Nat}

theorem Outcome.formed (ended : Outcome disctype u zone inbuf outbuf result)
    (formed : SeedsWellFormed u) : SeedsWellFormed result.u := by
  cases ended with
  | cached => exact formed
  | rejected => exact formed
  | @added i j entry _ _ upper _ _ held accepted =>
      constructor
      · intro k inside
        by_cases here : k = i
        · rw [here, unscrambleWith_u, u.setSeed_here]
          exact .inr ⟨j, accepted.1, held⟩
        · rw [unscrambleWith_u, u.setSeed_elsewhere _ here]
          exact formed.entry k inside
      · rw [unscrambleWith_u, u.setSeed_elsewhere _ (Nat.ne_of_gt upper)]
        exact formed.sentinel

theorem Outcome.bruteforceSeeds (ended : Outcome disctype u zone inbuf outbuf result) :
    result.u.bruteforceSeeds = u.bruteforceSeeds := by
  cases ended <;> rfl

/-- A call that returns `true` has used a searched seed that fits every sector. -/
theorem Outcome.accepts (ended : Outcome disctype u zone inbuf outbuf result)
    (success : result.out = true) :
    ∃ j, Accepts inbuf j ∧
      (∀ k < 16, sectorSyndrome (decodedSector inbuf j.toUInt16 k) = 0) ∧
      result.frame = decodedFrame disctype j.toUInt16 inbuf outbuf 16 := by
  have used : ∃ j, Accepts inbuf j ∧
      result.frame = decodedFrame disctype j.toUInt16 inbuf outbuf 16 := by
    cases ended with
    | @cached i j _ _ _ held accepted => exact ⟨j, accepted, unscrambleWith_frame held⟩
    | @added i j entry _ _ _ _ _ held accepted => exact ⟨j, accepted, unscrambleWith_frame held⟩
    | rejected => exact absurd success Bool.false_ne_true
  obtain ⟨j, accepted, unscrambled⟩ := used
  rw [← Unscrambled.frame_out, unscrambled, decodedFrame_out_iff] at success
  exact ⟨j, accepted, success, unscrambled⟩

end Step

/-- What `unscrambler_new` and any calls after it can lead to. -/
inductive Reachable : Unscrambler → Prop
  | new (memory : Unscrambler) : Reachable (unscramblerNew memory)
  | unscramble {u : Unscrambler} (reachable : Reachable u) (disctype : UInt8) (sectorNo : UInt32)
      (inbuf outbuf : Buffer) :
      Reachable (unscramblerUnscramble16sectors disctype u sectorNo inbuf outbuf).u
  | setBruteforce {u : Unscrambler} (reachable : Reachable u) (b : Bool) :
      Reachable (unscramblerSetBruteforce u b)

theorem Reachable.formed {u : Unscrambler} (reachable : Reachable u) : SeedsWellFormed u := by
  induction reachable with
  | new memory => exact unscramblerNew_formed memory
  | unscramble _ _ _ _ _ formed => exact (outcome formed).formed formed
  | setBruteforce _ _ formed => exact ⟨formed.entry, formed.sentinel⟩

/-! ## Leaving the cache out -/

open Classical in
/-- What a call would do if it searched every time. -/
noncomputable def directFrame (disctype : UInt8) (inbuf outbuf : Buffer) : Frame :=
  if found : ∃ j, Accepts inbuf j then
    decodedFrame disctype found.choose.toUInt16 inbuf outbuf 16
  else { out := false, bin := inbuf, bout := outbuf }

section Direct

variable {disctype : UInt8} {u : Unscrambler} {zone : Nat} {inbuf outbuf : Buffer}
  {result : Unscrambled} {j : Nat}

theorem directFrame_of_accepts (accepted : Accepts inbuf j) :
    directFrame disctype inbuf outbuf = decodedFrame disctype j.toUInt16 inbuf outbuf 16 := by
  have found : ∃ j, Accepts inbuf j := ⟨j, accepted⟩
  rw [directFrame, dif_pos found, found.choose_spec.unique accepted]

theorem directFrame_of_rejects (rejects : ∀ j, ¬ Accepts inbuf j) :
    directFrame disctype inbuf outbuf = { out := false, bin := inbuf, bout := outbuf } :=
  dif_neg fun ⟨j, accepted⟩ => rejects j accepted

private theorem TSeed.Skipped.not_accepted {entry : TSeed} (skipped : entry.Skipped inbuf)
    (held : entry.Holds j) : ¬ Accepts inbuf j := by
  intro accepted
  have fails := skipped.2
  rw [held.toNat_seed, accepted.2] at fails
  cases fails

theorem Outcome.crowded (ended : Outcome disctype u zone inbuf outbuf result)
    (crowded : Crowded u zone inbuf) :
    result.frame = { out := false, bin := inbuf, bout := outbuf } := by
  cases ended with
  | cached lower upper _ held accepted =>
      exact absurd accepted ((crowded _ lower upper).not_accepted held)
  | added _ lower upper _ free =>
      have filled := (crowded _ lower upper).1
      rw [free] at filled
      exact absurd filled (by decide)
  | rejected => rfl

theorem Outcome.direct (ended : Outcome disctype u zone inbuf outbuf result)
    (enabled : u.bruteforceSeeds = true)
    (roomy : ∀ j, Accepts inbuf j → ¬ Crowded u zone inbuf) :
    result.frame = directFrame disctype inbuf outbuf := by
  cases ended with
  | cached _ _ _ held accepted =>
      rw [unscrambleWith_frame held, directFrame_of_accepts accepted]
  | added _ _ _ _ _ held accepted =>
      rw [unscrambleWith_frame held, directFrame_of_accepts accepted]
  | rejected reason =>
      rw [directFrame_of_rejects]
      · rfl
      · intro j accepted
        obtain disabled | rejects | crowded := reason
        · exact absurd (enabled.symm.trans disabled) (by decide)
        · exact rejects j accepted
        · exact roomy j accepted crowded

end Direct

theorem unscramblerNew_roomy (memory : Unscrambler) {zone : Nat} (inside : zone < 16)
    (inbuf : Buffer) : ¬ Crowded (unscramblerNew memory) zone inbuf := by
  intro crowded
  have filled := (crowded (zone * 4) (Nat.le_refl _) (by omega)).1
  rw [unscramblerNew_free memory (by omega)] at filled
  exact absurd filled (by decide)

theorem unscramblerNew_direct (memory : Unscrambler) (disctype : UInt8) (sectorNo : UInt32)
    (inbuf outbuf : Buffer) :
    (unscramblerUnscramble16sectors disctype (unscramblerNew memory) sectorNo inbuf outbuf).frame =
      directFrame disctype inbuf outbuf :=
  (outcome (unscramblerNew_formed memory)).direct rfl fun _ _ =>
    unscramblerNew_roomy memory (seedZone_lt sectorNo) inbuf

end Friidump
