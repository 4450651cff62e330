import Friidump.SeedCacheTransparency

/-!
# Interference between zones

The walk of a call does not stop at the end of its zone. What a zone cannot hold goes
to the zones behind it, and only a count of the seeds met keeps the zones apart.
-/

set_option autoImplicit false

namespace Friidump

/-- A seed fits the block, but the cache has no entry left for it. -/
def Blocked (u : Unscrambler) (zone : Nat) (inbuf : Buffer) : Prop :=
  Crowded u zone inbuf ∧ ∃ j < 0x7FFF, testSeed inbuf j = true

section Interference

variable {u u' : Unscrambler} {disctype : UInt8} {sectorNo : UInt32} {inbuf : Buffer}

private theorem frame_of_blocked (formed : SeedsWellFormed u)
    (blocked : Blocked u (seedZone sectorNo) inbuf) (outbuf : Buffer) :
    (Call.on ⟨disctype, sectorNo, inbuf, outbuf⟩ u).frame =
      { out := false, bin := inbuf, bout := outbuf } :=
  (Call.outcome formed ⟨disctype, sectorNo, inbuf, outbuf⟩).crowded blocked.1

private theorem frame_of_not_blocked (formed : SeedsWellFormed u)
    (enabled : u.bruteforceSeeds = true) (unblocked : ¬ Blocked u (seedZone sectorNo) inbuf)
    (outbuf : Buffer) :
    (Call.on ⟨disctype, sectorNo, inbuf, outbuf⟩ u).frame =
      directFrame disctype inbuf outbuf :=
  (Call.outcome formed ⟨disctype, sectorNo, inbuf, outbuf⟩).direct enabled fun j accepted crowded =>
    unblocked ⟨crowded, j, accepted.1, accepted.2⟩

private theorem directFrame_ne_rejected (disctype : UInt8) {inbuf : Buffer}
    (fits : ∃ j < 0x7FFF, testSeed inbuf j = true) :
    ∃ outbuf, directFrame disctype inbuf outbuf ≠
      { out := false, bin := inbuf, bout := outbuf } := by
  obtain ⟨j, small, passes⟩ := fits
  let first := decodedSector inbuf j.toUInt16 0 (dataOffset disctype + 0)
  refine ⟨fun _ => first + 1, fun same => ?_⟩
  rw [directFrame_of_accepts ⟨small, passes⟩] at same
  have written := congrFun (congrArg Frame.bout same) (2048 * 0 + 0)
  rw [decodedFrame_bout _ _ _ _ (by decide) (by decide)] at written
  have grown : first = first + 1 := written
  simp at grown

private theorem not_alike (formed : SeedsWellFormed u) (formed' : SeedsWellFormed u')
    (enabled' : u'.bruteforceSeeds = true) (blocked : Blocked u (seedZone sectorNo) inbuf)
    (unblocked : ¬ Blocked u' (seedZone sectorNo) inbuf) :
    ∃ outbuf, (Call.on ⟨disctype, sectorNo, inbuf, outbuf⟩ u).frame ≠
      (Call.on ⟨disctype, sectorNo, inbuf, outbuf⟩ u').frame := by
  obtain ⟨outbuf, differs⟩ := directFrame_ne_rejected disctype blocked.2
  refine ⟨outbuf, ?_⟩
  rw [frame_of_blocked formed blocked, frame_of_not_blocked formed' enabled' unblocked]
  exact differs.symm

end Interference

/-- After two histories a further block is treated alike exactly when the cache
is full for it after both of them or after neither. -/
theorem alike_iff_blocked (memory memory' : Unscrambler) (history history' : List Call)
    (disctype : UInt8) (sectorNo : UInt32) (inbuf : Buffer) :
    (∀ outbuf,
      (Call.on ⟨disctype, sectorNo, inbuf, outbuf⟩
        (runCalls (unscramblerNew memory) history)).frame =
      (Call.on ⟨disctype, sectorNo, inbuf, outbuf⟩
        (runCalls (unscramblerNew memory') history')).frame) ↔
    (Blocked (runCalls (unscramblerNew memory) history) (seedZone sectorNo) inbuf ↔
      Blocked (runCalls (unscramblerNew memory') history') (seedZone sectorNo) inbuf) := by
  have formed := runCalls_formed (unscramblerNew_formed memory) history
  have formed' := runCalls_formed (unscramblerNew_formed memory') history'
  have enabled : _ = true := runCalls_bruteforceSeeds (unscramblerNew_formed memory) history
  have enabled' : _ = true := runCalls_bruteforceSeeds (unscramblerNew_formed memory') history'
  generalize runCalls (unscramblerNew memory) history = u at *
  generalize runCalls (unscramblerNew memory') history' = u' at *
  constructor
  · intro alike
    constructor
    · intro blocked
      by_contra unblocked
      obtain ⟨outbuf, differs⟩ := not_alike formed formed' enabled' blocked unblocked
      exact differs (alike outbuf)
    · intro blocked
      by_contra unblocked
      obtain ⟨outbuf, differs⟩ := not_alike formed' formed enabled blocked unblocked
      exact differs (alike outbuf).symm
  · intro same outbuf
    by_cases blocked : Blocked u (seedZone sectorNo) inbuf
    · rw [frame_of_blocked formed blocked, frame_of_blocked formed' (same.mp blocked)]
    · rw [frame_of_not_blocked formed enabled blocked,
        frame_of_not_blocked formed' enabled' (blocked ∘ same.mpr)]

/-! ## Blocks of zeros -/

/-- What `malloc` may have returned. -/
def blankUnscrambler : Unscrambler := ⟨fun _ => ⟨0, fun _ => 0⟩, false⟩

def zeroCall (sectorNo : UInt32) (seed : Nat) : Call :=
  ⟨3, sectorNo, scrambledBlock (fun _ _ => 0) (BitVec.ofNat 15 seed), fun _ => 0⟩

/-- Blocks of zone 14 with the seeds 1, 2 and so on. -/
def crowdingCalls (count : Nat) : List Call := (List.range count).map fun k => zeroCall 224 (k + 1)

private theorem zeroCall_accepts (sectorNo : UInt32) {seed : Nat} (small : seed < 0x7FFF) (j : Nat) :
    Accepts (zeroCall sectorNo seed).inbuf j ↔ j = seed := by
  have value : (BitVec.ofNat 15 seed).toNat = seed := by
    rw [BitVec.toNat_ofNat, Nat.mod_eq_of_lt (Nat.lt_succ_of_lt small)]
  rw [zeroCall, accepts_scrambledBlock, value]
  exact ⟨And.right, fun same => ⟨same ▸ small, same⟩⟩

private theorem zeroCall_zone (seed : Nat) : (zeroCall 224 seed).zone = 14 :=
  (by decide : seedZone 224 = 14)

private theorem crowdingCalls_elsewhere (count : Nat) :
    ∀ call ∈ crowdingCalls count, ¬ decide (call.zone = (zeroCall 240 9).zone) = true := by
  intro call member
  obtain ⟨k, _, rfl⟩ := List.mem_map.mp member
  rw [zeroCall_zone]
  decide

private theorem zeroCall_fresh :
    ((zeroCall 240 9).on (unscramblerNew blankUnscrambler)).out = true := by
  have fits := (zeroCall_accepts 240 (by decide) 9).mpr rfl
  rw [← Unscrambled.frame_out, Call.on_new, directFrame_of_accepts fits, decodedFrame_out_iff]
  intro k _
  rw [toUInt16_eq_seedOf (by decide)]
  exact (decodedSector_passes_iff (fun _ _ => 0) (BitVec.ofNat 15 9) (BitVec.ofNat 15 9) k).mpr rfl

/-! ## Whose the entries are -/

/-- Every taken entry was taken by a call of a zone that begins before it, for a seed that
the walk of this call had not met on its way. -/
structure Owned (u : Unscrambler) (owner : Nat → Nat) (calls : List Call) : Prop where
  met : ∀ k < 64, 0 ≤ (u.seeds k).seed →
    ∃ call ∈ calls, call.zone = owner k ∧ Accepts call.inbuf (u.seeds k).seed.toNat
  start : ∀ k < 64, 0 ≤ (u.seeds k).seed → owner k * 4 ≤ k
  walked : ∀ i k, owner k * 4 ≤ i → i < k → k < 64 → 0 ≤ (u.seeds k).seed →
    0 ≤ (u.seeds i).seed ∧ (u.seeds i).seed ≠ (u.seeds k).seed

theorem unscramblerNew_owned (memory : Unscrambler) (owner : Nat → Nat) (calls : List Call) :
    Owned (unscramblerNew memory) owner calls := by
  have free : ∀ k < 64, ¬ 0 ≤ ((unscramblerNew memory).seeds k).seed := by
    intro k inside
    rw [unscramblerNew_free memory inside]
    decide
  exact ⟨fun k inside filled => absurd filled (free k inside),
    fun k inside filled => absurd filled (free k inside),
    fun _ k _ _ inside filled => absurd filled (free k inside)⟩

section Owners

variable {u : Unscrambler} {owner : Nat → Nat} {calls : List Call} {call : Call}

private theorem Owned.setSeed {i j : Nat} {entry : TSeed} (owned : Owned u owner calls)
    (member : call ∈ calls) (lower : call.zone * 4 ≤ i)
    (skipped : ∀ k, call.zone * 4 ≤ k → k < i → (u.seeds k).Skipped call.inbuf)
    (free : (u.seeds i).seed = -1) (held : entry.Holds j) (accepted : Accepts call.inbuf j) :
    Owned (u.setSeed i entry) (fun k => if k = i then call.zone else owner k) calls := by
  have here := u.setSeed_here i entry
  have kept : ∀ k, k ≠ i → (u.setSeed i entry).seeds k = u.seeds k :=
    fun _ => u.setSeed_elsewhere entry
  have vacant : ¬ 0 ≤ (u.seeds i).seed := by
    rw [free]
    decide
  constructor
  · intro k inside filled
    by_cases same : k = i
    · subst same
      rw [if_pos rfl, here, held.number, Int.toNat_natCast]
      exact ⟨call, member, rfl, accepted⟩
    · rw [kept k same] at filled ⊢
      rw [if_neg same]
      exact owned.met k inside filled
  · intro k inside filled
    by_cases same : k = i
    · rw [if_pos same, same]
      exact lower
    · rw [kept k same] at filled
      rw [if_neg same]
      exact owned.start k inside filled
  · intro l k atLeast before inside filled
    by_cases same : k = i
    · rw [if_pos same] at atLeast
      have passed := skipped l atLeast (same ▸ before)
      rw [kept l (by omega), same, here, held.number]
      refine ⟨passed.1, fun alike => ?_⟩
      have fails := passed.2
      rw [alike, Int.toNat_natCast, accepted.2] at fails
      cases fails
    · rw [if_neg same] at atLeast
      rw [kept k same] at filled ⊢
      have walked := owned.walked l k atLeast before inside filled
      rw [kept l fun taken => vacant (taken ▸ walked.1)]
      exact walked

theorem Owned.next (owned : Owned u owner calls) (formed : SeedsWellFormed u) (member : call ∈ calls) :
    ∃ owner', Owned (call.on u).u owner' calls := by
  have ended := call.outcome formed
  generalize call.on u = result at ended
  cases ended with
  | cached => exact ⟨owner, owned⟩
  | rejected => exact ⟨owner, owned⟩
  | added _ lower _ skipped free held accepted =>
      exact ⟨_, owned.setSeed member lower skipped free held accepted⟩

theorem Owned.run (owned : Owned u owner calls) (formed : SeedsWellFormed u) {rest : List Call}
    (members : rest ⊆ calls) : ∃ owner', Owned (runCalls u rest) owner' calls := by
  induction rest generalizing u owner with
  | nil => exact ⟨owner, owned⟩
  | cons call rest ih =>
      obtain ⟨member, later⟩ := List.cons_subset.mp members
      obtain ⟨owner', owned'⟩ := owned.next formed member
      exact ih owned' ((call.outcome formed).formed formed) later

/-! ## Too few seeds to get past a zone -/

/-- At most `n` seeds fit the blocks of the zones from `y` up to before `t`, those of
different zones counted apart. -/
def FewSeeds (calls : List Call) (y t n : Nat) : Prop :=
  ∃ pairs : List (Nat × Nat), pairs.length ≤ n ∧
    ∀ call ∈ calls, y ≤ call.zone → call.zone < t →
      ∀ j, Accepts call.inbuf j → (call.zone, j) ∈ pairs

/-- Taken entries up to an end were taken from some zone on, and by nobody before it. -/
private theorem Owned.origin (owned : Owned u owner calls) {t : Nat} (inside : t ≤ 16) (z : Nat)
    (taken : ∀ i, z * 4 ≤ i → i < t * 4 → 0 ≤ (u.seeds i).seed) :
    ∃ y ≤ z, ∀ i, y * 4 ≤ i → i < t * 4 → 0 ≤ (u.seeds i).seed ∧ y ≤ owner i := by
  induction z using Nat.strongRecOn with
  | ind z ih =>
      by_cases own : ∀ i, z * 4 ≤ i → i < t * 4 → z ≤ owner i
      · exact ⟨z, Nat.le_refl z, fun i lower upper => ⟨taken i lower upper, own i lower upper⟩⟩
      · -- An entry taken by an earlier zone is reached only past the entries of that zone.
        obtain ⟨k, lower, upper, later⟩ : ∃ k, z * 4 ≤ k ∧ k < t * 4 ∧ ¬ z ≤ owner k := by
          simpa using own
        have earlier : owner k < z := Nat.not_le.mp later
        have filled := taken k lower upper
        obtain ⟨y, before, whole⟩ := ih (owner k) earlier fun i first last => by
          by_cases passed : i < k
          · exact (owned.walked i k first passed (by omega) filled).1
          · exact taken i (by omega) last
        exact ⟨y, Nat.le_trans before (Nat.le_of_lt earlier), whole⟩

private theorem Owned.pairs_nodup (owned : Owned u owner calls) {y t : Nat} (inside : t ≤ 16)
    (taken : ∀ i, y * 4 ≤ i → i < t * 4 → 0 ≤ (u.seeds i).seed) :
    ((List.range' (y * 4) (4 * (t - y))).map fun i => (owner i, (u.seeds i).seed.toNat)).Nodup := by
  have apart : ∀ i k, y * 4 ≤ i → i < k → k < t * 4 → owner i = owner k →
      (u.seeds i).seed.toNat ≠ (u.seeds k).seed.toNat := by
    intro i k lower before upper same alike
    have start := owned.start i (by omega) (taken i lower (by omega))
    have walked := owned.walked i k (same ▸ start) before (by omega) (taken k (by omega) upper)
    have filled := taken k (by omega) upper
    omega
  refine List.Nodup.map_on ?_ List.nodup_range'
  intro i memberI k memberK same
  obtain ⟨sameOwner, sameSeed⟩ := Prod.mk.injEq .. ▸ same
  obtain ⟨lowerI, upperI⟩ := List.mem_range'_1.mp memberI
  obtain ⟨lowerK, upperK⟩ := List.mem_range'_1.mp memberK
  obtain before | here | after := Nat.lt_trichotomy i k
  · exact absurd sameSeed (apart i k lowerI before (by omega) sameOwner)
  · exact here
  · exact absurd sameSeed.symm (apart k i lowerK after (by omega) sameOwner.symm)

/-- With no more seeds than entries, a block that fits a seed does not get past the entries. -/
theorem Owned.room (owned : Owned u owner calls) (member : call ∈ calls) {t j : Nat}
    (before : call.zone < t) (inside : t ≤ 16)
    (few : ∀ y ≤ call.zone, FewSeeds calls y t (4 * (t - y))) (accepted : Accepts call.inbuf j) :
    ¬ ∀ i, call.zone * 4 ≤ i → i < t * 4 → (u.seeds i).Skipped call.inbuf := by
  intro skipped
  obtain ⟨y, early, whole⟩ := owned.origin inside call.zone fun i lower upper =>
    (skipped i lower upper).1
  obtain ⟨pairs, short, known⟩ := few y early
  have nodup := owned.pairs_nodup (y := y) inside fun i lower upper => (whole i lower upper).1
  have fresh : (call.zone, j) ∉
      (List.range' (y * 4) (4 * (t - y))).map fun i => (owner i, (u.seeds i).seed.toNat) := by
    intro found
    obtain ⟨i, place, same⟩ := List.mem_map.mp found
    obtain ⟨sameOwner, sameSeed⟩ := Prod.mk.injEq .. ▸ same
    obtain ⟨lower, upper⟩ := List.mem_range'_1.mp place
    have start := owned.start i (by omega) (whole i lower (by omega)).1
    have fails := (skipped i (sameOwner ▸ start) (by omega)).2
    rw [sameSeed, accepted.2] at fails
    cases fails
  have contained : (call.zone, j) ::
      ((List.range' (y * 4) (4 * (t - y))).map fun i => (owner i, (u.seeds i).seed.toNat)) ⊆ pairs := by
    refine List.cons_subset.mpr ⟨known call member early before j accepted, fun pair found => ?_⟩
    obtain ⟨i, place, rfl⟩ := List.mem_map.mp found
    obtain ⟨lower, upper⟩ := List.mem_range'_1.mp place
    obtain ⟨filled, own⟩ := whole i lower (by omega)
    obtain ⟨met, memberMet, zone, fits⟩ := owned.met i (by omega) filled
    rw [← zone] at own ⊢
    refine known met memberMet own ?_ _ fits
    have start := owned.start i (by omega) filled
    omega
  have long := (List.subperm_of_subset (List.nodup_cons.mpr ⟨fresh, nodup⟩) contained).length_le
  rw [List.length_cons, List.length_map, List.length_range'] at long
  omega

end Owners

/-! ## The zone that is fenced in -/

/-- Zone 15 has the same seeds in both caches. -/
def SameLast (u u' : Unscrambler) : Prop :=
  ∀ i, 60 ≤ i → i < 64 → (u'.seeds i).seed = (u.seeds i).seed

section Last

variable {u u' : Unscrambler} {call : Call}

private theorem SameLast.skipped (same : SameLast u u') {inbuf : Buffer} {i : Nat} (lower : 60 ≤ i)
    (upper : i < 64) : (u'.seeds i).Skipped inbuf ↔ (u.seeds i).Skipped inbuf := by
  rw [TSeed.Skipped, TSeed.Skipped, same i lower upper]

private theorem SameLast.crowded (same : SameLast u u') (inbuf : Buffer) :
    Crowded u' 15 inbuf ↔ Crowded u 15 inbuf :=
  forall_congr' fun _ => forall_congr' fun lower => forall_congr' fun upper =>
    same.skipped lower upper

/-- The entry that a call takes, and the seed it takes it for. -/
private structure Takes (u : Unscrambler) (call : Call) (i j : Nat) : Prop where
  lower : call.zone * 4 ≤ i
  upper : i < 64
  skipped : ∀ k, call.zone * 4 ≤ k → k < i → (u.seeds k).Skipped call.inbuf
  free : (u.seeds i).seed = -1
  accepted : Accepts call.inbuf j

private theorem Takes.unique {i j i' j' : Nat} (takes : Takes u call i j) (takes' : Takes u call i' j') :
    i = i' ∧ j = j' := by
  have first : ∀ {i j i' j'}, Takes u call i j → Takes u call i' j' → ¬ i < i' := by
    intro i j i' j' takes takes' before
    have filled := (takes'.skipped i takes.lower before).1
    rw [takes.free] at filled
    exact absurd filled (by decide)
  have before := first takes takes'
  have behind := first takes' takes
  exact ⟨by omega, takes.accepted.unique takes'.accepted⟩

/-- What a call does to the seeds of the cache. -/
private inductive Marks (u : Unscrambler) (call : Call) (u' : Unscrambler) : Prop
  | taken {i j : Nat} (takes : Takes u call i j)
      (seeds : ∀ k, (u'.seeds k).seed = if k = i then (j : Int) else (u.seeds k).seed)
  | kept (none : ∀ i j, ¬ Takes u call i j) (seeds : ∀ k, (u'.seeds k).seed = (u.seeds k).seed)

private theorem Call.marks (call : Call) (formed : SeedsWellFormed u) (enabled : u.bruteforceSeeds = true) :
    Marks u call (call.on u).u := by
  have ended := call.outcome formed
  generalize call.on u = result at ended
  cases ended with
  | @cached i j lower upper skipped held accepted =>
      refine .kept (fun k l takes => ?_) fun _ => rfl
      obtain before | here | after := Nat.lt_trichotomy k i
      · have filled := (skipped k takes.lower before).1
        rw [takes.free] at filled
        exact absurd filled (by decide)
      · have free := takes.free
        rw [here, held.number] at free
        omega
      · have fails := (takes.skipped i lower after).2
        rw [held.number, Int.toNat_natCast, accepted.2] at fails
        cases fails
  | rejected reason =>
      refine .kept (fun i j takes => ?_) fun _ => rfl
      obtain disabled | rejects | crowded := reason
      · exact absurd (enabled.symm.trans disabled) (by decide)
      · exact rejects j takes.accepted
      · have filled := (crowded i takes.lower takes.upper).1
        rw [takes.free] at filled
        exact absurd filled (by decide)
  | @added i j entry _ lower upper skipped free held accepted =>
      refine .taken ⟨lower, upper, skipped, free, accepted⟩ fun k => ?_
      rw [unscrambleWith_u]
      by_cases here : k = i
      · rw [here, u.setSeed_here, held.number, if_pos rfl]
      · rw [u.setSeed_elsewhere _ here, if_neg here]

private theorem SameLast.takes (same : SameLast u u') (last : call.zone = 15) {i j : Nat} :
    Takes u' call i j ↔ Takes u call i j := by
  have entries : ∀ {v v' : Unscrambler}, SameLast v v' → Takes v call i j → Takes v' call i j := by
    rintro v v' same ⟨lower, upper, skipped, free, accepted⟩
    refine ⟨lower, upper, fun k first before => ?_, ?_, accepted⟩
    · exact (same.skipped (by omega) (by omega)).mpr (skipped k first before)
    · rw [same i (by omega) upper, free]
  exact ⟨entries fun k lower upper => (same k lower upper).symm, entries same⟩

/-- Alike caches stay alike over a call of the last zone. -/
theorem SameLast.next (same : SameLast u u') (formed : SeedsWellFormed u) (formed' : SeedsWellFormed u')
    (enabled : u.bruteforceSeeds = true) (enabled' : u'.bruteforceSeeds = true) (last : call.zone = 15) :
    SameLast (call.on u).u (call.on u').u := by
  intro k lower upper
  have here := same k lower upper
  cases call.marks formed enabled with
  | kept none seeds =>
      cases call.marks formed' enabled' with
      | kept _ seeds' => rw [seeds, seeds', here]
      | taken takes' => exact absurd ((same.takes last).mp takes') (none _ _)
  | taken takes seeds =>
      cases call.marks formed' enabled' with
      | kept none' => exact absurd ((same.takes last).mpr takes) (none' _ _)
      | taken takes' seeds' =>
          obtain ⟨rfl, rfl⟩ := takes.unique ((same.takes last).mp takes')
          rw [seeds, seeds', here]

/-- The zones before zone `z` have no more seeds than entries, whichever of them one begins with. -/
def Fenced (calls : List Call) (z : Nat) : Prop := ∀ y < z, FewSeeds calls y z (4 * (z - y))

theorem Owned.sameLast {owner : Nat → Nat} {calls : List Call} (owned : Owned u owner calls)
    (formed : SeedsWellFormed u) (enabled : u.bruteforceSeeds = true) (member : call ∈ calls)
    (fenced : Fenced calls 15) (early : call.zone ≠ 15) : SameLast u (call.on u).u := by
  intro k lower upper
  have zone : call.zone < 15 := Nat.lt_of_le_of_ne (Nat.le_of_lt_succ (seedZone_lt _)) early
  cases call.marks formed enabled with
  | kept _ seeds => exact seeds k
  | @taken i j takes seeds =>
      rw [seeds, if_neg]
      rintro rfl
      refine owned.room member zone (by decide) (fun y before => fenced y (by omega)) takes.accepted ?_
      exact fun l first before => takes.skipped l first (by omega)

/-- Where the other zones stay out of the last one, only its own calls count for it. -/
theorem runCalls_sameLast {owner : Nat → Nat} {calls rest : List Call} (owned : Owned u owner calls)
    (same : SameLast u u') (formed : SeedsWellFormed u) (formed' : SeedsWellFormed u')
    (enabled : u.bruteforceSeeds = true) (enabled' : u'.bruteforceSeeds = true)
    (fenced : Fenced calls 15) (members : rest ⊆ calls) :
    SameLast (runCalls u rest) (runCalls u' (rest.filter fun call => call.zone = 15)) := by
  induction rest generalizing u u' owner with
  | nil => exact same
  | cons call rest ih =>
      obtain ⟨member, later⟩ := List.cons_subset.mp members
      obtain ⟨owner', owned'⟩ := owned.next formed member
      have ended := call.outcome formed
      have formed₁ := ended.formed formed
      have enabled₁ := ended.bruteforceSeeds.trans enabled
      by_cases last : call.zone = 15
      · have ended' := call.outcome formed'
        rw [List.filter_cons_of_pos (by simpa using last)]
        exact ih owned' (same.next formed formed' enabled enabled' last) formed₁
          (ended'.formed formed') enabled₁ (ended'.bruteforceSeeds.trans enabled') later
      · have kept := owned.sameLast formed enabled member fenced last
        rw [List.filter_cons_of_neg (by simpa using last)]
        refine ih owned' (fun i lower upper => ?_) formed₁ formed' enabled₁ enabled' later
        rw [kept i lower upper, same i lower upper]

end Last

/-! ## Zones kept apart by the seeds met -/

/-- Up to before some zone behind it, the zones have no more seeds than entries, the block of
the call included, whichever of the zones up to that of the call one begins with. -/
def Roomy (calls : List Call) (call : Call) : Prop :=
  ∃ t, call.zone < t ∧ t ≤ 16 ∧ ∀ y ≤ call.zone, FewSeeds (call :: calls) y t (4 * (t - y))

theorem Roomy.not_blocked {calls : List Call} {call : Call} (roomy : Roomy calls call)
    (memory : Unscrambler) : ¬ Blocked (runCalls (unscramblerNew memory) calls) call.zone call.inbuf := by
  rintro ⟨crowded, j, small, passes⟩
  obtain ⟨t, before, inside, few⟩ := roomy
  obtain ⟨owner, owned⟩ := (unscramblerNew_owned memory (fun _ => 0) (call :: calls)).run
    (unscramblerNew_formed memory) (List.subset_cons_self call calls)
  refine owned.room List.mem_cons_self before inside few ⟨small, passes⟩ ?_
  exact fun i lower upper => crowded i lower (by omega)

private theorem Fenced.sameLast {calls : List Call} (fenced : Fenced calls 15)
    (memory memory' : Unscrambler) :
    SameLast (runCalls (unscramblerNew memory) calls)
      (runCalls (unscramblerNew memory') (calls.filter fun call => call.zone = 15)) := by
  refine runCalls_sameLast (unscramblerNew_owned memory (fun _ => 0) calls) (fun i _ upper => ?_)
    (unscramblerNew_formed memory) (unscramblerNew_formed memory') rfl rfl fenced (List.Subset.refl calls)
  rw [unscramblerNew_free memory upper, unscramblerNew_free memory' upper]

/-- After two histories with the same blocks of its zone a further block is treated alike, where
after both of them its zone and those behind it have room for its seed, or where no other zone
has got to the last one, or where no seed fits it. -/
theorem zones_apart (memory memory' : Unscrambler) (history history' : List Call) (call : Call)
    (same : history.filter (fun other => other.zone = call.zone) =
      history'.filter fun other => other.zone = call.zone)
    (apart : (∀ j, ¬ Accepts call.inbuf j) ∨ Roomy history call ∧ Roomy history' call ∨
      call.zone = 15 ∧ Fenced history 15 ∧ Fenced history' 15) :
    (call.on (runCalls (unscramblerNew memory) history)).frame =
      (call.on (runCalls (unscramblerNew memory') history')).frame := by
  obtain ⟨disctype, sectorNo, inbuf, outbuf⟩ := call
  refine (alike_iff_blocked memory memory' history history' disctype sectorNo inbuf).mpr ?_ outbuf
  rcases apart with rejects | ⟨roomy, roomy'⟩ | ⟨last, fenced, fenced'⟩
  · have never : ∀ u, ¬ Blocked u (seedZone sectorNo) inbuf := fun u blocked =>
      blocked.2.elim fun j fits => rejects j fits
    exact iff_of_false (never _) (never _)
  · exact iff_of_false (roomy.not_blocked memory) (roomy'.not_blocked memory')
  · have zone : seedZone sectorNo = 15 := last
    rw [last] at same
    have left := fenced.sameLast memory memory
    have right := fenced'.sameLast memory' memory
    rw [← same] at right
    rw [zone, Blocked, Blocked, ← left.crowded, ← right.crowded]

private theorem crowdingCalls_roomy {count : Nat} (few : count ≤ 7) :
    Roomy (crowdingCalls count) (zeroCall 240 9) := by
  have zone : (zeroCall 240 9).zone = 15 := (by decide : seedZone 240 = 15)
  refine ⟨16, by rw [zone]; decide, Nat.le_refl 16, fun y early => ?_⟩
  rw [zone] at early
  refine ⟨(15, 9) :: if y = 15 then [] else (List.range count).map fun k => (14, k + 1), ?_, ?_⟩
  · rw [List.length_cons]
    split
    · rw [List.length_nil]
      omega
    · rw [List.length_map, List.length_range]
      omega
  · intro call member later _ j accepted
    rcases List.mem_cons.mp member with rfl | member
    · rw [zone, (zeroCall_accepts 240 (by decide) j).mp accepted]
      exact List.mem_cons_self
    · obtain ⟨k, inside, rfl⟩ := List.mem_map.mp member
      have below := List.mem_range.mp inside
      rw [zeroCall_zone] at later ⊢
      rw [(zeroCall_accepts 224 (by omega) j).mp accepted, if_neg (by omega)]
      exact List.mem_cons_of_mem _ (List.mem_map_of_mem inside)

/-- Seven seeds of zone 14 leave room in zone 15. -/
theorem zones_apart_seven :
    ((zeroCall 240 9).on (runCalls (unscramblerNew blankUnscrambler) (crowdingCalls 7))).frame =
        ((zeroCall 240 9).on (runCalls (unscramblerNew blankUnscrambler) [])).frame ∧
      ((zeroCall 240 9).on (runCalls (unscramblerNew blankUnscrambler) [])).out = true := by
  refine ⟨zones_apart blankUnscrambler blankUnscrambler (crowdingCalls 7) [] (zeroCall 240 9) ?_
    (.inr (.inl ⟨?_, ?_⟩)), zeroCall_fresh⟩
  · exact List.filter_eq_nil_iff.mpr (crowdingCalls_elsewhere 7)
  · exact crowdingCalls_roomy (Nat.le_refl 7)
  · exact crowdingCalls_roomy (Nat.zero_le 7)

/-! ### Nine seeds in two zones -/

/-- The entries from zone 14 on after its first `count` seeds. -/
structure Crowding (u : Unscrambler) (count : Nat) : Prop where
  held : ∀ i < count, (u.seeds (56 + i)).Holds (i + 1)
  free : ∀ i, count ≤ i → i < 8 → (u.seeds (56 + i)).seed = -1

private theorem Crowding.next {u : Unscrambler} {count : Nat} {disctype : UInt8}
    {inbuf outbuf : Buffer} {result : Unscrambled} (crowding : Crowding u count)
    (few : count < 8) (enabled : u.bruteforceSeeds = true) (fits : ∀ j, Accepts inbuf j ↔ j = count + 1)
    (ended : Outcome disctype u 14 inbuf outbuf result) : Crowding result.u (count + 1) := by
  have notSkipped : ∀ i, count ≤ i → i < 8 → ¬ (u.seeds (56 + i)).Skipped inbuf := by
    intro i lower upper skipped
    have filled := skipped.1
    rw [crowding.free i lower upper] at filled
    exact absurd filled (by decide)
  cases ended with
  | @cached k j lower upper _ held accepted =>
      obtain ⟨i, rfl⟩ := Nat.exists_eq_add_of_le lower
      have seed := held.number
      rw [(fits j).mp accepted] at seed
      by_cases taken : i < count
      · have earlier := (crowding.held i taken).number.symm.trans seed
        omega
      · have empty := (crowding.free i (by omega) (by omega)).symm.trans seed
        omega
  | rejected reason =>
      obtain disabled | rejects | crowded := reason
      · exact absurd (enabled.symm.trans disabled) (by decide)
      · exact absurd ((fits _).mpr rfl) (rejects _)
      · exact absurd (crowded (56 + count) (by omega) (by omega))
          (notSkipped count (Nat.le_refl _) few)
  | @added k j entry _ lower upper skipped free held accepted =>
      obtain ⟨i, rfl⟩ := Nat.exists_eq_add_of_le lower
      have next : i = count := by
        obtain before | here | after := Nat.lt_trichotomy i count
        · have taken := (crowding.held i before).number.symm.trans free
          omega
        · exact here
        · exact absurd (skipped (56 + count) (by omega) (by omega))
            (notSkipped count (Nat.le_refl _) few)
      subst next
      constructor
      · intro k below
        by_cases here : k = i
        · rw [here, ← (fits j).mp accepted, unscrambleWith_u, u.setSeed_here]
          exact held
        · rw [unscrambleWith_u, u.setSeed_elsewhere _ (by omega)]
          exact crowding.held k (by omega)
      · intro k above inside
        rw [unscrambleWith_u, u.setSeed_elsewhere _ (by omega)]
        exact crowding.free k (by omega) inside

theorem crowdingCalls_crowding (count : Nat) (few : count ≤ 8) :
    Crowding (runCalls (unscramblerNew blankUnscrambler) (crowdingCalls count)) count := by
  induction count with
  | zero => exact ⟨nofun, fun i _ inside => unscramblerNew_free blankUnscrambler (by omega)⟩
  | succ count ih =>
      have formed := runCalls_formed (unscramblerNew_formed blankUnscrambler) (crowdingCalls count)
      have enabled : _ = true :=
        runCalls_bruteforceSeeds (unscramblerNew_formed blankUnscrambler) (crowdingCalls count)
      have grown : crowdingCalls (count + 1) =
          crowdingCalls count ++ [zeroCall 224 (count + 1)] := by
        rw [crowdingCalls, List.range_succ, List.map_append]
        rfl
      rw [grown, runCalls_append]
      have ended := Call.outcome formed (zeroCall 224 (count + 1))
      rw [zeroCall_zone] at ended
      exact (ih (Nat.le_of_succ_le few)).next few enabled
        (zeroCall_accepts 224 (by omega)) ended

theorem Crowding.ends {u : Unscrambler} (crowding : Crowding u 8) :
    (u.seeds 56).Holds 1 ∧ (u.seeds 63).Holds 8 :=
  ⟨crowding.held 0 (by decide), crowding.held 7 (by decide)⟩

private theorem Crowding.crowded {u : Unscrambler} (crowding : Crowding u 8) :
    Crowded u (zeroCall 240 9).zone (zeroCall 240 9).inbuf := by
  intro k lower upper
  obtain ⟨i, rfl⟩ := Nat.exists_eq_add_of_le (Nat.le_trans (by decide : 56 ≤ 15 * 4) lower)
  have held := crowding.held i (by omega)
  refine ⟨?_, Bool.eq_false_iff.mpr fun passes => ?_⟩
  · rw [held.number]
    exact Int.natCast_nonneg _
  · rw [held.number, Int.toNat_natCast] at passes
    have same := (zeroCall_accepts 240 (by decide) _).mp ⟨(by omega : i + 1 < 0x7FFF), passes⟩
    omega

/-- Eight seeds met in zone 14 leave no entry for the first seed of zone 15. -/
theorem zones_interfere :
    ([] : List Call).filter (fun call => call.zone = 15) =
        (crowdingCalls 8).filter (fun call => call.zone = 15) ∧
      ((zeroCall 240 9).on (runCalls (unscramblerNew blankUnscrambler) [])).out = true ∧
      ((zeroCall 240 9).on (runCalls (unscramblerNew blankUnscrambler) (crowdingCalls 8))).out = false := by
  refine ⟨?_, zeroCall_fresh, ?_⟩
  · exact (List.filter_eq_nil_iff.mpr (crowdingCalls_elsewhere 8)).symm
  · have formed := runCalls_formed (unscramblerNew_formed blankUnscrambler) (crowdingCalls 8)
    have crowded := (crowdingCalls_crowding 8 (Nat.le_refl 8)).crowded
    have shown := (Call.outcome formed (zeroCall 240 9)).crowded crowded
    rw [← Unscrambled.frame_out, shown]

end Friidump
