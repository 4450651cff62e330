import Friidump.DiscProperties

/-!
# What methods 7 to 9 do to the disc

Both unscrambling loops fill the arrays block by block, each leaving the
blocks before its own alone; the caching loop stops where they stopped.
-/

set_option autoImplicit false

namespace Friidump

section Reading

variable {σ : Type} {w w' w₁ : World σ} {arrays arrays' arrays₁ : Locals} {sectorNo : UInt32}
  {left j c : Nat} {out : Bool}

/-- Block `j` of the two arrays is as the unscrambler handed it over. -/
def Locals.Ready (arrays : Locals) (disctype : UInt8) (j : Nat) : Prop :=
  ∃ inbuf seed, Handed disctype inbuf (arrays.buf.advance (j * 33024))
    (arrays.bufUnscrambled.advance (j * 32768)) seed

/-- The blocks before block `j` are the same. -/
structure Kept (j : Nat) (arrays arrays' : Locals) : Prop where
  buf : ∀ a < j * 33024, arrays'.buf a = arrays.buf a
  bufUnscrambled : ∀ a < j * 32768, arrays'.bufUnscrambled a = arrays.bufUnscrambled a

theorem Kept.refl (j : Nat) (arrays : Locals) : Kept j arrays arrays :=
  ⟨fun _ _ => rfl, fun _ _ => rfl⟩

theorem Kept.trans (first : Kept j arrays arrays₁) (second : Kept j arrays₁ arrays') :
    Kept j arrays arrays' where
  buf a below := (second.buf a below).trans (first.buf a below)
  bufUnscrambled a below := (second.bufUnscrambled a below).trans (first.bufUnscrambled a below)

theorem Kept.earlier (kept : Kept (j + 1) arrays arrays') : Kept j arrays arrays' where
  buf a below := kept.buf a (Nat.lt_of_lt_of_le below (Nat.mul_le_mul_right _ (Nat.le_succ j)))
  bufUnscrambled a below :=
    kept.bufUnscrambled a (Nat.lt_of_lt_of_le below (Nat.mul_le_mul_right _ (Nat.le_succ j)))

theorem Kept.splice (arrays : Locals) {offset : Nat} (beyond : j * 33024 ≤ offset) (buf : Buffer) :
    Kept j arrays { arrays with buf := arrays.buf.splice offset buf } where
  buf _ below := Buffer.splice_below _ _ (Nat.lt_of_lt_of_le below beyond)
  bufUnscrambled _ _ := rfl

theorem Kept.ready {disctype : UInt8} (kept : Kept j arrays arrays') (below : c < j)
    (ready : arrays.Ready disctype c) : arrays'.Ready disctype c := by
  obtain ⟨inbuf, seed, handed⟩ := ready
  refine ⟨inbuf, seed, handed.congr (fun _ _ => rfl) (fun a inside => ?_) (fun a inside => ?_)⟩
  · exact kept.buf _ (Buffer.position_lt below inside)
  · exact kept.bufUnscrambled _ (Buffer.position_lt below inside)

/-! ## Unscrambling block by block -/

theorem Quiet.beforeEnd (quiet : Quiet w w') (sectorNo : UInt32) (j : Nat) :
    beforeEnd w' sectorNo j = beforeEnd w sectorNo j := by
  unfold Friidump.beforeEnd
  rw [quiet.disc]

theorem unscrambleLocal_quiet (sectorNo : UInt32) (j : Nat) (w : World σ) (arrays : Locals) :
    Quiet w (unscrambleLocal sectorNo j w arrays).1 :=
  .unscrambleAt w _ _ _ _

theorem unscrambleLocal_kept (sectorNo : UInt32) (j : Nat) (formed : SeedsWellFormed w.disc.u)
    (arrays : Locals) : Kept j arrays (unscrambleLocal sectorNo j w arrays).2.1 where
  buf _ below := unscrambleAt_buf_outside formed (.inl below)
  bufUnscrambled _ below := unscrambleAt_bufUnscrambled_outside formed (.inl below)

theorem unscrambleLocal_ready (formed : SeedsWellFormed w.disc.u)
    (success : (unscrambleLocal sectorNo j w arrays).2.2 = true) :
    (unscrambleLocal sectorNo j w arrays).2.1.Ready w.disctype j := by
  obtain ⟨seed, handed⟩ := unscrambleAt_handed formed success
  exact ⟨_, seed, handed⟩

/-- From block `j` on, up to the first one behind the end of the disc, the blocks are ready. -/
def Locals.ReadyFrom (arrays : Locals) (w : World σ) (sectorNo : UInt32) (left j : Nat) : Prop :=
  ∀ c, j ≤ c → c < j + left → (∀ i, j ≤ i → i ≤ c → beforeEnd w sectorNo i = true) →
    arrays.Ready w.disctype c

/-- What a loop over blocks `j` to `j + left - 1` has done. -/
structure Filled (sectorNo : UInt32) (left j : Nat) (w : World σ) (arrays : Locals) (w' : World σ)
    (arrays' : Locals) (out : Bool) : Prop where
  quiet : Quiet w w'
  kept : Kept j arrays arrays'
  ready : out = true → arrays'.ReadyFrom w sectorNo left j

theorem Filled.failed (quiet : Quiet w w') (kept : Kept j arrays arrays') :
    Filled sectorNo left j w arrays w' arrays' false :=
  ⟨quiet, kept, nofun⟩

theorem Filled.done (w : World σ) (arrays : Locals) :
    Filled sectorNo 0 j w arrays w arrays true where
  quiet := .refl w
  kept := .refl j arrays
  ready _ _ lower upper := absurd upper (Nat.not_lt.mpr lower)

theorem Filled.ended (arrays : Locals) (behind : beforeEnd w sectorNo j = false) :
    Filled sectorNo left j w arrays w arrays true where
  quiet := .refl w
  kept := .refl j arrays
  ready _ _ lower _ before := absurd (before j (Nat.le_refl j) lower) (Bool.eq_false_iff.mp behind)

theorem Filled.next (quiet : Quiet w w₁) (kept : Kept j arrays arrays₁)
    (here : arrays₁.Ready w.disctype j)
    (rest : Filled sectorNo left (j + 1) w₁ arrays₁ w' arrays' out) :
    Filled sectorNo (left + 1) j w arrays w' arrays' out where
  quiet := quiet.trans rest.quiet
  kept := kept.trans rest.kept.earlier
  ready success c lower upper before := by
    obtain rfl | later := Nat.eq_or_lt_of_le lower
    · exact rest.kept.ready (Nat.lt_succ_self j) here
    · rw [← quiet.disctype]
      refine rest.ready success c later (by omega) fun i lower upper => ?_
      rw [quiet.beforeEnd]
      exact before i (Nat.le_of_succ_le lower) upper

variable (env : Env σ)

theorem dumpBlocks_filled (left j : Nat) (formed : SeedsWellFormed w.disc.u) (arrays : Locals) :
    Filled sectorNo left j w arrays (dumpBlocks env sectorNo left j w arrays).1.1
      (dumpBlocks env sectorNo left j w arrays).1.2
      (dumpBlocks env sectorNo left j w arrays).2.1 := by
  induction left generalizing j w arrays with
  | zero => exact .done w arrays
  | succ left ih =>
      rw [dumpBlocks]
      split
      · extract_lets dumped driven spliced
        have quiet : Quiet w driven := .withDrive w _
        have kept : Kept j arrays spliced := .splice arrays (Nat.le_refl _) _
        split
        · exact .failed quiet kept
        · have unscrambled := unscrambleLocal_quiet sectorNo j driven spliced
          have filled := unscrambleLocal_kept sectorNo j (quiet.formed formed) spliced
          have ready := @unscrambleLocal_ready _ driven spliced sectorNo j (quiet.formed formed)
          rcases result : unscrambleLocal sectorNo j driven spliced with ⟨w₁, arrays₁, success⟩
          rw [result] at unscrambled filled ready
          cases success with
          | true =>
              have before := quiet.trans unscrambled
              exact .next before (kept.trans filled) (ready rfl) (ih _ (before.formed formed) _)
          | false => exact .failed (quiet.trans unscrambled) (kept.trans filled)
      · rename_i behind
        exact .ended arrays (Bool.eq_false_iff.mpr behind)

theorem readBlock_kept (sectorNo : UInt32) (j : Nat) (w : World σ) (arrays : Locals) :
    Kept j arrays (readBlock env sectorNo j w arrays).2.1 := by
  unfold readBlock
  split
  · exact .refl j arrays
  · exact ⟨fun _ _ => rfl, fun _ _ => rfl⟩

theorem fillBlocks_filled (left j : Nat) (formed : SeedsWellFormed w.disc.u) (arrays : Locals) :
    Filled sectorNo left j w arrays (fillBlocks env sectorNo left j w arrays).1.1
      (fillBlocks env sectorNo left j w arrays).1.2 (fillBlocks env sectorNo left j w arrays).2 := by
  induction left generalizing j w arrays with
  | zero => exact .done w arrays
  | succ left ih =>
      rw [fillBlocks]
      split
      · have read := (Quiet.frame env).readBlock sectorNo j w arrays
        have same := readBlock_kept env sectorNo j w arrays
        rcases executed : readBlock env sectorNo j w arrays with ⟨w₀, arrays₀, ret⟩
        rw [executed] at read same
        dsimp only
        split
        · have kept : Kept j arrays (arrays₀.fill j) :=
            same.trans (.splice arrays₀ (Nat.le_refl _) _)
          have formed' := read.formed formed
          have unscrambled := unscrambleLocal_quiet sectorNo j w₀ (arrays₀.fill j)
          have filled := unscrambleLocal_kept sectorNo j formed' (arrays₀.fill j)
          have ready := @unscrambleLocal_ready _ w₀ (arrays₀.fill j) sectorNo j formed'
          rcases result : unscrambleLocal sectorNo j w₀ (arrays₀.fill j) with ⟨w₁, arrays₁, success⟩
          rw [result] at unscrambled filled ready
          cases success with
          | true =>
              have before := read.trans unscrambled
              have here := ready rfl
              rw [read.disctype] at here
              exact .next before (kept.trans filled) here (ih _ (before.formed formed) _)
          | false => exact .failed (read.trans unscrambled) (kept.trans filled)
        · exact .failed read same
      · rename_i behind
        exact .ended arrays (Bool.eq_false_iff.mpr behind)

/-! ## A whole read -/

/-- A try either fails and caches nothing, or caches the blocks that are ready. -/
inductive Attempted (sectorNo : UInt32) (w : World σ) : (World σ × Locals) × Bool × Bool → Prop
  | failed {state : World σ × Locals} {stop : Bool} (quiet : Quiet w state.1) :
      Attempted sectorNo w (state, false, stop)
  | cached {w₁ : World σ} {arrays₁ : Locals} {stop : Bool} (quiet : Quiet w w₁)
      (ready : arrays₁.ReadyFrom w₁ sectorNo 5 0) :
      Attempted sectorNo w (cacheLocals sectorNo 5 0 w₁ arrays₁, true, stop)

theorem Locals.ReadyFrom.quiet (ready : arrays.ReadyFrom w sectorNo left j) (quiet : Quiet w w') :
    arrays.ReadyFrom w' sectorNo left j := by
  intro c lower upper before
  rw [quiet.disctype]
  exact ready c lower upper fun i lower upper => quiet.beforeEnd sectorNo i ▸ before i lower upper

theorem attempt7_attempted (formed : SeedsWellFormed w.disc.u) (retry : Nat) (arrays : Locals) :
    Attempted sectorNo w (attempt7 env sectorNo retry (w, arrays)) := by
  have retried := (Quiet.frame env).retried w sectorNo retry
  unfold attempt7
  extract_lets distant executed driven
  have read : Quiet w driven := retried.trans (.withDrive distant _)
  split
  · have filled : Filled sectorNo 5 0 driven arrays _ _ _ :=
      dumpBlocks_filled env 5 0 (read.formed formed) arrays
    rcases result : dumpBlocks env sectorNo 5 0 driven arrays with ⟨⟨w₁, arrays₁⟩, success, stop⟩
    rw [result] at filled
    cases success with
    | true => exact .cached (read.trans filled.quiet) ((filled.ready rfl).quiet filled.quiet)
    | false => exact .failed (read.trans filled.quiet)
  · exact .failed read

theorem attempt89_attempted {headers : Nat → World σ → Locals → (World σ × Locals) × Bool × Bool}
    (quiet : ∀ j w arrays, Quiet w (headers j w arrays).1.1) (formed : SeedsWellFormed w.disc.u)
    (retry : Nat) (arrays : Locals) :
    Attempted sectorNo w (attempt89 env headers sectorNo retry (w, arrays)) := by
  have retried := (Quiet.frame env).retried w sectorNo retry
  unfold attempt89
  extract_lets distant ahead driven executed driven₁ source arrays₁
  have read : Quiet w driven₁ := (retried.trans (.withDrive distant _)).trans (.withDrive driven _)
  split
  · have headersRead := (Quiet.frame env).reconstructBlocks quiet sectorNo 5 0 driven₁ arrays₁
    rcases result : reconstructBlocks headers sectorNo 5 0 driven₁ arrays₁ with
      ⟨⟨w₂, arrays₂⟩, success, stop⟩
    rw [result] at headersRead
    cases success with
    | true =>
        have before := read.trans headersRead
        have filled : Filled sectorNo 5 0 w₂ arrays₂ _ _ _ :=
          fillBlocks_filled env 5 0 (before.formed formed) arrays₂
        dsimp only
        rcases result : fillBlocks env sectorNo 5 0 w₂ arrays₂ with ⟨⟨w₃, arrays₃⟩, success⟩
        rw [result] at filled
        cases success with
        | true =>
            exact .cached (before.trans filled.quiet) ((filled.ready rfl).quiet filled.quiet)
        | false =>
            exact .failed (before.trans filled.quiet)
    | false => exact .failed (read.trans headersRead)
  · exact .failed read

/-- What comes of a read with method 7, 8 or 9. -/
inductive ReadLocals (sectorNo : UInt32) (w : World σ) : World σ × Bool → Prop
  | failed {w₁ : World σ} (quiet : Quiet w w₁) : ReadLocals sectorNo w (w₁, false)
  | cached {w₁ : World σ} {arrays₁ : Locals} (quiet : Quiet w w₁)
      (ready : arrays₁.ReadyFrom w₁ sectorNo 5 0) :
      ReadLocals sectorNo w ((cacheLocals sectorNo 5 0 w₁ arrays₁).1, true)

private theorem retryLoop_readLocals
    {attempt : Nat → World σ × Locals → (World σ × Locals) × Bool × Bool}
    (attempted : ∀ retry w arrays, SeedsWellFormed w.disc.u →
      Attempted sectorNo w (attempt retry (w, arrays)))
    (formed : SeedsWellFormed w.disc.u) (arrays : Locals) :
    ReadLocals sectorNo w
      ((retryLoop attempt 5 0 (w, arrays)).1.1, (retryLoop attempt 5 0 (w, arrays)).2) := by
  refine retryLoop_rule (fun state => Quiet w state.1)
    (fun state out => ReadLocals sectorNo w (state.1, out)) (fun _ quiet => .failed quiet) ?_
    5 0 rfl (w, arrays) (.refl w)
  rintro retry _ ⟨w₁, arrays₁⟩ quiet
  have tried := attempted retry w₁ arrays₁ (quiet.formed formed)
  generalize attempt retry (w₁, arrays₁) = result at tried
  cases tried with
  | failed later => exact ⟨nofun, fun _ => quiet.trans later⟩
  | cached later ready => exact ⟨fun _ => .cached (quiet.trans later) ready, nofun⟩

theorem discReadSector7_readLocals (sectorNo : UInt32) (formed : SeedsWellFormed w.disc.u) :
    ReadLocals sectorNo w (discReadSector7 env sectorNo w) :=
  retryLoop_readLocals (fun retry _ arrays formed => attempt7_attempted env formed retry arrays)
    formed _

theorem discReadSector8_readLocals (sectorNo : UInt32) (formed : SeedsWellFormed w.disc.u) :
    ReadLocals sectorNo w (discReadSector8 env sectorNo w) :=
  retryLoop_readLocals (fun retry _ arrays formed =>
    attempt89_attempted env (fun j w arrays => (Quiet.frame env).dumpHeaders8 j 16 0 w arrays true false)
      formed retry arrays) formed _

theorem discReadSector9_readLocals (sectorNo : UInt32) (formed : SeedsWellFormed w.disc.u) :
    ReadLocals sectorNo w (discReadSector9 env sectorNo w) :=
  retryLoop_readLocals (fun retry _ arrays formed =>
    attempt89_attempted env (fun j w arrays => (Quiet.frame env).dumpHeaders9 j 16 0 w arrays true false)
      formed retry arrays) formed _

/-! ## Caching the blocks -/

theorem cacheBlockAt_beyond (w : World σ) (block : UInt32) (cnt : Nat) (buf bufUnscrambled : Buffer)
    {a : Nat} (beyond : (cnt + 1) * 33024 ≤ a) :
    (w.cacheBlockAt block cnt buf bufUnscrambled).2 a = buf a := by
  rw [Nat.succ_mul] at beyond
  have above : cnt * 33024 ≤ a := Nat.le_trans (Nat.le_add_right _ _) beyond
  have behind : 33024 ≤ a - cnt * 33024 := Nat.le_sub_of_add_le' beyond
  have position : cnt * 33024 + (a - cnt * 33024) = a := Nat.add_sub_cancel' above
  have small := w.disc.copyOffset_bounds.2
  refine (Buffer.splice_above _ _ above).trans ((copyUserData_beyond _ _ small behind).trans ?_)
  rw [Buffer.advance_apply, position]

theorem Locals.ReadyFrom.here (ready : arrays.ReadyFrom w sectorNo (left + 1) j)
    (before : beforeEnd w sectorNo j = true) : arrays.Ready w.disctype j :=
  ready j (Nat.le_refl j) (by omega) fun _ lower upper => Nat.le_antisymm upper lower ▸ before

/-- Adding a block leaves the later ones of the arrays ready. -/
theorem Locals.ReadyFrom.next (ready : arrays.ReadyFrom w sectorNo (left + 1) j)
    (before : beforeEnd w sectorNo j = true) {block : UInt32} {w₁ : World σ} {buf : Buffer}
    (cached : w.cacheBlockAt block j arrays.buf arrays.bufUnscrambled = (w₁, buf)) :
    Locals.ReadyFrom { arrays with buf := buf } w₁ sectorNo left (j + 1) := by
  obtain ⟨rfl, rfl⟩ := Prod.mk.inj cached
  intro c lower upper before'
  obtain ⟨inbuf, seed, handed⟩ := ready c (by omega) (by omega) fun i lower upper => by
    obtain rfl | later := Nat.eq_or_lt_of_le lower
    · exact before
    · exact before' i later upper
  refine ⟨inbuf, seed, handed.congr (fun _ _ => rfl) (fun a _ => ?_) (fun _ _ => rfl)⟩
  refine cacheBlockAt_beyond w block j _ _ (Nat.le_trans ?_ (Nat.le_add_right _ a))
  exact Nat.mul_le_mul_right _ lower

theorem cacheLocals_extends {P : CachedBlock → Prop} (left j : Nat)
    (ready : arrays.ReadyFrom w sectorNo left j)
    (good : ∀ c raw data seed, (∃ inbuf, Handed w.disctype inbuf raw data seed) →
      P ⟨sectorNo / 16 + Nat.toUInt32 c, data, copyUserData raw data w.disc.copyOffset⟩) :
    Extends P w (cacheLocals sectorNo left j w arrays).1 := by
  induction left generalizing j w arrays with
  | zero => exact .refl w
  | succ left ih =>
      rw [cacheLocals]
      split
      · rename_i before
        obtain ⟨inbuf, seed, handed⟩ := ready.here before
        have cached : Extends P w (w.cacheBlockAt (sectorNo / 16 + j.toUInt32) j arrays.buf
            arrays.bufUnscrambled).1 :=
          .cacheBlock w (good j _ _ seed ⟨inbuf, handed⟩)
        refine cached.trans (ih (j + 1) (ready.next before rfl) ?_)
        rw [cached.disctype, cached.copyOffset]
        exact good
      · exact .refl w

theorem ReadLocals.extends {P : CachedBlock → Prop} {result : World σ × Bool}
    (read : ReadLocals sectorNo w result)
    (good : ∀ c raw data seed, (∃ inbuf, Handed w.disctype inbuf raw data seed) →
      P ⟨sectorNo / 16 + Nat.toUInt32 c, data, copyUserData raw data w.disc.copyOffset⟩) :
    Extends P w result.1 := by
  cases read with
  | failed quiet => exact quiet.extends
  | cached quiet ready =>
      refine quiet.extends.trans (cacheLocals_extends 5 0 ready ?_)
      rw [quiet.disctype, quiet.copyOffset]
      exact good

end Reading

end Friidump
