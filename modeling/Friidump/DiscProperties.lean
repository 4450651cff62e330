import Friidump.BlockCache
import Friidump.ReadFrames

/-!
# What reading does to the disc

A read changes the unscrambler and adds blocks to the cache, nothing else. For
every read method one rule says which blocks it can add.
-/

set_option autoImplicit false

namespace Friidump

section Reading

variable {σ : Type} {w w' w'' : World σ}

/-- Nothing but the drive, the buffers and the seed cache has changed. -/
structure Quiet (w w' : World σ) : Prop where
  disc : w'.disc = { w.disc with u := w'.disc.u }
  disctype : w'.disctype = w.disctype
  added : w'.added = w.added
  formed : SeedsWellFormed w.disc.u → SeedsWellFormed w'.disc.u

theorem Quiet.refl (w : World σ) : Quiet w w := ⟨rfl, rfl, rfl, id⟩

theorem Quiet.trans (first : Quiet w w') (second : Quiet w' w'') : Quiet w w'' where
  disc := by
    rw [second.disc, first.disc]
  disctype := second.disctype.trans first.disctype
  added := second.added.trans first.added
  formed := second.formed ∘ first.formed

theorem Quiet.withDrive (w : World σ) (drive : σ) : Quiet w (w.withDrive drive) :=
  ⟨rfl, rfl, rfl, id⟩

theorem Quiet.withBuf (w : World σ) (buf : Buffer) : Quiet w (w.withBuf buf) :=
  ⟨rfl, rfl, rfl, id⟩

theorem Quiet.withBufUnscrambled (w : World σ) (buf : Buffer) :
    Quiet w (w.withBufUnscrambled buf) :=
  ⟨rfl, rfl, rfl, id⟩

theorem Quiet.unscrambleAt (w : World σ) (sectorNo : UInt32) (cnt : Nat)
    (buf bufUnscrambled : Buffer) :
    Quiet w (w.unscrambleAt sectorNo cnt buf bufUnscrambled).world :=
  ⟨rfl, rfl, rfl, fun formed => (outcome formed).formed formed⟩

/-- Every valid cache entry is a recorded block at its position. -/
def Backed (w : World σ) : Prop :=
  ∀ p < w.disc.cacheSize.toNat, w.disc.cacheMap p ≠ cacheEntryInvalid →
    ∃ entry ∈ w.added, entry.block = w.disc.cacheMap p ∧ w.disc.cachePos entry.block = p ∧
      (∀ a < 32768, w.disc.cache p a = entry.data a) ∧
      (∀ a < 33024, w.disc.rawCache p a = entry.rawdata a)

/-- Blocks with a property have come into the cache, and the set-up has stayed. -/
structure Extends (P : CachedBlock → Prop) (w w' : World σ) : Prop where
  disc : w'.disc = { w.disc with
    u := w'.disc.u
    rawCache := w'.disc.rawCache
    cache := w'.disc.cache
    cacheMap := w'.disc.cacheMap }
  disctype : w'.disctype = w.disctype
  formed : SeedsWellFormed w.disc.u → SeedsWellFormed w'.disc.u
  added : ∃ blocks, w'.added = blocks ++ w.added ∧ ∀ entry ∈ blocks, P entry
  backed : Backed w → Backed w'

variable {P : CachedBlock → Prop}

theorem Extends.trans (first : Extends P w w') (second : Extends P w' w'') : Extends P w w'' where
  disc := by
    rw [second.disc, first.disc]
  disctype := second.disctype.trans first.disctype
  formed := second.formed ∘ first.formed
  added := by
    obtain ⟨early, extended, earlyGood⟩ := first.added
    obtain ⟨late, extended', lateGood⟩ := second.added
    refine ⟨late ++ early, ?_, fun entry member => ?_⟩
    · rw [extended', extended, List.append_assoc]
    · exact (List.mem_append.mp member).elim (lateGood entry) (earlyGood entry)
  backed := second.backed ∘ first.backed

theorem Quiet.extends (quiet : Quiet w w') : Extends P w w' where
  disc := by
    rw [quiet.disc]
  disctype := quiet.disctype
  formed := quiet.formed
  added := ⟨[], quiet.added, nofun⟩
  backed backed := by
    unfold Backed
    rw [quiet.disc, quiet.added]
    exact backed

theorem Extends.refl (w : World σ) : Extends P w w := (Quiet.refl w).extends

theorem Extends.cacheBlock (w : World σ) {block : UInt32} {data rawdata : Buffer}
    (good : P ⟨block, data, copyUserData rawdata data w.disc.copyOffset⟩) :
    Extends P w (w.cacheBlock block data rawdata).1 where
  disc := rfl
  disctype := rfl
  formed := id
  added := ⟨[_], rfl, List.forall_mem_singleton.mpr good⟩
  backed backed p inside valid := by
    by_cases here : p = w.disc.cachePos block
    · refine ⟨_, List.mem_cons_self, (if_pos here).symm, here.symm, ?_, ?_⟩
      · intro a below
        have stored : ((w.cacheBlock block data rawdata).1.disc.cache p) =
            (w.disc.cache p).memcpy 0 data 32768 := if_pos here
        rw [stored, Buffer.memcpy_inside _ _ (Nat.zero_le a) (by omega)]
        rfl
      · intro a below
        have stored : ((w.cacheBlock block data rawdata).1.disc.rawCache p) =
            (w.disc.rawCache p).memcpy 0 _ 33024 := if_pos here
        rw [stored, Buffer.memcpy_inside _ _ (Nat.zero_le a) (by omega)]
        rfl
    · have map : (w.cacheBlock block data rawdata).1.disc.cacheMap p = w.disc.cacheMap p :=
        if_neg here
      have cache : (w.cacheBlock block data rawdata).1.disc.cache p = w.disc.cache p :=
        if_neg here
      have rawCache : (w.cacheBlock block data rawdata).1.disc.rawCache p = w.disc.rawCache p :=
        if_neg here
      rw [map] at valid ⊢
      obtain ⟨entry, member, same, place, sameData, sameRaw⟩ := backed p inside valid
      refine ⟨entry, List.mem_cons_of_mem _ member, same, place, ?_, ?_⟩
      · rw [cache]
        exact sameData
      · rw [rawCache]
        exact sameRaw

theorem Extends.copyOffset (kept : Extends P w w') : w'.disc.copyOffset = w.disc.copyOffset := by
  rw [kept.disc]
  rfl

theorem Quiet.copyOffset (quiet : Quiet w w') : w'.disc.copyOffset = w.disc.copyOffset := by
  rw [quiet.disc]
  rfl

/-! ## The retry loop -/

/-- What a failed try establishes carries over to the next one; the last one decides. -/
theorem retryLoop_rule {α : Type} {attempt : Nat → α → α × Bool × Bool} (I : α → Prop)
    (Q : α → Bool → Prop) (exhausted : ∀ state, I state → Q state false)
    (step : ∀ retry < 5, ∀ state, I state →
      ((attempt retry state).2.1 = true → Q (attempt retry state).1 true) ∧
      ((attempt retry state).2.1 = false → I (attempt retry state).1))
    (left retry : Nat) (bound : left + retry = 5) (state : α) (start : I state) :
    Q (retryLoop attempt left retry state).1 (retryLoop attempt left retry state).2 := by
  induction left generalizing retry state with
  | zero => exact exhausted state start
  | succ left ih =>
      obtain ⟨good, bad⟩ := step retry (by omega) state start
      rw [retryLoop]
      rcases tried : attempt retry state with ⟨state', out, stop⟩
      rw [tried] at good bad
      cases out with
      | true => exact good rfl
      | false =>
          cases stop with
          | true => exact exhausted _ (bad rfl)
          | false => exact ih (retry + 1) (by omega) state' (bad rfl)

theorem retryLoop_first {α : Type} {attempt : Nat → α → α × Bool × Bool} {state state' : α}
    {stop : Bool} (success : attempt 0 state = (state', true, stop)) :
    retryLoop attempt 5 0 state = (state', true) := by
  rw [retryLoop, success]

/-! ## Positions in an array of blocks -/

theorem Buffer.position_lt {size c n a : Nat} (earlier : c < n) (inside : a < size) :
    c * size + a < n * size := by
  have next : (c + 1) * size ≤ n * size := Nat.mul_le_mul_right size earlier
  rw [Nat.succ_mul] at next
  exact Nat.lt_of_lt_of_le (Nat.add_lt_add_left inside _) next

/-! ## What a read does before it caches the blocks -/

variable (env : Env σ)

theorem Quiet.frame : UnscrambleFrame env Quiet where
  refl := .refl
  trans := .trans
  command w _ := .withDrive w _
  memdump w _ _ _ := .withDrive w _
  withBuf := .withBuf
  withBufUnscrambled := .withBufUnscrambled
  unscrambleAt := .unscrambleAt

theorem readStep_out (method : Nat) (w : World σ) (sectorNo : UInt32) :
    (readStep env method w sectorNo).2 = 0 := by
  by_cases streaming : method = 4 ∨ method = 5 ∨ method = 6
  · simp only [readStep, if_pos streaming, dvdReadStreaming_out]
  · simp only [readStep, if_neg streaming, dvdReadSectorDummy_out]

/-! ## One block of an array -/

section Block

variable {sectorNo : UInt32} {cnt : Nat} {buf bufUnscrambled : Buffer}

theorem unscrambleAt_buf_outside (formed : SeedsWellFormed w.disc.u) {a : Nat}
    (outside : a < cnt * 33024 ∨ (cnt + 1) * 33024 ≤ a) :
    (w.unscrambleAt sectorNo cnt buf bufUnscrambled).buf a = buf a := by
  obtain below | beyond := outside
  · exact Buffer.splice_below _ _ below
  · rw [Nat.succ_mul] at beyond
    have above : cnt * 33024 ≤ a := Nat.le_trans (Nat.le_add_right _ _) beyond
    have position : cnt * 33024 + (a - cnt * 33024) = a := Nat.add_sub_cancel' above
    have behind : 33024 ≤ a - cnt * 33024 := Nat.le_sub_of_add_le' beyond
    refine (Buffer.splice_above _ _ above).trans ((unscramble_inbuf_beyond formed behind).trans ?_)
    rw [Buffer.advance_apply, position]

theorem unscrambleAt_bufUnscrambled_outside (formed : SeedsWellFormed w.disc.u) {a : Nat}
    (outside : a < cnt * 32768 ∨ (cnt + 1) * 32768 ≤ a) :
    (w.unscrambleAt sectorNo cnt buf bufUnscrambled).bufUnscrambled a = bufUnscrambled a := by
  obtain below | beyond := outside
  · exact Buffer.splice_below _ _ below
  · rw [Nat.succ_mul] at beyond
    have above : cnt * 32768 ≤ a := Nat.le_trans (Nat.le_add_right _ _) beyond
    have position : cnt * 32768 + (a - cnt * 32768) = a := Nat.add_sub_cancel' above
    have behind : 32768 ≤ a - cnt * 32768 := Nat.le_sub_of_add_le' beyond
    refine (Buffer.splice_above _ _ above).trans
      ((unscramble_outbuf_beyond formed behind).trans ?_)
    rw [Buffer.advance_apply, position]

theorem unscrambleAt_handed (formed : SeedsWellFormed w.disc.u)
    (success : (w.unscrambleAt sectorNo cnt buf bufUnscrambled).out = true) :
    ∃ j, Handed w.disctype (buf.advance (cnt * 33024))
      ((w.unscrambleAt sectorNo cnt buf bufUnscrambled).buf.advance (cnt * 33024))
      ((w.unscrambleAt sectorNo cnt buf bufUnscrambled).bufUnscrambled.advance (cnt * 32768)) j := by
  simp only [World.unscrambleAt, Buffer.splice_advance]
  exact unscramble_handed formed success

theorem cacheBlockAt_below (w : World σ) (block : UInt32) {a : Nat} (below : a < cnt * 33024) :
    (w.cacheBlockAt block cnt buf bufUnscrambled).2 a = buf a :=
  Buffer.splice_below _ _ below

end Block

/-! ## Unscrambling and caching several blocks -/

theorem unscrambleBuf_quiet (w : World σ) (sectorNo : UInt32) (cnt : Nat) :
    Quiet w (w.unscrambleBuf sectorNo cnt).1 :=
  ((Quiet.unscrambleAt w _ _ _ _).trans (.withBuf _ _)).trans (.withBufUnscrambled _ _)

theorem unscrambleBuf_handed {w : World σ} (formed : SeedsWellFormed w.disc.u) {sectorNo : UInt32}
    {cnt : Nat} (success : (w.unscrambleBuf sectorNo cnt).2 = true) :
    ∃ j, Handed w.disctype (w.buf.advance (cnt * 33024))
      ((w.unscrambleBuf sectorNo cnt).1.buf.advance (cnt * 33024))
      ((w.unscrambleBuf sectorNo cnt).1.bufUnscrambled.advance (cnt * 32768)) j :=
  unscrambleAt_handed formed success

theorem cacheBuf_extends (w : World σ) {block : UInt32} {cnt : Nat}
    (good : P ⟨block, w.bufUnscrambled.advance (cnt * 32768),
      copyUserData (w.buf.advance (cnt * 33024)) (w.bufUnscrambled.advance (cnt * 32768))
        w.disc.copyOffset⟩) :
    Extends P w (w.cacheBuf block cnt) :=
  (Extends.cacheBlock w good).trans (Quiet.withBuf _ _).extends

theorem unscrambleBlocks_succ (sectorNo : UInt32) (cnt : Nat) (w : World σ) (out : Bool) :
    unscrambleBlocks sectorNo (cnt + 1) w out =
      unscrambleBlocks sectorNo cnt (w.unscrambleBuf (sectorNo + cnt.toUInt32 * 16) cnt).1
        (if (w.unscrambleBuf (sectorNo + cnt.toUInt32 * 16) cnt).2 then out else false) := rfl

theorem unscrambleBlocks_quiet (sectorNo : UInt32) (n : Nat) (w : World σ) (out : Bool) :
    Quiet w (unscrambleBlocks sectorNo n w out).1 := by
  induction n generalizing w out with
  | zero => exact .refl w
  | succ n ih =>
      rw [unscrambleBlocks_succ]
      exact (unscrambleBuf_quiet w _ n).trans (ih _ _)

theorem unscrambleBlocks_false (sectorNo : UInt32) (n : Nat) (w : World σ) :
    (unscrambleBlocks sectorNo n w false).2 = false := by
  induction n generalizing w with
  | zero => rfl
  | succ n ih =>
      rw [unscrambleBlocks_succ, ite_self]
      exact ih _

theorem unscrambleBlocks_buf_beyond (sectorNo : UInt32) (n : Nat) {w : World σ}
    (formed : SeedsWellFormed w.disc.u) (out : Bool) {a : Nat} (beyond : n * 33024 ≤ a) :
    (unscrambleBlocks sectorNo n w out).1.buf a = w.buf a := by
  induction n generalizing w out with
  | zero => rfl
  | succ n ih =>
      have lower : n * 33024 ≤ a := Nat.le_trans (Nat.mul_le_mul_right _ (Nat.le_succ n)) beyond
      rw [unscrambleBlocks_succ, ih ((unscrambleBuf_quiet w _ n).formed formed) _ lower]
      exact unscrambleAt_buf_outside formed (.inr beyond)

theorem unscrambleBlocks_bufUnscrambled_beyond (sectorNo : UInt32) (n : Nat) {w : World σ}
    (formed : SeedsWellFormed w.disc.u) (out : Bool) {a : Nat} (beyond : n * 32768 ≤ a) :
    (unscrambleBlocks sectorNo n w out).1.bufUnscrambled a = w.bufUnscrambled a := by
  induction n generalizing w out with
  | zero => rfl
  | succ n ih =>
      have lower : n * 32768 ≤ a := Nat.le_trans (Nat.mul_le_mul_right _ (Nat.le_succ n)) beyond
      rw [unscrambleBlocks_succ, ih ((unscrambleBuf_quiet w _ n).formed formed) _ lower]
      exact unscrambleAt_bufUnscrambled_outside formed (.inr beyond)

/-- When all blocks come out right, each was unscrambled from the bytes it held before. -/
theorem unscrambleBlocks_handed (sectorNo : UInt32) (n : Nat) {w : World σ}
    (formed : SeedsWellFormed w.disc.u)
    (success : (unscrambleBlocks sectorNo n w true).2 = true) :
    ∀ c < n, ∃ j, Handed w.disctype (w.buf.advance (c * 33024))
      ((unscrambleBlocks sectorNo n w true).1.buf.advance (c * 33024))
      ((unscrambleBlocks sectorNo n w true).1.bufUnscrambled.advance (c * 32768)) j := by
  induction n generalizing w with
  | zero => exact nofun
  | succ n ih =>
      rw [unscrambleBlocks_succ] at success ⊢
      have formed' := (unscrambleBuf_quiet w (sectorNo + n.toUInt32 * 16) n).formed formed
      cases first : (w.unscrambleBuf (sectorNo + n.toUInt32 * 16) n).2 with
      | false =>
          rw [first] at success
          exact absurd success (Bool.eq_false_iff.mp (unscrambleBlocks_false ..))
      | true =>
          rw [first, if_pos rfl] at success
          rw [if_pos rfl]
          intro c below
          obtain earlier | rfl := Nat.lt_succ_iff_lt_or_eq.mp below
          · obtain ⟨j, handed⟩ := ih formed' success c earlier
            refine ⟨j, handed.congr (fun a inside => ?_) (fun _ _ => rfl) (fun _ _ => rfl)⟩
            exact (unscrambleAt_buf_outside formed (.inl (Buffer.position_lt earlier inside))).symm
          · obtain ⟨j, handed⟩ := unscrambleBuf_handed formed first
            refine ⟨j, handed.congr (fun _ _ => rfl) (fun a _ => ?_) (fun a _ => ?_)⟩
            · exact unscrambleBlocks_buf_beyond sectorNo c formed' true (Nat.le_add_right _ _)
            · exact unscrambleBlocks_bufUnscrambled_beyond sectorNo c formed' true
                (Nat.le_add_right _ _)

theorem cacheBlocks_extends (startBlock : UInt32) (n : Nat) (w : World σ)
    (good : ∀ c < n, ∀ raw : Buffer, (∀ a < 33024, raw a = w.buf.advance (c * 33024) a) →
      P ⟨startBlock + c.toUInt32, w.bufUnscrambled.advance (c * 32768),
        copyUserData raw (w.bufUnscrambled.advance (c * 32768)) w.disc.copyOffset⟩) :
    Extends P w (cacheBlocks startBlock n w) := by
  induction n generalizing w with
  | zero => exact .refl w
  | succ n ih =>
      rw [cacheBlocks]
      refine (cacheBuf_extends w (good n (Nat.lt_succ_self n) _ fun _ _ => rfl)).trans
        (ih _ fun c below raw same => ?_)
      refine good c (Nat.lt_succ_of_lt below) raw fun a inside => (same a inside).trans ?_
      exact cacheBlockAt_below w (startBlock + n.toUInt32) (Buffer.position_lt below inside)

theorem cacheBlocks_keeps (startBlock : UInt32) (n : Nat) (w : World σ) {entry : CachedBlock}
    (member : entry ∈ w.added) : entry ∈ (cacheBlocks startBlock n w).added := by
  induction n generalizing w with
  | zero => exact member
  | succ n ih => exact ih _ (List.mem_cons_of_mem _ member)

theorem cacheBlocks_member (startBlock : UInt32) {c n : Nat} (below : c < n) (w : World σ) :
    ∃ entry ∈ (cacheBlocks startBlock n w).added, entry.block = startBlock + c.toUInt32 := by
  induction n generalizing w with
  | zero => cases below
  | succ n ih =>
      obtain earlier | rfl := Nat.lt_succ_iff_lt_or_eq.mp below
      · exact ih earlier _
      · exact ⟨_, cacheBlocks_keeps startBlock c (w.cacheBuf _ c) (List.mem_cons_self ..), rfl⟩

/-! ## Methods 0 to 6 -/

/-- Either nothing is cached, or the loop has run to its end, all blocks came out
right, and they are cached. -/
theorem streamingRead_cases (method : Nat) (sectorNo : UInt32) (w : World σ) :
    (∃ w', Quiet w w' ∧ streamingRead env method sectorNo w = (w', false)) ∨
    ∃ w' cnt, streamLoop env method sectorNo (w.disc.maxCnt.toNat + 1) 0 w = (w', true, cnt) ∧
      (unscrambleBlocks sectorNo w.disc.maxBlk.toNat w' true).2 = true ∧
      streamingRead env method sectorNo w =
        (cacheBlocks (sectorNo / 16) w.disc.maxBlk.toNat
          (unscrambleBlocks sectorNo w.disc.maxBlk.toNat w' true).1, true) := by
  have looped := (Quiet.frame env).streamLoop method sectorNo (w.disc.maxCnt.toNat + 1) 0 w
  rcases loop : streamLoop env method sectorNo (w.disc.maxCnt.toNat + 1) 0 w with ⟨w', out, cnt⟩
  rw [loop] at looped
  have unscrambled := unscrambleBlocks_quiet sectorNo w.disc.maxBlk.toNat w' out
  by_cases early : cnt < w.disc.maxCnt
  · exact .inl ⟨w', looped, by simp only [streamingRead, loop, if_pos early]⟩
  · cases success : (unscrambleBlocks sectorNo w.disc.maxBlk.toNat w' out).2 with
    | false =>
        refine .inl ⟨_, looped.trans unscrambled, ?_⟩
        simp only [streamingRead, loop, if_neg early, success, Bool.false_eq_true, if_false]
    | true =>
        cases out with
        | false => exact absurd success (Bool.eq_false_iff.mp (unscrambleBlocks_false ..))
        | true =>
            refine .inr ⟨w', cnt, rfl, success, ?_⟩
            simp only [streamingRead, loop, if_neg early, success, if_true]

/-- What the streaming pass caches was unscrambled from what its loop left in the buffer. -/
theorem streamingRead_extends {method : Nat} {sectorNo : UInt32}
    (formed : SeedsWellFormed w.disc.u)
    (good : ∀ w' cnt,
      streamLoop env method sectorNo (w.disc.maxCnt.toNat + 1) 0 w = (w', true, cnt) →
      (∀ c < w.disc.maxBlk.toNat, ∃ raw data j,
        Handed w.disctype (w'.buf.advance (c * 33024)) raw data j) →
      ∀ c < w.disc.maxBlk.toNat, ∀ raw data j,
        Handed w.disctype (w'.buf.advance (c * 33024)) raw data j →
        P ⟨sectorNo / 16 + c.toUInt32, data, copyUserData raw data w.disc.copyOffset⟩) :
    Extends P w (streamingRead env method sectorNo w).1 := by
  obtain ⟨w', quiet, ended⟩ | ⟨w', cnt, loop, success, ended⟩ :=
    streamingRead_cases env method sectorNo w
  · rw [ended]
    exact quiet.extends
  · rw [ended]
    have looped := (Quiet.frame env).streamLoop method sectorNo (w.disc.maxCnt.toNat + 1) 0 w
    rw [loop] at looped
    have before := looped.trans (unscrambleBlocks_quiet sectorNo w.disc.maxBlk.toNat w' true)
    refine before.extends.trans (cacheBlocks_extends _ _ _ fun c below raw same => ?_)
    have all := unscrambleBlocks_handed sectorNo w.disc.maxBlk.toNat (looped.formed formed) success
    rw [looped.disctype] at all
    obtain ⟨j, handed⟩ := all c below
    rw [before.copyOffset]
    exact good w' cnt loop (fun c below => ⟨_, _, all c below⟩) c below raw _ j
      (handed.congr (fun _ _ => rfl) same fun _ _ => rfl)

theorem simpleRead_cases (sectorNo : UInt32) (w : World σ) :
    (∃ w', Quiet w w' ∧ simpleRead env sectorNo w = (w', false)) ∨
    ∃ w', simpleDump env sectorNo w = (w', true) ∧
      (w'.unscrambleBuf sectorNo 0).2 = true ∧
      simpleRead env sectorNo w =
        ((w'.unscrambleBuf sectorNo 0).1.cacheBuf (sectorNo / 16) 0, true) := by
  have dumped := (Quiet.frame env).simpleDump sectorNo w
  rcases dump : simpleDump env sectorNo w with ⟨w', out⟩
  rw [dump] at dumped
  cases out with
  | false => exact .inl ⟨w', dumped, by simp only [simpleRead, dump, Bool.false_eq_true, if_false]⟩
  | true =>
      cases success : (w'.unscrambleBuf sectorNo 0).2 with
      | false =>
          refine .inl ⟨_, dumped.trans (unscrambleBuf_quiet w' sectorNo 0), ?_⟩
          simp only [simpleRead, dump, success, Bool.false_eq_true, if_true, if_false]
      | true => exact .inr ⟨w', rfl, success, by simp only [simpleRead, dump, success, if_true]⟩

theorem simpleRead_extends {sectorNo : UInt32} (formed : SeedsWellFormed w.disc.u)
    (good : ∀ w', simpleDump env sectorNo w = (w', true) → ∀ raw data j,
      Handed w.disctype w'.buf raw data j →
      P ⟨sectorNo / 16, data, copyUserData raw data w.disc.copyOffset⟩) :
    Extends P w (simpleRead env sectorNo w).1 := by
  obtain ⟨w', quiet, ended⟩ | ⟨w', dump, success, ended⟩ := simpleRead_cases env sectorNo w
  · rw [ended]
    exact quiet.extends
  · rw [ended]
    have dumped := (Quiet.frame env).simpleDump sectorNo w
    rw [dump] at dumped
    have before := dumped.trans (unscrambleBuf_quiet w' sectorNo 0)
    obtain ⟨j, handed⟩ := unscrambleBuf_handed (dumped.formed formed) success
    rw [dumped.disctype, Nat.zero_mul, Buffer.advance_zero] at handed
    refine before.extends.trans (cacheBuf_extends _ ?_)
    rw [before.copyOffset]
    exact good w' dump _ _ j (handed.congr (fun _ _ => rfl) (fun _ _ => rfl) fun _ _ => rfl)

/-- A property of blocks that survives in both kinds of pass survives in the whole read. -/
theorem discReadSectorGeneric_extends {method : Nat} {sectorNo : UInt32} (I : World σ → Prop)
    (start : I w)
    (streaming : ∀ w, I w → Extends P w (streamingRead env method sectorNo w).1 ∧
      I (streamingRead env method sectorNo w).1)
    (simple : ∀ w, I w → Extends P w (simpleRead env sectorNo w).1 ∧
      I (simpleRead env sectorNo w).1) :
    Extends P w (discReadSectorGeneric env method sectorNo w).1 ∧
      I (discReadSectorGeneric env method sectorNo w).1 := by
  unfold discReadSectorGeneric
  refine retryLoop_rule (fun w' => Extends P w w' ∧ I w') (fun w' _ => Extends P w w' ∧ I w')
    (fun _ kept => kept) ?_ 5 0 rfl w ⟨.refl w, start⟩
  intro retry _ w' kept
  have tried : Extends P w' (if retry < 3 then streamingRead env method sectorNo w'
      else simpleRead env sectorNo w').1 ∧ I (if retry < 3 then
        streamingRead env method sectorNo w' else simpleRead env sectorNo w').1 := by
    split
    · exact streaming w' kept.2
    · exact simple w' kept.2
  exact ⟨fun _ => ⟨kept.1.trans tried.1, tried.2⟩, fun _ => ⟨kept.1.trans tried.1, tried.2⟩⟩

end Reading

end Friidump
