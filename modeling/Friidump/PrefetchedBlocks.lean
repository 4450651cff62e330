import Friidump.CacheRefinement
import Friidump.CountingDrive

/-!
# What a read prefetches

Which of the blocks that one call puts into the cache can be looked up at its end.
-/

set_option autoImplicit false

namespace Friidump

open Theory (insertAll)

/-- An insertion as the cache keeps it. -/
def CachedBlock.cell (entry : CachedBlock) : UInt32 × BlockBytes :=
  (entry.block, entry.data.bytes 32768, entry.rawdata.bytes 33024)

section Reading

variable {σ : Type} {w w' w'' : World σ} {blocks : List CachedBlock} {sectorNo : UInt32}

/-- The lookup of the block hits and leads to these bytes. -/
def Shows (w : World σ) (entry : CachedBlock) : Prop :=
  w.disc.lookup entry.block = some (entry.data.bytes 32768, entry.rawdata.bytes 33024)

/-- The insertions on the way from one state to another, the latest one first. -/
structure Inserts (w w' : World σ) (blocks : List CachedBlock) : Prop where
  added : w'.added = blocks ++ w.added
  cells : w'.disc.cells = insertAll w.disc.cachePos w.disc.cells (blocks.map CachedBlock.cell)
  cachePos : w'.disc.cachePos = w.disc.cachePos

theorem Quiet.inserts (quiet : Quiet w w') : Inserts w w' [] where
  added := quiet.added
  cells := by
    rw [quiet.disc]
    rfl
  cachePos := by
    rw [quiet.disc]
    rfl

theorem Inserts.trans {earlier later : List CachedBlock} (first : Inserts w w' earlier)
    (second : Inserts w' w'' later) : Inserts w w'' (later ++ earlier) where
  added := by
    rw [second.added, first.added, List.append_assoc]
  cells := by
    rw [second.cells, first.cells, first.cachePos, List.map_append, Theory.insertAll_append]
  cachePos := second.cachePos.trans first.cachePos

theorem Inserts.cacheBlock (w : World σ) (block : UInt32) (data rawdata : Buffer) :
    Inserts w (w.cacheBlock block data rawdata).1
      [⟨block, data, copyUserData rawdata data w.disc.copyOffset⟩] where
  added := rfl
  cells := by
    refine (discCacheAddBlock_cells w.disc block data rawdata).trans ?_
    simp only [List.map_cons, List.map_nil, insertAll, CachedBlock.cell, Disc.entry,
      bytes_copyUserData rawdata data w.disc.copyOffset_bounds.2]
  cachePos := rfl

/-- What is inserted last at its position is found. -/
theorem Inserts.shows {later earlier : List CachedBlock} {entry : CachedBlock}
    (inserts : Inserts w w' (later ++ entry :: earlier))
    (apart : ∀ other ∈ later, w.disc.cachePos other.block ≠ w.disc.cachePos entry.block) :
    Shows w' entry := by
  rw [Shows, Disc.lookup_eq_fetch, inserts.cells, inserts.cachePos, List.map_append, List.map_cons]
  refine Theory.fetch_of_last w.disc.cachePos w.disc.cells ?_
  simpa [CachedBlock.cell] using apart

theorem Inserts.shows_all (inserts : Inserts w w' blocks)
    (apart : blocks.Pairwise fun newer older =>
      w.disc.cachePos newer.block ≠ w.disc.cachePos older.block) :
    ∀ entry ∈ blocks, Shows w' entry := by
  intro entry member
  rw [Shows, Disc.lookup_eq_fetch, inserts.cells, inserts.cachePos]
  exact Theory.fetch_of_apart w.disc.cachePos w.disc.cells (List.pairwise_map.mpr apart) entry.cell
    (List.mem_map_of_mem member)

/-- The block is what the unscrambler made of these bytes, patched on its way into the cache. -/
def UnscrambledFrom (w : World σ) (inbuf : Buffer) (entry : CachedBlock) : Prop :=
  ∃ raw j, Handed w.disctype inbuf raw entry.data j ∧
    entry.rawdata = copyUserData raw entry.data w.disc.copyOffset

/-! ## The loop of methods 0 to 6 -/

theorem Inserts.cacheBuf (w : World σ) (block : UInt32) (cnt : Nat) :
    Inserts w (w.cacheBuf block cnt)
      [⟨block, w.bufUnscrambled.advance (cnt * 32768),
        copyUserData (w.buf.advance (cnt * 33024)) (w.bufUnscrambled.advance (cnt * 32768))
          w.disc.copyOffset⟩] :=
  (Inserts.cacheBlock w block _ _).trans (Quiet.withBuf _ _).inserts

theorem cacheBlocks_inserts (startBlock : UInt32) (n : Nat) (w : World σ) :
    ∃ blocks, Inserts w (cacheBlocks startBlock n w) blocks ∧
      ∀ entry ∈ blocks, ∃ c < n, entry.block = startBlock + c.toUInt32 := by
  induction n generalizing w with
  | zero => exact ⟨[], (Quiet.refl w).inserts, nofun⟩
  | succ n ih =>
      obtain ⟨blocks, inserts, numbered⟩ := ih (w.cacheBuf (startBlock + n.toUInt32) n)
      refine ⟨_, (Inserts.cacheBuf w (startBlock + n.toUInt32) n).trans inserts, ?_⟩
      intro entry member
      rcases List.mem_append.mp member with later | first
      · obtain ⟨c, below, block⟩ := numbered entry later
        exact ⟨c, Nat.lt_succ_of_lt below, block⟩
      · obtain rfl := List.mem_singleton.mp first
        exact ⟨n, Nat.lt_succ_self n, rfl⟩

/-- The loop goes down, so that only blocks before a block are inserted after it. -/
theorem cacheBlocks_inserts_at (startBlock : UInt32) {c n : Nat} (below : c < n) (w : World σ) :
    ∃ later earlier raw,
      Inserts w (cacheBlocks startBlock n w)
        (later ++ ⟨startBlock + c.toUInt32, w.bufUnscrambled.advance (c * 32768),
          copyUserData raw (w.bufUnscrambled.advance (c * 32768)) w.disc.copyOffset⟩ :: earlier) ∧
      (∀ a < 33024, raw a = w.buf.advance (c * 33024) a) ∧
      ∀ entry ∈ later, ∃ c' < c, entry.block = startBlock + c'.toUInt32 := by
  induction n generalizing w with
  | zero => cases below
  | succ n ih =>
      have first := Inserts.cacheBuf w (startBlock + n.toUInt32) n
      rcases Nat.lt_succ_iff_lt_or_eq.mp below with earlier | rfl
      · obtain ⟨later, earlier', raw, inserts, same, numbered⟩ :=
          ih earlier (w.cacheBuf (startBlock + n.toUInt32) n)
        have both := first.trans inserts
        rw [List.append_assoc, List.cons_append] at both
        refine ⟨later, _, raw, both, fun a inside => (same a inside).trans ?_, numbered⟩
        exact cacheBlockAt_below w (startBlock + n.toUInt32) (Buffer.position_lt earlier inside)
      · obtain ⟨later, inserts, numbered⟩ :=
          cacheBlocks_inserts startBlock c (w.cacheBuf (startBlock + c.toUInt32) c)
        exact ⟨later, [], _, first.trans inserts, fun _ _ => rfl, numbered⟩

theorem cacheBlocks_shows (sectorNo : UInt32) {c n : Nat} (below : c < n)
    (near : c < w.disc.cacheSize.toNat) (small : n ≤ 2 ^ 28) :
    ∃ blocks entry raw, Inserts w (cacheBlocks (sectorNo / 16) n w) blocks ∧ entry ∈ blocks ∧
      entry = ⟨sectorNo / 16 + c.toUInt32, w.bufUnscrambled.advance (c * 32768),
        copyUserData raw (w.bufUnscrambled.advance (c * 32768)) w.disc.copyOffset⟩ ∧
      (∀ a < 33024, raw a = w.buf.advance (c * 33024) a) ∧
      Shows (cacheBlocks (sectorNo / 16) n w) entry := by
  obtain ⟨later, earlier, raw, inserts, same, numbered⟩ :=
    cacheBlocks_inserts_at (sectorNo / 16) below w
  refine ⟨_, _, raw, inserts, List.mem_append_right later List.mem_cons_self, rfl, same, ?_⟩
  refine inserts.shows fun other newer => ?_
  obtain ⟨c', before, block⟩ := numbered other newer
  rw [block]
  exact cachePos_ne w.disc sectorNo before (Nat.lt_of_le_of_lt (Nat.sub_le c c') near)
    (Nat.lt_of_lt_of_le below small)

/-! ## The loop of methods 7 to 9 -/

/-- What a call has put into the cache: blocks with positions of their own. -/
structure Prefetches (w w' : World σ) (blocks : List CachedBlock) : Prop where
  inserts : Inserts w w' blocks
  apart : blocks.Pairwise fun newer older =>
    w.disc.cachePos newer.block ≠ w.disc.cachePos older.block
  unscrambled : ∀ entry ∈ blocks, ∃ inbuf, UnscrambledFrom w inbuf entry

theorem cacheLocals_prefetches (left j : Nat) {arrays : Locals} (bound : j + left ≤ 5)
    (ready : arrays.ReadyFrom w sectorNo left j) (enough : 5 ≤ w.disc.cacheSize) :
    ∃ blocks, Prefetches w (cacheLocals sectorNo left j w arrays).1 blocks ∧
      ∀ entry ∈ blocks, ∃ c, j ≤ c ∧ c < 5 ∧ entry.block = sectorNo / 16 + Nat.toUInt32 c := by
  induction left generalizing j w arrays with
  | zero => exact ⟨[], ⟨(Quiet.refl w).inserts, .nil, nofun⟩, nofun⟩
  | succ left ih =>
      rw [cacheLocals]
      split
      · rename_i before
        obtain ⟨inbuf, seed, handed⟩ := ready.here before
        have first := Inserts.cacheBlock w (sectorNo / 16 + j.toUInt32)
          (arrays.bufUnscrambled.advance (j * 32768)) (arrays.buf.advance (j * 33024))
        obtain ⟨blocks, rest, numbered⟩ := ih (j + 1) (by omega) (ready.next before rfl) enough
        have size : 5 ≤ w.disc.cacheSize.toNat := enough
        refine ⟨_, ⟨first.trans rest.inserts, ?_, ?_⟩, ?_⟩
        · refine List.pairwise_append.mpr ⟨rest.apart, List.pairwise_singleton .., ?_⟩
          intro newer later older first
          obtain rfl := List.mem_singleton.mp first
          obtain ⟨c, after, upper, block⟩ := numbered newer later
          rw [block]
          exact (cachePos_ne w.disc sectorNo after (by omega) (by omega)).symm
        · intro entry member
          rcases List.mem_append.mp member with later | first
          · exact rest.unscrambled entry later
          · obtain rfl := List.mem_singleton.mp first
            exact ⟨inbuf, _, seed, handed, rfl⟩
        · intro entry member
          rcases List.mem_append.mp member with later | first
          · obtain ⟨c, after, upper, block⟩ := numbered entry later
            exact ⟨c, Nat.le_of_succ_le after, upper, block⟩
          · obtain rfl := List.mem_singleton.mp first
            exact ⟨j, Nat.le_refl j, by omega, rfl⟩
      · exact ⟨[], ⟨(Quiet.refl w).inserts, .nil, nofun⟩, nofun⟩

theorem ReadLocals.prefetches {result : World σ × Bool} (read : ReadLocals sectorNo w result)
    (enough : 5 ≤ w.disc.cacheSize) : ∃ blocks, Prefetches w result.1 blocks := by
  cases read with
  | failed quiet => exact ⟨[], quiet.inserts, .nil, nofun⟩
  | @cached w₁ arrays₁ quiet ready =>
      have size : 5 ≤ w₁.disc.cacheSize := by
        rw [quiet.disc]
        exact enough
      obtain ⟨blocks, prefetches, -⟩ := cacheLocals_prefetches 5 0 (Nat.le_refl 5) ready size
      have same : w₁.disc.cachePos = w.disc.cachePos := quiet.inserts.cachePos
      have inserts := quiet.inserts.trans prefetches.inserts
      rw [List.append_nil] at inserts
      refine ⟨blocks, inserts, same ▸ prefetches.apart, fun entry member => ?_⟩
      obtain ⟨inbuf, raw, j, handed, rawdata⟩ := prefetches.unscrambled entry member
      rw [quiet.disctype] at handed
      rw [quiet.copyOffset] at rawdata
      exact ⟨inbuf, raw, j, handed, rawdata⟩

/-! ## Whole reads -/

/-- The call from `w` to `w'` has inserted the block, and a lookup leads to its bytes. -/
structure Readable (w w' : World σ) (inbuf : Buffer) (entry : CachedBlock) : Prop where
  inserted : ∃ blocks, w'.added = blocks ++ w.added ∧ entry ∈ blocks
  unscrambled : UnscrambledFrom w inbuf entry
  shows : Shows w' entry

variable (env : Env σ)

theorem streamingRead_readable {method : Nat} (formed : SeedsWellFormed w.disc.u)
    (small : w.disc.maxBlk.toNat ≤ 2 ^ 28) (success : (streamingRead env method sectorNo w).2 = true)
    {c : Nat} (below : c < w.disc.maxBlk.toNat) (near : c < w.disc.cacheSize.toNat) :
    ∃ entry, entry.block = sectorNo / 16 + c.toUInt32 ∧
      Readable w (streamingRead env method sectorNo w).1
        ((streamLoop env method sectorNo (w.disc.maxCnt.toNat + 1) 0 w).1.buf.advance (c * 33024))
        entry := by
  rcases streamingRead_cases env method sectorNo w with ⟨w', _, ended⟩ | ⟨w', cnt, loop, all, ended⟩
  · rw [ended] at success
    cases success
  · rw [ended, loop]
    have looped := (Quiet.frame env).streamLoop method sectorNo (w.disc.maxCnt.toNat + 1) 0 w
    rw [loop] at looped
    have before := looped.trans (unscrambleBlocks_quiet sectorNo w.disc.maxBlk.toNat w' true)
    have handed := unscrambleBlocks_handed sectorNo w.disc.maxBlk.toNat (looped.formed formed) all
    generalize (unscrambleBlocks sectorNo w.disc.maxBlk.toNat w' true).1 = w₁ at before handed ⊢
    have size : c < w₁.disc.cacheSize.toNat := by
      rw [before.disc]
      exact near
    obtain ⟨blocks, entry, raw, inserts, member, here, same, shows⟩ :=
      cacheBlocks_shows sectorNo below size small
    obtain ⟨j, handed⟩ := handed c below
    rw [looped.disctype] at handed
    rw [before.copyOffset] at here
    have added := (before.inserts.trans inserts).added
    rw [List.append_nil] at added
    refine ⟨entry, congrArg CachedBlock.block here, ⟨blocks, added, member⟩, ⟨raw, j, ?_, ?_⟩, shows⟩
    · rw [here]
      exact handed.congr (fun _ _ => rfl) same fun _ _ => rfl
    · rw [here]

theorem ReadLocals.readable {result : World σ × Bool} (read : ReadLocals sectorNo w result)
    (enough : 5 ≤ w.disc.cacheSize) :
    ∃ blocks, result.1.added = blocks ++ w.added ∧
      ∀ entry ∈ blocks, ∃ inbuf, Readable w result.1 inbuf entry := by
  obtain ⟨blocks, prefetches⟩ := read.prefetches enough
  refine ⟨blocks, prefetches.inserts.added, fun entry member => ?_⟩
  obtain ⟨inbuf, unscrambled⟩ := prefetches.unscrambled entry member
  exact ⟨inbuf, ⟨blocks, prefetches.inserts.added, member⟩, unscrambled,
    prefetches.inserts.shows_all prefetches.apart entry member⟩

/-- What a call prefetches stays readable: of a streaming pass as many blocks as the cache
has room for, of the other methods every block. -/
theorem prefetched_readable (reachable : Friidump.Reachable w.disc.u)
    (enough : 5 ≤ w.disc.cacheSize)
    (maxBlk : w.disc.maxBlk = maxBlkOf w.disc.secMem w.disc.maxCnt) (sectorNo : UInt32) :
    (∀ method, (streamingRead env method sectorNo w).2 = true →
      ∀ c < w.disc.maxBlk.toNat, c < w.disc.cacheSize.toNat →
        ∃ entry, entry.block = sectorNo / 16 + c.toUInt32 ∧
          Readable w (streamingRead env method sectorNo w).1
            ((streamLoop env method sectorNo (w.disc.maxCnt.toNat + 1) 0 w).1.buf.advance
              (c * 33024)) entry) ∧
    ∀ read ∈ [discReadSector7 env, discReadSector8 env, discReadSector9 env],
      ∃ blocks, (read sectorNo w).1.added = blocks ++ w.added ∧
        ∀ entry ∈ blocks, ∃ inbuf, Readable w (read sectorNo w).1 inbuf entry := by
  have formed := reachable.formed
  constructor
  · intro method success c below near
    refine streamingRead_readable env formed ?_ success below near
    rw [maxBlk]
    exact Nat.le_of_lt (maxBlkOf_lt w.disc.secMem w.disc.maxCnt)
  · intro read member
    simp only [List.mem_cons, List.not_mem_nil, or_false] at member
    rcases member with rfl | rfl | rfl
    · exact (discReadSector7_readLocals env sectorNo formed).readable enough
    · exact (discReadSector8_readLocals env sectorNo formed).readable enough
    · exact (discReadSector9_readLocals env sectorNo formed).readable enough

end Reading

/-- A pass over plain sectors in steps of 28 of them. -/
theorem prefetched_readable_counting :
    ∃ d, discNew ⟨.vanilla2064, 2, 0, true⟩ (fun _ _ => 0) (fun _ _ => 0)
        ⟨fun _ => ⟨0, fun _ => 0⟩, false⟩ = some d ∧
      ∃ inbuf entry, entry.block = 64 / 16 + Nat.toUInt32 1 ∧
        Readable (World.created 0 (discSetReadMethod (initRange d notGiven 28) 0) 0)
          (streamingRead (countingEnv 0) 0 64
            (World.created 0 (discSetReadMethod (initRange d notGiven 28) 0) 0)).1 inbuf entry := by
  obtain ⟨d, created, vanilla, reachable, seedless, size⟩ : ∃ d,
      discNew ⟨.vanilla2064, 2, 0, true⟩ (fun _ _ => 0) (fun _ _ => 0)
        ⟨fun _ => ⟨0, fun _ => 0⟩, false⟩ = some d ∧ d.dvd.memdump = .vanilla2064 ∧
      Friidump.Reachable d.u ∧ Seedless d.u ∧ d.cacheSize = 40 :=
    ⟨_, rfl, rfl, .new _, unscramblerNew_seedless _, rfl⟩
  have chosen := discSetReadMethod_admitted d notGiven 0 (by decide : 16 ≤ (28 : UInt32) ∧ 28 ≤ (100 : UInt32))
  have blocks : (discSetReadMethod (initRange d notGiven 28) 0).maxBlk = 7 :=
    congrArg (fun secMem => maxBlkOf secMem (maxCntOf secMem)) chosen
  have enough : 5 ≤ d.cacheSize := by
    rw [size]
    decide
  obtain ⟨w₁, passed⟩ := @countingEnv_streamingRead 0 64
    (World.created 0 (discSetReadMethod (initRange d notGiven 28) 0) 0) 0 vanilla
    (discSetReadMethod_ranged d notGiven 28 0) (by decide) (Nat.zero_le 1) seedless
  obtain ⟨streamed, -⟩ := @prefetched_readable UInt32
    (World.created 0 (discSetReadMethod (initRange d notGiven 28) 0) 0) (countingEnv 0) reachable
    enough rfl 64
  have inside : 1 < (discSetReadMethod (initRange d notGiven 28) 0).maxBlk.toNat := by
    rw [blocks]
    decide
  have near : 1 < d.cacheSize.toNat := by
    rw [size]
    decide
  exact ⟨d, created, _, streamed 0 (congrArg Prod.snd passed) 1 inside near⟩

end Friidump
