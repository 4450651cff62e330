import Friidump.DiscProperties
import Friidump.Theory.DirectMapped

/-!
# The block cache as a map

The three arrays of the cache are a direct-mapped memory of blocks. What a lookup
returns is what the last block added at its position makes of it.
-/

set_option autoImplicit false

namespace Friidump

open Theory (insertAll fetch lastWriter)

/-- The bytes of a block, its user data and its raw sectors. -/
abbrev BlockBytes := List UInt8 × List UInt8

/-! ## One insertion, one lookup -/

def Disc.cells (d : Disc) (p : Nat) : UInt32 × BlockBytes :=
  (d.cacheMap p, (d.cache p).bytes 32768, (d.rawCache p).bytes 33024)

/-- The raw block with `data` in the user data field of its 16 sectors. -/
def withUserData (rawdata data : Buffer) (offset : Nat) : Buffer := fun a =>
  if offset ≤ a % 2064 ∧ a % 2064 < offset + 2048 then data (2048 * (a / 2064) + (a % 2064 - offset))
  else rawdata a

/-- What a block stands for in the cache. -/
def Disc.entry (d : Disc) (block : UInt32) (data rawdata : Buffer) : UInt32 × BlockBytes :=
  (block, data.bytes 32768, (withUserData rawdata data d.copyOffset).bytes 33024)

/-- The bytes that the two pointers of a lookup lead to. -/
def Disc.lookup (d : Disc) (block : UInt32) : Option BlockBytes :=
  (discCacheLookupBlock d block).map fun found => (found.1.bytes 32768, found.2.bytes 33024)

theorem bytes_memcpy (dst src : Buffer) (length : Nat) :
    (dst.memcpy 0 src length).bytes length = src.bytes length :=
  Buffer.bytes_congr fun i inside =>
    Buffer.memcpy_inside dst src (Nat.zero_le i) (by omega)

theorem bytes_copyUserData (rawdata data : Buffer) {offset : Nat} (small : offset ≤ 16) :
    (copyUserData rawdata data offset).bytes 33024 = (withUserData rawdata data offset).bytes 33024 := by
  refine Buffer.bytes_congr fun a inside => ?_
  have quotient : a / 2064 < 16 := by omega
  have copied := copyUserData_apply rawdata data small quotient (Nat.mod_lt a (by decide : 0 < 2064))
  rwa [Nat.div_add_mod] at copied

theorem discCacheAddBlock_cells (d : Disc) (block : UInt32) (data rawdata : Buffer) :
    (discCacheAddBlock d block data rawdata).1.cells =
      Function.update d.cells (d.cachePos block) (d.entry block data rawdata) := by
  funext p
  by_cases here : p = d.cachePos block
  · subst here
    simp [discCacheAddBlock, Disc.cells, Disc.entry, bytes_memcpy,
      bytes_copyUserData rawdata data d.copyOffset_bounds.2]
  · simp [discCacheAddBlock, Disc.cells, here]

theorem Disc.lookup_eq_fetch (d : Disc) (block : UInt32) :
    d.lookup block = fetch d.cachePos d.cells block := by
  unfold Disc.lookup discCacheLookupBlock fetch
  by_cases hit : d.cacheMap (d.cachePos block) = block
  · simp [Disc.cells, hit]
  · simp [Disc.cells, hit]

/-! ## Whole histories -/

inductive CacheCall
  | add (block : UInt32) (data rawdata : Buffer)
  | lookup (block : UInt32)

/-- The results of the lookups among some calls, in their order. -/
def cacheReplies (d : Disc) : List CacheCall → List (Option BlockBytes)
  | [] => []
  | .add block data rawdata :: calls => cacheReplies (discCacheAddBlock d block data rawdata).1 calls
  | .lookup block :: calls => d.lookup block :: cacheReplies d calls

/-- The results that a map would give after some insertions, the latest one first. -/
def mapReplies (d : Disc) : List (UInt32 × BlockBytes) → List CacheCall → List (Option BlockBytes)
  | _, [] => []
  | history, .add block data rawdata :: calls =>
      mapReplies d (d.entry block data rawdata :: history) calls
  | history, .lookup block :: calls =>
      lastWriter d.cachePos history block :: mapReplies d history calls

/-- A block number that a read or a lookup can come to. -/
def ReachableBlock (block : UInt32) : Prop :=
  ∃ (sectorNo secMem : UInt32) (c : Nat), c < (maxBlkOf secMem (maxCntOf secMem)).toNat ∧
    block = sectorNo / 16 + c.toUInt32

theorem maxBlkOf_lt (secMem maxCnt : UInt32) : (maxBlkOf secMem maxCnt).toNat < 2 ^ 28 := by
  rw [maxBlkOf, UInt32.toNat_div]
  have bound := (secMem * (maxCnt + 1) - secMem * (maxCnt + 1) % 16).toNat_lt
  simp only [UInt32.reduceToNat]
  omega

theorem toNat_block_add (sectorNo : UInt32) {c : Nat} (small : c < 2 ^ 28) :
    (sectorNo / 16 + c.toUInt32).toNat = sectorNo.toNat / 16 + c := by
  have below := sectorNo.toNat_lt
  have offset : c.toUInt32.toNat = c := Nat.mod_eq_of_lt (by omega)
  rw [UInt32.toNat_add, UInt32.toNat_div, offset]
  exact Nat.mod_eq_of_lt (by simp only [UInt32.reduceToNat]; omega)

/-- Blocks nearer to each other than the size of the cache have positions of their own. -/
theorem cachePos_ne (d : Disc) (sectorNo : UInt32) {c c' : Nat} (later : c < c')
    (near : c' - c < d.cacheSize.toNat) (small : c' < 2 ^ 28) :
    d.cachePos (sectorNo / 16 + c.toUInt32) ≠ d.cachePos (sectorNo / 16 + c'.toUInt32) := by
  simp only [Disc.cachePos, UInt32.toNat_mod, toNat_block_add sectorNo small,
    toNat_block_add sectorNo (Nat.lt_trans later small)]
  intro same
  have difference := Nat.sub_mod_eq_zero_of_mod_eq same.symm
  rw [Nat.add_sub_add_left, Nat.mod_eq_of_lt near] at difference
  omega

/-- The mark of a free entry is out of the range of block numbers. -/
theorem ReachableBlock.ne_invalid {block : UInt32} (reachable : ReachableBlock block) :
    block ≠ cacheEntryInvalid := by
  obtain ⟨sectorNo, secMem, c, below, rfl⟩ := reachable
  have bound := maxBlkOf_lt secMem (maxCntOf secMem)
  have value := toNat_block_add sectorNo (Nat.lt_trans below bound)
  have sector := sectorNo.toNat_lt
  intro same
  rw [same] at value
  have mark : cacheEntryInvalid.toNat = 4294967295 := rfl
  omega

theorem cacheReplies_eq {d₀ d : Disc} {history : List (UInt32 × BlockBytes)} {calls : List CacheCall}
    (place : d.cachePos = d₀.cachePos) (offset : d.copyOffset = d₀.copyOffset)
    (cells : d.cells = insertAll d₀.cachePos d₀.cells history)
    (empty : ∀ p, (d₀.cells p).1 = cacheEntryInvalid)
    (reachable : ∀ block, .lookup block ∈ calls → ReachableBlock block) :
    cacheReplies d calls = mapReplies d₀ history calls := by
  induction calls generalizing d history with
  | nil => rfl
  | cons call calls ih =>
      have later : ∀ block, .lookup block ∈ calls → ReachableBlock block := fun block member =>
        reachable block (List.mem_cons_of_mem _ member)
      cases call with
      | add block data rawdata =>
          rw [cacheReplies, mapReplies]
          refine ih place offset ?_ later
          rw [discCacheAddBlock_cells, insertAll, cells, place]
          simp only [Disc.entry, offset]
      | lookup block =>
          have absent : (d₀.cells (d₀.cachePos block)).1 ≠ block := by
            rw [empty]
            exact (reachable block List.mem_cons_self).ne_invalid.symm
          rw [cacheReplies, mapReplies, d.lookup_eq_fetch, cells, place,
            Theory.fetch_insertAll _ absent, ih place offset cells later]

/-- Whatever is added and looked up on a new cache, it answers as the map does. -/
theorem cache_refines_map {d₀ d : Disc} {size : UInt32} {memory rawMemory : Nat → Buffer}
    (init : discCacheInit d₀ size memory rawMemory = some d) {calls : List CacheCall}
    (reachable : ∀ block, .lookup block ∈ calls → ReachableBlock block) :
    d.cacheSize = size ∧ 5 ≤ size.toNat ∧ cacheReplies d calls = mapReplies d [] calls := by
  unfold discCacheInit at init
  split at init
  · cases init
  · rename_i enough
    cases init
    refine ⟨rfl, UInt32.le_iff_toNat_le.mp (UInt32.not_lt.mp enough), ?_⟩
    exact cacheReplies_eq rfl rfl rfl (fun _ => rfl) reachable

/-- Blocks 0 and 5 share a position in a cache of five. -/
theorem cache_refines_map_collision :
    ∃ d₀ d, discNew ⟨.hitachi, 2, 9, true⟩ (fun _ _ => 0) (fun _ _ => 0)
        ⟨fun _ => ⟨0, fun _ => 0⟩, false⟩ = some d₀ ∧
      discCacheInit d₀ 5 (fun _ _ => 0) (fun _ _ => 0) = some d ∧
      cacheReplies d [.add 0 (fun _ => 1) (fun _ => 2), .add 5 (fun _ => 3) (fun _ => 4),
          .lookup 0, .lookup 5] =
        [none, some (d.entry 5 (fun _ => 3) (fun _ => 4)).2] := by
  obtain ⟨d₀, created⟩ : ∃ d₀, discNew ⟨.hitachi, 2, 9, true⟩ (fun _ _ => 0) (fun _ _ => 0)
      ⟨fun _ => ⟨0, fun _ => 0⟩, false⟩ = some d₀ := ⟨_, rfl⟩
  obtain ⟨d, init⟩ : ∃ d, discCacheInit d₀ 5 (fun _ _ => 0) (fun _ _ => 0) = some d := ⟨_, rfl⟩
  have reachable : ∀ block, CacheCall.lookup block ∈ [.add 0 (fun _ => 1) (fun _ => 2),
      .add 5 (fun _ => 3) (fun _ => 4), .lookup 0, .lookup 5] → ReachableBlock block := by
    intro block member
    simp only [List.mem_cons, reduceCtorEq, CacheCall.lookup.injEq, List.not_mem_nil, or_false,
      false_or] at member
    obtain rfl | rfl := member
    · exact ⟨0, 16, 0, by decide, rfl⟩
    · exact ⟨80, 16, 0, by decide, rfl⟩
  obtain ⟨size, -, refined⟩ := cache_refines_map init reachable
  refine ⟨d₀, d, created, init, refined.trans ?_⟩
  have first : d.cachePos 0 = 0 := by simp [Disc.cachePos, size]
  have sixth : d.cachePos 5 = 0 := by simp [Disc.cachePos, size]
  simp [mapReplies, lastWriter, Disc.entry, first, sixth]

end Friidump
