import Friidump.CacheAssertion

/-!
# Checked reads

After any calls the cache holds checked blocks only, and a sector that is read is cut from
one of them.
-/

set_option autoImplicit false

namespace Friidump

/-- After any run, every entry of the cache holds a checked block at its position, and
a sector that is read comes from such a block, in both forms. -/
theorem cache_valid_of_run {σ : Type} {env : Env σ} {w w' : World σ} (start : EmptyCache w)
    (run : Relation.ReflTransGen (DiscStep env) w w') :
    (∀ p < w'.disc.cacheSize.toNat, w'.disc.cacheMap p ≠ cacheEntryInvalid →
      (w'.disc.cacheMap p % w'.disc.cacheSize).toNat = p ∧
        BlockValid (dataOffset w'.disctype) (w'.disc.cache p) (w'.disc.rawCache p)) ∧
    ∀ request w'' read, discReadSector env request w' = .ok (w'', read) → read.out = true →
      ∃ data rawdata, discCacheLookupBlock w''.disc (request.sectorNo / 16) = some (data, rawdata) ∧
        BlockValid (dataOffset w'.disctype) data rawdata ∧
        read = sectorOf request data rawdata ∧
        SectorValid (dataOffset w'.disctype) (rawdata.advance (2064 * (request.sectorNo % 16).toNat))
          read := by
  have sound := run_sound start.sound run
  refine ⟨fun _ inside valid => cacheSound_entry sound inside valid, fun request w'' read returned out => ?_⟩
  obtain ⟨data, rawdata, found, valid, same⟩ := (discReadSector_checked env sound returned).2 out
  exact ⟨data, rawdata, found, valid, same, same ▸ sectorOf_valid valid request⟩

/-- A block read from the counting drive is entry 0, and its sector 5 is read from there. -/
theorem cache_valid_of_run_read :
    ∃ d, discNew ⟨.vanilla2064, 2, 0, true⟩ (fun _ _ => 0) (fun _ _ => 0)
        ⟨fun _ => ⟨0, fun _ => 0⟩, false⟩ = some d ∧
      ∃ w read, discReadSector (countingEnv 0) ⟨0, true, true⟩
          (World.created 0 (discSetReadMethod (initRange d notGiven notGiven) 0) 0) = .ok (w, read) ∧
        w.disc.cacheMap 0 = 0 ∧ BlockValid 6 (w.disc.cache 0) (w.disc.rawCache 0) ∧
        ∃ read, discReadSector (countingEnv 0) ⟨5, true, true⟩ w = .ok (w, read) ∧ read.out = true ∧
          SectorValid 6 ((w.disc.rawCache 0).advance 10320) read := by
  obtain ⟨d, created⟩ : ∃ d, discNew ⟨.vanilla2064, 2, 0, true⟩ (fun _ _ => 0) (fun _ _ => 0)
      ⟨fun _ => ⟨0, fun _ => 0⟩, false⟩ = some d := ⟨_, rfl⟩
  obtain ⟨start, -, -, enabled⟩ := counting_setUp created
  obtain ⟨w, data, rawdata, returned, found, kept⟩ :=
    countingEnv_firstRead created (by decide : (0 : UInt32).toNat ≤ 32768)
  have on : w.disc.unscrambling = true := by
    rw [kept.disc]
    exact enabled
  have offset : dataOffset w.disctype = 6 := by
    rw [kept.disctype]
    rfl
  have positive : 0 < w.disc.cacheSize := by
    rw [kept.disc]
    exact start.positive
  have first : w.disc.cachePos 0 = 0 := by
    rw [Disc.cachePos, UInt32.toNat_mod]
    exact Nat.zero_mod _
  have again : discReadSector (countingEnv 0) ⟨5, true, true⟩ w =
      .ok (w, sectorOf ⟨5, true, true⟩ data rawdata) :=
    discReadSector_hit _ (by rw [on]; rfl) found
  have zero : (0 : UInt32) / 16 = 0 := by decide
  have entry : w.disc.cacheMap 0 = 0 ∧ data = w.disc.cache 0 ∧ rawdata = w.disc.rawCache 0 := by
    rw [zero, discCacheLookupBlock, first] at found
    split at found
    · rename_i here
      cases found
      exact ⟨here, rfl, rfl⟩
    · cases found
  obtain ⟨here, rfl, rfl⟩ := entry
  obtain ⟨entries, reads⟩ := cache_valid_of_run start (.single (.read returned))
  have filled : w.disc.cacheMap 0 ≠ cacheEntryInvalid := by
    rw [here]
    decide
  obtain ⟨data, rawdata, found', -, same, sector⟩ := reads ⟨5, true, true⟩ w _ again rfl
  have block : (5 : UInt32) / 16 = 0 / 16 := by decide
  rw [block, found] at found'
  cases found'
  refine ⟨d, created, w, _, returned, here, ?_, _, again, rfl, ?_⟩
  · rw [← offset]
    exact (entries 0 positive filled).2
  · rw [← offset]
    exact sector

end Friidump
