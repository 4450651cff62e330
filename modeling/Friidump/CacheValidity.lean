import Friidump.DiscMethodsProperties
import Mathlib.Logic.Relation

/-!
# The cache over whole runs

Whatever the drive answers, only checked blocks come into the cache, and what
is read comes from there.
-/

set_option autoImplicit false

namespace Friidump

section Runs

variable {σ : Type} {w w' : World σ} {sectorNo : UInt32}

/-- The disc and the unscrambler are set to the same mode. -/
def Agree (w : World σ) : Prop := w.disctype = 3 ↔ w.disc.type = .dvd

theorem Agree.offset (agree : Agree w) : w.disc.copyOffset = dataOffset w.disctype :=
  if_congr agree.symm rfl rfl

theorem Extends.agree {P : CachedBlock → Prop} (kept : Extends P w w') (agree : Agree w) : Agree w' := by
  unfold Agree
  rw [kept.disc, kept.disctype]
  exact agree

/-- What the owner of an opened disc can do with it. -/
inductive DiscStep (env : Env σ) : World σ → World σ → Prop
  | read {w w' : World σ} {request : Request} {read : SectorRead}
      (returned : discReadSector env request w = .ok (w', read)) : DiscStep env w w'
  | initRange (w : World σ) (secDisc secMem : UInt32) :
      DiscStep env w (w.withDisc (initRange w.disc secDisc secMem))
  | setReadMethod (w : World σ) (method : Int) :
      DiscStep env w (w.withDisc (discSetReadMethod w.disc method))
  | setUnscrambling (w : World σ) (unscramble : Bool) :
      DiscStep env w (w.withDisc (discSetUnscrambling w.disc unscramble))
  | setBruteforce (w : World σ) (b : Bool) :
      DiscStep env w (w.withDisc { w.disc with u := unscramblerSetBruteforce w.disc.u b })

structure EmptyCache (w : World σ) : Prop where
  reachable : Friidump.Reachable w.disc.u
  agree : Agree w
  positive : 0 < w.disc.cacheSize
  empty : ∀ p < w.disc.cacheSize.toNat, w.disc.cacheMap p = cacheEntryInvalid
  recorded : w.added = []

/-- The program with a disc just created: the global buffers are zero. -/
def World.created (drive : σ) (d : Disc) (disctype : UInt8) : World σ :=
  { drive := drive, disc := d, buf := fun _ => 0, bufUnscrambled := fun _ => 0
    disctype := disctype, added := [] }

theorem discNew_emptyCache {dvd : DvdDrive} {memory rawMemory : Nat → Buffer}
    {unscramblerMemory : Unscrambler} {d : Disc}
    (created : discNew dvd memory rawMemory unscramblerMemory = some d) (drive : σ)
    {disctype : UInt8} (nintendo : disctype ≠ 3) : EmptyCache (World.created drive d disctype) := by
  cases created
  have positive : (0 : UInt32) < 40 := by decide
  exact ⟨.new unscramblerMemory, iff_of_false nintendo nofun, positive, fun _ _ => rfl, rfl⟩

/-- Every block recorded is valid, and the cache holds nothing else. -/
structure CacheSound (w : World σ) : Prop where
  formed : SeedsWellFormed w.disc.u
  agree : Agree w
  positive : 0 < w.disc.cacheSize
  backed : Backed w
  valid : ∀ entry ∈ w.added, BlockValid (dataOffset w.disctype) entry.data entry.rawdata

theorem EmptyCache.sound (start : EmptyCache w) : CacheSound w where
  formed := start.reachable.formed
  agree := start.agree
  positive := start.positive
  backed p inside valid := absurd (start.empty p inside) valid
  valid entry member := by
    rw [start.recorded] at member
    cases member

theorem Extends.sound (sound : CacheSound w)
    (kept : Extends (fun entry => BlockValid (dataOffset w.disctype) entry.data entry.rawdata)
      w w') : CacheSound w' where
  formed := kept.formed sound.formed
  agree := kept.agree sound.agree
  positive := by
    rw [kept.disc]
    exact sound.positive
  backed := kept.backed sound.backed
  valid entry member := by
    obtain ⟨blocks, extended, valid⟩ := kept.added
    rw [extended] at member
    rw [kept.disctype]
    exact (List.mem_append.mp member).elim (valid entry) (sound.valid entry)

variable (env : Env σ)

/-- Every read method caches only what the unscrambler hands over. -/
theorem readSector_extends {P : CachedBlock → Prop} (formed : SeedsWellFormed w.disc.u)
    (good : ∀ block raw data seed, (∃ inbuf, Handed w.disctype inbuf raw data seed) →
      P ⟨block, data, copyUserData raw data w.disc.copyOffset⟩) :
    Extends P w (readSector env sectorNo w).1 := by
  have locals : ∀ result, ReadLocals sectorNo w result → Extends P w result.1 :=
    fun result read => read.extends fun c => good _
  unfold readSector
  split
  · exact locals _ (discReadSector7_readLocals env sectorNo formed)
  · exact locals _ (discReadSector8_readLocals env sectorNo formed)
  · exact locals _ (discReadSector9_readLocals env sectorNo formed)
  · let usable := fun w' : World σ =>
      SeedsWellFormed w'.disc.u ∧ w'.disctype = w.disctype ∧ w'.disc.copyOffset = w.disc.copyOffset
    have carried : ∀ {w₁ w₂ : World σ}, usable w₁ → Extends P w₁ w₂ →
        Extends P w₁ w₂ ∧ usable w₂ := fun start kept =>
      ⟨kept, kept.formed start.1, kept.disctype.trans start.2.1, kept.copyOffset.trans start.2.2⟩
    refine (discReadSectorGeneric_extends env usable ⟨formed, rfl, rfl⟩ ?_ ?_).1
    · intro w₁ start
      refine carried start (streamingRead_extends env start.1 ?_)
      intro w₂ _ _ _ c _ raw data seed handed
      rw [start.2.1] at handed
      rw [start.2.2]
      exact good _ raw data seed ⟨_, handed⟩
    · intro w₁ start
      refine carried start (simpleRead_extends env start.1 ?_)
      intro w₂ _ raw data seed handed
      rw [start.2.1] at handed
      rw [start.2.2]
      exact good _ raw data seed ⟨_, handed⟩

theorem readSector_blockValid (formed : SeedsWellFormed w.disc.u) (agree : Agree w) :
    Extends (fun entry => BlockValid (dataOffset w.disctype) entry.data entry.rawdata) w
      (readSector env sectorNo w).1 := by
  refine readSector_extends env formed ?_
  rintro block raw data seed ⟨inbuf, handed⟩
  rw [agree.offset]
  exact handed.blockValid

/-! ## Looking a block up -/

/-- The sector a caller gets is one that passed its check. -/
structure SectorValid (offset : Nat) (raw : Buffer) (read : SectorRead) : Prop where
  checked : edcCalc 0 (raw.bytes 2060) = (raw.advance 2060).loadWordBig
  rawdata : ∀ rawdata, read.rawdata = some rawdata → ∀ i < 2064, rawdata i = raw i
  data : ∀ data, read.data = some data → ∀ i < 2048, data i = raw (offset + i)

/-- The number of a block on a disc is never the mark of a free entry. -/
theorem div_ne_cacheEntryInvalid (sectorNo : UInt32) : sectorNo / 16 ≠ cacheEntryInvalid := by
  intro same
  have value := congrArg UInt32.toNat same
  have below := sectorNo.toNat_lt
  rw [UInt32.toNat_div, cacheEntryInvalid] at value
  simp only [UInt32.reduceToNat] at value
  omega

theorem EmptyCache.missing (start : EmptyCache w) :
    discCacheLookupBlock w.disc (sectorNo / 16) = none := by
  have inside : w.disc.cachePos (sectorNo / 16) < w.disc.cacheSize.toNat := by
    rw [Disc.cachePos, UInt32.toNat_mod]
    exact Nat.mod_lt _ start.positive
  have free := start.empty _ inside
  exact if_neg fun here => div_ne_cacheEntryInvalid sectorNo (here.symm.trans free)

theorem Backed.lookup (backed : Backed w) (positive : 0 < w.disc.cacheSize) {data rawdata : Buffer}
    (found : discCacheLookupBlock w.disc (sectorNo / 16) = some (data, rawdata)) :
    ∃ entry ∈ w.added, entry.block = sectorNo / 16 ∧ (∀ a < 32768, data a = entry.data a) ∧
      ∀ a < 33024, rawdata a = entry.rawdata a := by
  rw [discCacheLookupBlock] at found
  split at found
  · rename_i here
    cases found
    have inside : w.disc.cachePos (sectorNo / 16) < w.disc.cacheSize.toNat := by
      rw [Disc.cachePos, UInt32.toNat_mod]
      exact Nat.mod_lt _ positive
    have valid := div_ne_cacheEntryInvalid sectorNo
    rw [← here] at valid
    obtain ⟨entry, member, same, _, sameData, sameRaw⟩ := backed _ inside valid
    exact ⟨entry, member, same.trans here, sameData, sameRaw⟩
  · cases found

theorem cacheSound_entry (sound : CacheSound w) {p : Nat} (inside : p < w.disc.cacheSize.toNat)
    (valid : w.disc.cacheMap p ≠ cacheEntryInvalid) :
    w.disc.cachePos (w.disc.cacheMap p) = p ∧
      BlockValid (dataOffset w.disctype) (w.disc.cache p) (w.disc.rawCache p) := by
  obtain ⟨entry, member, same, place, sameData, sameRaw⟩ := sound.backed p inside valid
  have small : dataOffset w.disctype ≤ 16 := Nat.le_trans (dataOffset_le _) (by decide)
  exact ⟨same ▸ place, (sound.valid entry member).congr small sameData sameRaw⟩

theorem lookup_blockValid (sound : CacheSound w) {sectorNo : UInt32} {data rawdata : Buffer}
    (found : discCacheLookupBlock w.disc (sectorNo / 16) = some (data, rawdata)) :
    BlockValid (dataOffset w.disctype) data rawdata := by
  obtain ⟨entry, member, _, sameData, sameRaw⟩ := sound.backed.lookup sound.positive found
  have small : dataOffset w.disctype ≤ 16 := Nat.le_trans (dataOffset_le _) (by decide)
  exact (sound.valid entry member).congr small sameData sameRaw

theorem sectorOf_valid {offset : Nat} {data rawdata : Buffer} (valid : BlockValid offset data rawdata)
    (request : Request) : SectorValid offset (rawdata.advance (2064 * (request.sectorNo % 16).toNat))
      (sectorOf request data rawdata) := by
  have inside : (request.sectorNo % 16).toNat < 16 := by
    rw [UInt32.toNat_mod]
    exact Nat.mod_lt _ (by decide)
  refine ⟨valid.checked _ inside, ?_, ?_⟩
  · intro shown pointer i _
    simp only [sectorOf, Option.ite_none_right_eq_some, Option.some.injEq] at pointer
    obtain ⟨_, rfl⟩ := pointer
    rw [Buffer.advance_apply, Buffer.advance_apply, Nat.mul_comm]
  · intro shown pointer i below
    simp only [sectorOf, Option.ite_none_right_eq_some, Option.some.injEq] at pointer
    obtain ⟨_, rfl⟩ := pointer
    rw [Buffer.advance_apply, Buffer.advance_apply, Nat.mul_comm]
    exact valid.agrees _ inside i below

/-- The ways a call can end. -/
inductive Returned (w : World σ) (request : Request) : Except Abort (World σ × SectorRead) → Prop
  | disabled (needed : (request.wantData && !w.disc.unscrambling) = true) :
      Returned w request (.error .unscramblingDisabled)
  | cached {data rawdata : Buffer}
      (found : discCacheLookupBlock w.disc (request.sectorNo / 16) = some (data, rawdata)) :
      Returned w request (.ok (w, sectorOf request data rawdata))
  | read {w' : World σ} {data rawdata : Buffer}
      (missing : discCacheLookupBlock w.disc (request.sectorNo / 16) = none)
      (success : readSector env request.sectorNo w = (w', true))
      (found : discCacheLookupBlock w'.disc (request.sectorNo / 16) = some (data, rawdata)) :
      Returned w request (.ok (w', sectorOf request data rawdata))
  | lost {w' : World σ} (missing : discCacheLookupBlock w.disc (request.sectorNo / 16) = none)
      (success : readSector env request.sectorNo w = (w', true))
      (lost : discCacheLookupBlock w'.disc (request.sectorNo / 16) = none) :
      Returned w request (.error .blockNotCached)
  | failed {w' : World σ} (missing : discCacheLookupBlock w.disc (request.sectorNo / 16) = none)
      (failure : readSector env request.sectorNo w = (w', false)) :
      Returned w request (.ok (w', { out := false, data := none, rawdata := none }))

theorem discReadSector_returned (w : World σ) (request : Request) :
    Returned env w request (discReadSector env request w) := by
  unfold discReadSector
  split
  · rename_i needed
    exact .disabled needed
  · dsimp only
    cases missing : discCacheLookupBlock w.disc (request.sectorNo / 16) with
    | some entry => exact .cached missing
    | none =>
        rcases read : readSector env request.sectorNo w with ⟨w', out⟩
        cases out with
        | false => exact .failed missing read
        | true =>
            cases found : discCacheLookupBlock w'.disc (request.sectorNo / 16) with
            | some entry =>
                simp only [found]
                exact .read missing read found
            | none =>
                simp only [found]
                exact .lost missing read found

/-- A block in the cache is not read again. -/
theorem discReadSector_hit {request : Request} {data rawdata : Buffer}
    (enabled : (request.wantData && !w.disc.unscrambling) = false)
    (found : discCacheLookupBlock w.disc (request.sectorNo / 16) = some (data, rawdata)) :
    discReadSector env request w = .ok (w, sectorOf request data rawdata) := by
  rw [discReadSector, if_neg (by rw [enabled]; exact Bool.false_ne_true)]
  dsimp only
  rw [found]

/-- A sector that is returned is cut from a block that is in the cache and valid. -/
theorem discReadSector_checked (sound : CacheSound w) {request : Request} {read : SectorRead}
    (returned : discReadSector env request w = .ok (w', read)) :
    CacheSound w' ∧ (read.out = true → ∃ data rawdata,
      discCacheLookupBlock w'.disc (request.sectorNo / 16) = some (data, rawdata) ∧
        BlockValid (dataOffset w.disctype) data rawdata ∧ read = sectorOf request data rawdata) := by
  have ended := discReadSector_returned env w request
  have fresh : Extends (fun entry => BlockValid (dataOffset w.disctype) entry.data entry.rawdata) w
      (readSector env request.sectorNo w).1 := readSector_blockValid env sound.formed sound.agree
  rw [returned] at ended
  cases ended with
  | cached found =>
      exact ⟨sound, fun _ => ⟨_, _, found, lookup_blockValid sound found, rfl⟩⟩
  | read missing success found =>
      rw [success] at fresh
      refine ⟨fresh.sound sound, fun _ => ⟨_, _, found, ?_, rfl⟩⟩
      rw [← fresh.disctype]
      exact lookup_blockValid (fresh.sound sound) found
  | failed missing failure =>
      rw [failure] at fresh
      exact ⟨fresh.sound sound, nofun⟩

theorem discReadSector_sound (sound : CacheSound w) {request : Request} {read : SectorRead}
    (returned : discReadSector env request w = .ok (w', read)) :
    CacheSound w' ∧ (read.out = true → ∃ raw, SectorValid (dataOffset w.disctype) raw read) := by
  obtain ⟨sound', checked⟩ := discReadSector_checked env sound returned
  refine ⟨sound', fun out => ?_⟩
  obtain ⟨data, rawdata, -, valid, same⟩ := checked out
  exact ⟨_, same ▸ sectorOf_valid valid request⟩

/-! ## Runs -/

variable {env}

theorem DiscStep.sound (step : DiscStep env w w') (sound : CacheSound w) : CacheSound w' := by
  cases step with
  | read returned => exact (discReadSector_sound env sound returned).1
  | initRange => exact ⟨sound.formed, sound.agree, sound.positive, sound.backed, sound.valid⟩
  | setReadMethod => exact ⟨sound.formed, sound.agree, sound.positive, sound.backed, sound.valid⟩
  | setUnscrambling => exact ⟨sound.formed, sound.agree, sound.positive, sound.backed, sound.valid⟩
  | setBruteforce =>
      exact ⟨⟨sound.formed.entry, sound.formed.sentinel⟩, sound.agree, sound.positive,
        sound.backed, sound.valid⟩

theorem run_sound (start : CacheSound w) (run : Relation.ReflTransGen (DiscStep env) w w') :
    CacheSound w' := by
  induction run with
  | refl => exact start
  | tail _ step ih => exact step.sound ih

end Runs

end Friidump
