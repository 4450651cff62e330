import Friidump.CacheBlindness
import Friidump.DiscMethodsProperties
import Friidump.HashedDump

/-!
# Hashing in place spoils no dump

What SHA-1 leaves in the cache are sectors that have been written already. The
sectors ahead of them are in the cache as they were read, so that the dump that hashes
writes what the dump that does not hash writes.
-/

set_option autoImplicit false

namespace Friidump

open Theory (WriteReply FlushReply)

section Refinement

variable {σ : Type} {n : Nat} {w w' w₁ : World σ}

/-- The sectors from number `n` on have the same bytes in both caches. -/
def World.AgreesFrom (n : Nat) (w w' : World σ) : Prop :=
  ∀ format : Format, ∀ p, ∀ k < 16, n ≤ 16 * (w.disc.cacheMap p).toNat + k →
    ∀ a < format.size,
      format.cache w'.disc p (k * format.size + a) = format.cache w.disc p (k * format.size + a)

/-- The second state differs from the first one in cached sectors before number `n` only. -/
inductive SameAhead (n : Nat) (w : World σ) : World σ → Prop
  | recached {cache rawCache : Nat → Buffer} (agrees : w.AgreesFrom n (w.recached cache rawCache)) :
      SameAhead n w (w.recached cache rawCache)

theorem SameAhead.refl (n : Nat) (w : World σ) : SameAhead n w w :=
  @SameAhead.recached _ n w w.disc.cache w.disc.rawCache fun _ _ _ _ _ _ _ => rfl

/-- What does not look at the cached bytes keeps the states in step. -/
theorem World.AgreesFrom.quiet {cache rawCache : Nat → Buffer}
    (agrees : w.AgreesFrom n (w.recached cache rawCache)) (quiet : Quiet w w₁) :
    SameAhead n w₁ (w₁.recached cache rawCache) := by
  refine .recached fun format p k insideBlock ahead a insideSector => ?_
  rw [quiet.disc] at ahead
  have same := agrees format p k insideBlock ahead a insideSector
  cases format with
  | raw =>
      have kept : w₁.disc.rawCache = w.disc.rawCache := by rw [quiet.disc]
      exact same.trans (congrFun (congrFun kept p) _).symm
  | iso =>
      have kept : w₁.disc.cache = w.disc.cache := by rw [quiet.disc]
      exact same.trans (congrFun (congrFun kept p) _).symm

/-! ## Caching the blocks -/

/-- The bytes that come into the cache for a block. -/
def Format.cached (format : Format) (d : Disc) (data rawdata : Buffer) : Buffer :=
  match format with
  | .raw => copyUserData rawdata data d.copyOffset
  | .iso => data

theorem Format.cache_cacheBlock (format : Format) (w : World σ) (block : UInt32)
    (data rawdata : Buffer) (p : Nat) :
    format.cache (w.cacheBlock block data rawdata).1.disc p =
      if p = w.disc.cachePos block then
        (format.cache w.disc p).memcpy 0 (format.cached w.disc data rawdata) (16 * format.size)
      else format.cache w.disc p := by
  cases format <;> rfl

theorem SameAhead.cacheBlock (same : SameAhead n w w') (block : UInt32) (data rawdata : Buffer) :
    SameAhead n (w.cacheBlock block data rawdata).1 (w'.cacheBlock block data rawdata).1 ∧
      (w.cacheBlock block data rawdata).2 = (w'.cacheBlock block data rawdata).2 := by
  cases same with
  | @recached cache rawCache agrees =>
      refine ⟨@SameAhead.recached _ n (w.cacheBlock block data rawdata).1 _ _
        fun format p k insideBlock ahead a insideSector => ?_, rfl⟩
      have first := congrFun (format.cache_cacheBlock w block data rawdata p) (k * format.size + a)
      have second := congrFun (format.cache_cacheBlock (w.recached cache rawCache) block data rawdata p)
        (k * format.size + a)
      refine second.trans (Eq.trans ?_ first.symm)
      by_cases here : p = w.disc.cachePos block
      · have there : p = (w.recached cache rawCache).disc.cachePos block := here
        have inside : k * format.size + a < 0 + 16 * format.size := by
          rw [Nat.zero_add]
          exact Buffer.position_lt insideBlock insideSector
        rw [if_pos here, if_pos there, Buffer.memcpy_inside _ _ (Nat.zero_le _) inside,
          Buffer.memcpy_inside _ _ (Nat.zero_le _) inside]
        cases format <;> rfl
      · have there : ¬ p = (w.recached cache rawCache).disc.cachePos block := here
        have map : (w.cacheBlock block data rawdata).1.disc.cacheMap p = w.disc.cacheMap p :=
          if_neg here
        rw [map] at ahead
        rw [if_neg here, if_neg there]
        exact agrees format p k insideBlock ahead a insideSector

theorem SameAhead.withBuf (same : SameAhead n w w') (buf : Buffer) :
    SameAhead n (w.withBuf buf) (w'.withBuf buf) := by
  cases same with
  | recached agrees => exact agrees.quiet (.withBuf w buf)

theorem SameAhead.buf (same : SameAhead n w w') :
    w.buf = w'.buf ∧ w.bufUnscrambled = w'.bufUnscrambled := by
  cases same with
  | recached => exact ⟨rfl, rfl⟩

theorem SameAhead.beforeEnd (same : SameAhead n w w') (sectorNo : UInt32) (j : Nat) :
    beforeEnd w sectorNo j = beforeEnd w' sectorNo j := by
  cases same with
  | recached => rfl

theorem SameAhead.cacheBuf (same : SameAhead n w w') (block : UInt32) (cnt : Nat) :
    SameAhead n (w.cacheBuf block cnt) (w'.cacheBuf block cnt) := by
  obtain ⟨buf, bufUnscrambled⟩ := same.buf
  unfold World.cacheBuf World.cacheBlockAt
  rw [buf, bufUnscrambled]
  obtain ⟨kept, rawdata⟩ := same.cacheBlock block (w'.bufUnscrambled.advance (cnt * 32768))
    (w'.buf.advance (cnt * 33024))
  dsimp only
  rw [rawdata]
  exact kept.withBuf _

theorem SameAhead.cacheBlocks (same : SameAhead n w w') (startBlock : UInt32) (left : Nat) :
    SameAhead n (cacheBlocks startBlock left w) (cacheBlocks startBlock left w') := by
  induction left generalizing w w' with
  | zero => exact same
  | succ left ih => exact ih (same.cacheBuf _ left)

theorem SameAhead.cacheLocals (same : SameAhead n w w') (sectorNo : UInt32) (left j : Nat)
    (arrays : Locals) :
    SameAhead n (cacheLocals sectorNo left j w arrays).1 (cacheLocals sectorNo left j w' arrays).1 ∧
      (Friidump.cacheLocals sectorNo left j w arrays).2 =
        (Friidump.cacheLocals sectorNo left j w' arrays).2 := by
  induction left generalizing j w w' arrays with
  | zero => exact ⟨same, rfl⟩
  | succ left ih =>
      rw [Friidump.cacheLocals, Friidump.cacheLocals, same.beforeEnd]
      split
      · obtain ⟨kept, rawdata⟩ := same.cacheBlock (sectorNo / 16 + j.toUInt32)
          (arrays.bufUnscrambled.advance (j * 32768)) (arrays.buf.advance (j * 33024))
        unfold World.cacheBlockAt
        dsimp only
        rw [rawdata]
        exact ih kept (j + 1) _
      · exact ⟨same, rfl⟩

/-! ## The read methods -/

variable (env : Env σ)

theorem SameAhead.streamingRead (same : SameAhead n w w') (method : Nat) (sectorNo : UInt32) :
    SameAhead n (streamingRead env method sectorNo w).1 (streamingRead env method sectorNo w').1 ∧
      (Friidump.streamingRead env method sectorNo w).2 =
        (Friidump.streamingRead env method sectorNo w').2 := by
  cases same with
  | @recached cache rawCache agrees =>
      have looped := (Quiet.frame env).streamLoop method sectorNo (w.disc.maxCnt.toNat + 1) 0 w
      have counted : (w.recached cache rawCache).disc.maxCnt = w.disc.maxCnt := rfl
      have blocks : (w.recached cache rawCache).disc.maxBlk = w.disc.maxBlk := rfl
      unfold Friidump.streamingRead
      rw [counted, blocks]
      dsimp only
      rw [streamLoop_recached]
      rcases loop : streamLoop env method sectorNo (w.disc.maxCnt.toNat + 1) 0 w with ⟨w₁, out, cnt⟩
      rw [loop] at looped
      dsimp only
      split
      · exact ⟨agrees.quiet looped, rfl⟩
      · have unscrambled := unscrambleBlocks_quiet sectorNo w.disc.maxBlk.toNat w₁ out
        rw [unscrambleBlocks_recached]
        rcases unscramble : unscrambleBlocks sectorNo w.disc.maxBlk.toNat w₁ out with ⟨w₂, _ | _⟩
        · rw [unscramble] at unscrambled
          exact ⟨agrees.quiet (looped.trans unscrambled), rfl⟩
        · rw [unscramble] at unscrambled
          exact ⟨(agrees.quiet (looped.trans unscrambled)).cacheBlocks _ _, rfl⟩

theorem SameAhead.simpleRead (same : SameAhead n w w') (sectorNo : UInt32) :
    SameAhead n (simpleRead env sectorNo w).1 (simpleRead env sectorNo w').1 ∧
      (Friidump.simpleRead env sectorNo w).2 = (Friidump.simpleRead env sectorNo w').2 := by
  cases same with
  | @recached cache rawCache agrees =>
      have dumped := (Quiet.frame env).simpleDump sectorNo w
      unfold Friidump.simpleRead
      rw [simpleDump_recached]
      rcases dump : simpleDump env sectorNo w with ⟨w₁, _ | _⟩
      · rw [dump] at dumped
        exact ⟨agrees.quiet dumped, rfl⟩
      · rw [dump] at dumped
        have unscrambled := unscrambleBuf_quiet w₁ sectorNo 0
        have single : (w₁.recached cache rawCache).unscrambleBuf sectorNo 0 =
            ((w₁.unscrambleBuf sectorNo 0).1.recached cache rawCache,
              (w₁.unscrambleBuf sectorNo 0).2) := rfl
        dsimp only
        rw [single]
        rcases unscramble : w₁.unscrambleBuf sectorNo 0 with ⟨w₂, _ | _⟩
        · rw [unscramble] at unscrambled
          exact ⟨agrees.quiet (dumped.trans unscrambled), rfl⟩
        · rw [unscramble] at unscrambled
          exact ⟨(agrees.quiet (dumped.trans unscrambled)).cacheBuf _ 0, rfl⟩

theorem SameAhead.discReadSectorGeneric (same : SameAhead n w w') (method : Nat)
    (sectorNo : UInt32) :
    SameAhead n (discReadSectorGeneric env method sectorNo w).1
        (discReadSectorGeneric env method sectorNo w').1 ∧
      (Friidump.discReadSectorGeneric env method sectorNo w).2 =
        (Friidump.discReadSectorGeneric env method sectorNo w').2 := by
  refine retryLoop_related (SameAhead n) (fun retry w w' same => ?_) 5 0 same
  dsimp only
  split
  · obtain ⟨kept, out⟩ := same.streamingRead env method sectorNo
    exact ⟨kept, congrArg (·, false) out⟩
  · obtain ⟨kept, out⟩ := same.simpleRead env sectorNo
    exact ⟨kept, congrArg (·, false) out⟩

/-- Two states of a method with automatic arrays, in step. -/
def SameTry (n : Nat) (state state' : World σ × Locals) : Prop :=
  SameAhead n state.1 state'.1 ∧ state.2 = state'.2

/-- A loop over blocks that does not look at the cached bytes. -/
structure BlindLoop {α : Type} (loop : World σ → (World σ × Locals) × α) : Prop where
  quiet (w : World σ) : Quiet w (loop w).1.1
  blind (w : World σ) (cache rawCache : Nat → Buffer) :
    loop (w.recached cache rawCache) = recachedLoop cache rawCache (loop w)

theorem BlindLoop.related {α : Type} {loop : World σ → (World σ × Locals) × α}
    (blind : BlindLoop loop) (same : SameAhead n w w') :
    SameTry n (loop w).1 (loop w').1 ∧ (loop w).2 = (loop w').2 := by
  cases same with
  | @recached cache rawCache agrees =>
      rw [blind.blind]
      exact ⟨⟨agrees.quiet (blind.quiet w), rfl⟩, rfl⟩

theorem SameAhead.drive (same : SameAhead n w w') : w'.drive = w.drive := by
  cases same with
  | recached => rfl

theorem SameAhead.sectorsNo (same : SameAhead n w w') : w'.disc.sectorsNo = w.disc.sectorsNo := by
  cases same with
  | recached => rfl

theorem SameAhead.withDrive (same : SameAhead n w w') (drive : σ) :
    SameAhead n (w.withDrive drive) (w'.withDrive drive) := by
  cases same with
  | recached agrees => exact agrees.quiet (.withDrive w drive)

theorem SameAhead.retried (same : SameAhead n w w') (sectorNo : UInt32) (retry : Nat) :
    SameAhead n (if 0 < retry then readDistant env w sectorNo else w)
      (if 0 < retry then readDistant env w' sectorNo else w') := by
  split
  · cases same with
    | recached agrees =>
        rw [readDistant_recached]
        exact agrees.quiet ((Quiet.frame env).readDistant w sectorNo)
  · exact same

theorem SameTry.attempt7 {state state' : World σ × Locals} (same : SameTry n state state')
    (sectorNo : UInt32) (retry : Nat) :
    SameTry n (attempt7 env sectorNo retry state).1 (attempt7 env sectorNo retry state').1 ∧
      (Friidump.attempt7 env sectorNo retry state).2 =
        (Friidump.attempt7 env sectorNo retry state').2 := by
  rcases state with ⟨w, arrays⟩
  rcases state' with ⟨w', arrays'⟩
  obtain ⟨ahead, rfl⟩ := same
  have retried := ahead.retried env sectorNo retry
  unfold Friidump.attempt7
  dsimp only
  generalize (if 0 < retry then readDistant env w sectorNo else w) = w₁ at retried ⊢
  generalize (if 0 < retry then readDistant env w' sectorNo else w') = w₁' at retried ⊢
  rw [retried.drive]
  have driven := retried.withDrive (dvdReadSectorStreaming env w₁.drive sectorNo none).drive
  split
  · have blind : BlindLoop fun w => dumpBlocks env sectorNo 5 0 w arrays :=
      ⟨fun w => (Quiet.frame env).dumpBlocks sectorNo 5 0 w arrays,
        fun w cache rawCache => dumpBlocks_recached env w cache rawCache sectorNo 5 0 arrays⟩
    obtain ⟨dumped, verdict⟩ := blind.related driven
    generalize dumpBlocks env sectorNo 5 0 (w₁.withDrive _) arrays = result at dumped verdict ⊢
    generalize dumpBlocks env sectorNo 5 0 (w₁'.withDrive _) arrays = result' at dumped verdict ⊢
    rcases result with ⟨⟨w₂, arrays₂⟩, out, stop⟩
    rcases result' with ⟨⟨w₂', arrays₂'⟩, out', stop'⟩
    obtain ⟨ahead₂, rfl⟩ := dumped
    obtain ⟨rfl, rfl⟩ := Prod.mk.inj verdict
    cases out with
    | true => exact ⟨ahead₂.cacheLocals sectorNo 5 0 arrays₂, rfl⟩
    | false => exact ⟨⟨ahead₂, rfl⟩, rfl⟩
  · exact ⟨⟨driven, rfl⟩, rfl⟩

theorem BlindLoop.fillBlocks (sectorNo : UInt32) (left j : Nat) (arrays : Locals) :
    BlindLoop fun w => fillBlocks env sectorNo left j w arrays where
  quiet w := (Quiet.frame env).fillBlocks sectorNo left j w arrays
  blind w cache rawCache := fillBlocks_recached env w cache rawCache sectorNo left j arrays

theorem SameTry.attempt89
    {headers : Nat → World σ → Locals → (World σ × Locals) × Bool × Bool}
    (blind : ∀ j arrays, BlindLoop fun w => headers j w arrays)
    {state state' : World σ × Locals} (same : SameTry n state state')
    (sectorNo : UInt32) (retry : Nat) :
    SameTry n (attempt89 env headers sectorNo retry state).1
        (attempt89 env headers sectorNo retry state').1 ∧
      (Friidump.attempt89 env headers sectorNo retry state).2 =
        (Friidump.attempt89 env headers sectorNo retry state').2 := by
  rcases state with ⟨w, arrays⟩
  rcases state' with ⟨w', arrays'⟩
  obtain ⟨ahead, rfl⟩ := same
  have retried := ahead.retried env sectorNo retry
  unfold Friidump.attempt89
  dsimp only
  generalize (if 0 < retry then readDistant env w sectorNo else w) = w₁ at retried ⊢
  generalize (if 0 < retry then readDistant env w' sectorNo else w') = w₁' at retried ⊢
  rw [retried.drive, retried.sectorsNo]
  generalize (if w₁.disc.sectorsNo - 1000 < sectorNo then sectorNo - 16 * 5 * 2
    else sectorNo + 16 * 5) = away
  have moved := retried.withDrive (dvdReadSectorStreaming env w₁.drive away none).drive
  generalize w₁.withDrive (dvdReadSectorStreaming env w₁.drive away none).drive = w₂ at moved ⊢
  generalize w₁'.withDrive (dvdReadSectorStreaming env w₁.drive away none).drive = w₂' at moved ⊢
  rw [moved.drive]
  generalize dvdReadSectorStreaming env w₂.drive sectorNo (some (arrays.readbuf, 32768)) = executed
  have read := moved.withDrive executed.drive
  split
  · have reconstruct : BlindLoop fun w => reconstructBlocks headers sectorNo 5 0 w
        { arrays with readbuf := executed.buffer } :=
      ⟨fun w => (Quiet.frame env).reconstructBlocks (fun j w arrays => (blind j arrays).quiet w)
          sectorNo 5 0 w _,
        fun w cache rawCache => reconstructBlocks_recached w cache rawCache
          (fun j w arrays => (blind j arrays).blind w cache rawCache) sectorNo 5 0 _⟩
    obtain ⟨headersRead, verdict⟩ := reconstruct.related read
    generalize reconstructBlocks headers sectorNo 5 0 (w₂.withDrive _) _ = result
      at headersRead verdict ⊢
    generalize reconstructBlocks headers sectorNo 5 0 (w₂'.withDrive _) _ = result'
      at headersRead verdict ⊢
    rcases result with ⟨⟨w₃, arrays₃⟩, out, stop⟩
    rcases result' with ⟨⟨w₃', arrays₃'⟩, out', stop'⟩
    obtain ⟨ahead₃, rfl⟩ := headersRead
    obtain ⟨rfl, rfl⟩ := Prod.mk.inj verdict
    cases out with
    | false => exact ⟨⟨ahead₃, rfl⟩, rfl⟩
    | true =>
        obtain ⟨filled, verdict⟩ := (BlindLoop.fillBlocks env sectorNo 5 0 arrays₃).related ahead₃
        dsimp only
        generalize fillBlocks env sectorNo 5 0 w₃ arrays₃ = result at filled verdict ⊢
        generalize fillBlocks env sectorNo 5 0 w₃' arrays₃ = result' at filled verdict ⊢
        rcases result with ⟨⟨w₄, arrays₄⟩, out⟩
        rcases result' with ⟨⟨w₄', arrays₄'⟩, out'⟩
        obtain ⟨ahead₄, rfl⟩ := filled
        cases verdict
        cases out with
        | true => exact ⟨ahead₄.cacheLocals sectorNo 5 0 arrays₄, rfl⟩
        | false => exact ⟨⟨ahead₄, rfl⟩, rfl⟩
  · exact ⟨⟨read, rfl⟩, rfl⟩

/-! ## A read through the cache -/

/-- The retry loop around a method with automatic arrays. -/
private theorem SameAhead.retryLoop (same : SameAhead n w w')
    {attempt : Nat → World σ × Locals → (World σ × Locals) × Bool × Bool}
    (step : ∀ retry state state', SameTry n state state' →
      SameTry n (attempt retry state).1 (attempt retry state').1 ∧
        (attempt retry state).2 = (attempt retry state').2) :
    SameAhead n (retryLoop attempt 5 0 (w, .ofStack env w.drive)).1.1
        (retryLoop attempt 5 0 (w', .ofStack env w'.drive)).1.1 ∧
      (Friidump.retryLoop attempt 5 0 (w, .ofStack env w.drive)).2 =
        (Friidump.retryLoop attempt 5 0 (w', .ofStack env w'.drive)).2 := by
  have start : SameTry n (w, Locals.ofStack env w.drive) (w', Locals.ofStack env w'.drive) :=
    ⟨same, by rw [same.drive]⟩
  obtain ⟨ended, verdict⟩ := retryLoop_related (SameTry n) step 5 0 start
  exact ⟨ended.1, verdict⟩

theorem SameAhead.readMethod (same : SameAhead n w w') : w'.disc.readMethod = w.disc.readMethod := by
  cases same with
  | recached => rfl

theorem SameAhead.readSector (same : SameAhead n w w') (sectorNo : UInt32) :
    SameAhead n (readSector env sectorNo w).1 (readSector env sectorNo w').1 ∧
      (Friidump.readSector env sectorNo w).2 = (Friidump.readSector env sectorNo w').2 := by
  unfold Friidump.readSector
  rw [same.readMethod]
  split
  · exact same.retryLoop env fun retry _ _ tried => tried.attempt7 env sectorNo retry
  · refine same.retryLoop env fun retry _ _ tried =>
      tried.attempt89 env (fun j arrays => ⟨fun w => ?_, fun w cache rawCache => ?_⟩) sectorNo retry
    · exact (Quiet.frame env).dumpHeaders8 j 16 0 w arrays true false
    · exact dumpHeaders8_recached env w cache rawCache j 16 0 arrays true false
  · refine same.retryLoop env fun retry _ _ tried =>
      tried.attempt89 env (fun j arrays => ⟨fun w => ?_, fun w cache rawCache => ?_⟩) sectorNo retry
    · exact (Quiet.frame env).dumpHeaders9 j 16 0 w arrays true false
    · exact dumpHeaders9_recached env w cache rawCache j 16 0 arrays true false
  · exact same.discReadSectorGeneric env _ sectorNo

theorem SameAhead.lookup (same : SameAhead n w w') (block : UInt32) :
    (∃ data rawdata data' rawdata', discCacheLookupBlock w.disc block = some (data, rawdata) ∧
        discCacheLookupBlock w'.disc block = some (data', rawdata') ∧
        ∀ k < 16, n ≤ 16 * block.toNat + k →
          (∀ a < 2048, data' (k * 2048 + a) = data (k * 2048 + a)) ∧
          (∀ a < 2064, rawdata' (k * 2064 + a) = rawdata (k * 2064 + a))) ∨
      discCacheLookupBlock w.disc block = none ∧ discCacheLookupBlock w'.disc block = none := by
  cases same with
  | @recached cache rawCache agrees =>
      unfold discCacheLookupBlock
      by_cases hit : w.disc.cacheMap (w.disc.cachePos block) = block
      · have hit' : (w.recached cache rawCache).disc.cacheMap
          ((w.recached cache rawCache).disc.cachePos block) = block := hit
        dsimp only
        rw [if_pos hit, if_pos hit']
        refine .inl ⟨_, _, _, _, rfl, rfl, fun k insideBlock ahead => ?_⟩
        have ahead : n ≤ 16 * (w.disc.cacheMap (w.disc.cachePos block)).toNat + k := by
          rw [hit]
          exact ahead
        exact ⟨agrees .iso _ k insideBlock ahead, agrees .raw _ k insideBlock ahead⟩
      · have miss : ¬ (w.recached cache rawCache).disc.cacheMap
          ((w.recached cache rawCache).disc.cachePos block) = block := hit
        dsimp only
        rw [if_neg hit, if_neg miss]
        exact .inr ⟨rfl, rfl⟩

/-- The two pointers lead to the same sectors, and to cached ones if anywhere. -/
structure SameSector (sectorNo : UInt32) (w : World σ) (read read' : SectorRead) : Prop where
  out : read'.out = read.out
  data : read'.data.map (·.bytes 2048) = read.data.map (·.bytes 2048)
  rawdata : read'.rawdata.map (·.bytes 2064) = read.rawdata.map (·.bytes 2064)
  cached : read.data.isSome ∨ read.rawdata.isSome →
    w.disc.cacheMap (w.disc.cachePos (sectorNo / 16)) = sectorNo / 16

theorem toNat_block_sector (sectorNo : UInt32) :
    16 * (sectorNo / 16).toNat + (sectorNo % 16).toNat = sectorNo.toNat := by
  rw [UInt32.toNat_div, UInt32.toNat_mod]
  exact Nat.div_add_mod sectorNo.toNat 16

theorem sectorOf_same {request : Request} {data rawdata data' rawdata' : Buffer}
    (found : discCacheLookupBlock w.disc (request.sectorNo / 16) = some (data, rawdata))
    (same : (∀ a < 2048, data' ((request.sectorNo % 16).toNat * 2048 + a) =
        data ((request.sectorNo % 16).toNat * 2048 + a)) ∧
      (∀ a < 2064, rawdata' ((request.sectorNo % 16).toNat * 2064 + a) =
        rawdata ((request.sectorNo % 16).toNat * 2064 + a))) :
    SameSector request.sectorNo w (sectorOf request data rawdata)
      (sectorOf request data' rawdata') where
  out := rfl
  data := by
    unfold sectorOf
    dsimp only
    split
    · exact congrArg some (Buffer.bytes_congr same.1)
    · rfl
  rawdata := by
    unfold sectorOf
    dsimp only
    split
    · exact congrArg some (Buffer.bytes_congr same.2)
    · rfl
  cached _ := by
    unfold discCacheLookupBlock at found
    dsimp only at found
    split at found
    · assumption
    · cases found

/-- Two reads of one sector, in step. A sector from number `n` on is the same one. -/
inductive SameRead (n : Nat) (sectorNo : UInt32) :
    Except Abort (World σ × SectorRead) → Except Abort (World σ × SectorRead) → Prop
  | abort (abort : Abort) : SameRead n sectorNo (.error abort) (.error abort)
  | read {w w' : World σ} {read read' : SectorRead} (ahead : SameAhead n w w')
      (out : read'.out = read.out) (same : n ≤ sectorNo.toNat → SameSector sectorNo w read read') :
      SameRead n sectorNo (.ok (w, read)) (.ok (w', read'))

theorem SameAhead.discReadSector (same : SameAhead n w w') (request : Request) :
    SameRead n request.sectorNo (discReadSector env request w) (discReadSector env request w') := by
  have unscrambling : w'.disc.unscrambling = w.disc.unscrambling := by
    cases same with
    | recached => rfl
  have number := toNat_block_sector request.sectorNo
  have inBlock : (request.sectorNo % 16).toNat < 16 := by
    rw [UInt32.toNat_mod]
    exact Nat.mod_lt _ (by decide)
  unfold Friidump.discReadSector
  rw [unscrambling]
  split
  · exact .abort _
  · dsimp only
    obtain ⟨data, rawdata, data', rawdata', found, found', bytes⟩ | ⟨missing, missing'⟩ :=
      same.lookup (request.sectorNo / 16)
    · rw [found, found']
      exact .read same rfl fun next => sectorOf_same found (bytes _ inBlock (by omega))
    · rw [missing, missing']
      dsimp only
      obtain ⟨read, verdict⟩ := same.readSector env request.sectorNo
      generalize Friidump.readSector env request.sectorNo w = result at read verdict ⊢
      generalize Friidump.readSector env request.sectorNo w' = result' at read verdict ⊢
      rcases result with ⟨w₁, out⟩
      rcases result' with ⟨w₁', out'⟩
      cases verdict
      cases out with
      | false =>
          exact .read read rfl fun _ =>
            ⟨rfl, rfl, rfl, by rintro (missing | missing) <;> cases missing⟩
      | true =>
          dsimp only
          obtain ⟨data, rawdata, data', rawdata', found, found', bytes⟩ | ⟨missing, missing'⟩ :=
            read.lookup (request.sectorNo / 16)
          · rw [found, found']
            exact .read read rfl fun next => sectorOf_same found (bytes _ inBlock (by omega))
          · rw [missing, missing']
            exact .abort _

/-! ## Hashing a sector in the cache -/

theorem Format.cache_setSector_other (format other : Format) (d : Disc) (sectorNo : UInt32)
    (data : Buffer) {p : Nat} (elsewhere : other ≠ format ∨ p ≠ d.cachePos (sectorNo / 16)) :
    other.cache (format.setSector d sectorNo data) p = other.cache d p := by
  by_cases same : other = format
  · subst same
    rw [Format.setSector, Format.cache_setCache]
    exact if_neg (elsewhere.resolve_left fun differs => differs rfl)
  · cases other <;> cases format <;> first | rfl | exact absurd rfl same

theorem Format.cache_setSector_beyond (format : Format) (d : Disc) (sectorNo : UInt32) {data : Buffer}
    (same : ∀ a, format.size ≤ a → data a = format.sector d sectorNo a) {a : Nat}
    (beyond : format.offset sectorNo + format.size ≤ a) :
    format.cache (format.setSector d sectorNo data) (d.cachePos (sectorNo / 16)) a =
      format.cache d (d.cachePos (sectorNo / 16)) a := by
  have above : format.offset sectorNo ≤ a := by omega
  have position : format.offset sectorNo + (a - format.offset sectorNo) = a := Nat.add_sub_cancel' above
  rw [Format.setSector, Format.cache_setCache, if_pos rfl, Buffer.splice_above _ _ above,
    same _ (by omega), Format.sector, Buffer.advance_apply, position]

/-- Hashing a sector touches its own bytes only. -/
theorem SameAhead.hashSector {i : UInt32} (same : SameAhead n w w') (format : Format)
    (wanted : Bool) (sha1 : Sha1Ctx) (current : wanted = true → i.toNat < n)
    (cached : wanted = true → w.disc.cacheMap (w.disc.cachePos (i / 16)) = i / 16) :
    SameAhead n w (w'.hashSector format wanted i sha1).world := by
  cases wanted with
  | false => exact same
  | true =>
      cases same with
      | @recached cache rawCache agrees =>
          have stored : ∃ cache' rawCache', ((w.recached cache rawCache).hashSector format true i
              sha1).world = w.recached cache' rawCache' := by
            cases format
            · exact ⟨cache, _, rfl⟩
            · exact ⟨_, rawCache, rfl⟩
          obtain ⟨cache', rawCache', stored⟩ := stored
          rw [stored]
          refine .recached fun other p k insideBlock ahead a insideSector => ?_
          have kept := agrees other p k insideBlock ahead a insideSector
          rw [← stored]
          by_cases here : other = format ∧ p = w.disc.cachePos (i / 16)
          · obtain ⟨rfl, rfl⟩ := here
            have current := current rfl
            rw [cached rfl] at ahead
            have number := toNat_block_sector i
            have later : (i % 16).toNat + 1 ≤ k := by omega
            have beyond : other.offset i + other.size ≤ k * other.size + a := by
              have rows := Nat.mul_le_mul_right other.size later
              rw [Nat.succ_mul] at rows
              exact Nat.le_trans rows (Nat.le_add_right _ a)
            exact (other.cache_setSector_beyond (w.recached cache rawCache).disc i
              (fun a behind => sha1Update_beyond sha1 _ behind) beyond).trans kept
          · have other_kept := format.cache_setSector_other other (w.recached cache rawCache).disc i
              (sha1Update sha1 (format.sector (w.recached cache rawCache).disc i) format.size).2
              (not_and_or.mp here)
            exact (congrFun other_kept _).trans kept

/-! ## The dump -/

/-- A sector is hashed only if there was one to write. -/
theorem Output.dumpSector_given {o : Output} {flushing hashing out : Bool} {buf : Option (List UInt8)}
    {write : WriteReply} {flush : FlushReply} (opened : o.fp.isSome)
    (going : (o.dumpSector flushing hashing out buf write flush).2 = true) : buf.isSome := by
  obtain ⟨fp, stream⟩ := Option.isSome_iff_exists.mp opened
  cases buf with
  | some _ => rfl
  | none =>
      rw [Output.dumpSector_missing stream] at going
      cases going

theorem SameAhead.later {m : Nat} (same : SameAhead n w w') (le : n ≤ m) : SameAhead m w w' := by
  cases same with
  | recached agrees =>
      exact .recached fun format p k inside ahead => agrees format p k inside (Nat.le_trans le ahead)

/-- A round writes the sector that was read, and spoils it in the cache at most. -/
theorem hashedRound_same {i : UInt32} {read read' : SectorRead} (same : SameAhead n w w')
    (sector : SameSector i w read read') (replies : SectorReplies) {dmp : HashedDumper}
    (current : dmp.files.hashing = true → read.rawdata.isSome ∨ read.data.isSome → i.toNat < n) :
    ∃ raw iso rawOut,
      dmp.files.raw.dumpSector dmp.files.flushing dmp.files.hashing true
        (read.rawdata.map fun rawbuf => rawbuf.bytes 2064) replies.rawWrite replies.rawFlush =
          (raw, rawOut) ∧
      dmp.files.iso.dumpSector dmp.files.flushing dmp.files.hashing rawOut
        (read.data.map fun isobuf => isobuf.bytes 2048) replies.isoWrite replies.isoFlush =
          (iso, (hashedRound replies i dmp w' read').out) ∧
      (hashedRound replies i dmp w' read').dmp.files = { dmp.files with raw := raw, iso := iso } ∧
      SameAhead n w (hashedRound replies i dmp w' read').world := by
  unfold hashedRound
  dsimp only
  rw [sector.rawdata, sector.data]
  refine ⟨_, _, _, rfl, rfl, rfl, ?_⟩
  have hashed : ∀ {o : Output} {out going : Bool} {buf : Option (List UInt8)} {write : WriteReply}
      {flush : FlushReply}, (o.fp.isSome && dmp.files.hashing && going) = true →
      (o.dumpSector dmp.files.flushing dmp.files.hashing out buf write flush).2 = going →
      dmp.files.hashing = true ∧ buf.isSome := by
    rintro o out going buf write flush wanted rfl
    obtain ⟨opened, going⟩ := Bool.and_eq_true_iff.mp wanted
    obtain ⟨opened, hashing⟩ := Bool.and_eq_true_iff.mp opened
    exact ⟨hashing, Output.dumpSector_given opened going⟩
  refine (same.hashSector .raw _ dmp.rawSha1 (fun wanted => ?_) fun wanted => ?_).hashSector .iso _
    dmp.isoSha1 (fun wanted => ?_) fun wanted => ?_
  all_goals
    obtain ⟨hashing, given⟩ := hashed wanted rfl
    rw [Option.isSome_map] at given
  · exact current hashing (.inl given)
  · exact sector.cached (.inr given)
  · exact current hashing (.inr given)
  · exact sector.cached (.inl given)

/-- The dump that hashes has ended as the one that does not. -/
structure SameEnd (plain : DumpEnd (World σ)) (hashed : HashedEnd σ) : Prop where
  files : hashed.dmp.files = plain.dmp
  out : hashed.out = plain.out
  currentSector : hashed.currentSector = plain.currentSector
  world : ∃ cache rawCache, hashed.world = plain.source.recached cache rawCache

theorem SameAhead.exists (same : SameAhead n w w') :
    ∃ cache rawCache, w' = w.recached cache rawCache := by
  cases same with
  | recached => exact ⟨_, _, rfl⟩

theorem discReadSector_both {env : Env σ} {i : UInt32} {read : SectorRead}
    (returned : discReadSector env ⟨i, true, true⟩ w = .ok (w', read))
    (given : read.rawdata.isSome ∨ read.data.isSome) :
    read.out = true ∧ read.rawdata.isSome ∧ read.data.isSome := by
  have ended := discReadSector_returned env w ⟨i, true, true⟩
  rw [returned] at ended
  cases ended with
  | cached => exact ⟨rfl, rfl, rfl⟩
  | read => exact ⟨rfl, rfl, rfl⟩
  | failed => cases given <;> contradiction

/-- No write and no flush fails. -/
def Host.Writes (host : Host) : Prop :=
  ∀ i, (∃ out, (host.sector i).rawWrite = .accepted out) ∧ (host.sector i).rawFlush = .flushed ∧
    (∃ out, (host.sector i).isoWrite = .accepted out) ∧ (host.sector i).isoFlush = .flushed

theorem Output.dumpSector_accepted (o : Output) (flushing hashing : Bool) (bytes : List UInt8)
    {write : WriteReply} (accepted : ∃ out, write = .accepted out) (flush : FlushReply) :
    (o.dumpSector flushing hashing true (some bytes) write flush).2 = true := by
  obtain ⟨out, rfl⟩ := accepted
  cases stream : o.fp with
  | none => rw [Output.dumpSector_closed stream]
  | some fp =>
      rw [Output.dumpSector_bytes stream rfl]
      rfl

/-- Where a dump that hashes has got to, next to one that does not: what it has spoiled are sectors
before number `m`, and none at all if it does not hash. -/
structure SameProgress (n : Nat) (host : Host) (hashing : Bool) (plain : DumpEnd (World σ))
    (hashed : HashedEnd σ) : Prop where
  same : SameEnd plain hashed
  ahead : ∃ m, SameAhead m plain.source hashed.world ∧ (hashing = false → m = n) ∧
    (host.Writes → plain.out = .ok false → m ≤ plain.currentSector.toNat)

theorem hashedLoop_same (host : Host) (currentSector : UInt32) {i : UInt32} {left : Nat}
    (room : i.toNat + left < 2 ^ 32) (same : SameAhead n w w') (behind : n ≤ i.toNat)
    (dmp : HashedDumper) :
    SameProgress n host dmp.files.hashing
      (dumpLoop (fun i w => discReadSector env ⟨i, true, true⟩ w) host currentSector left i dmp.files w)
      (hashedLoop env host currentSector left i dmp w') := by
  induction left generalizing i n w w' dmp with
  | zero => exact ⟨⟨rfl, rfl, rfl, same.exists⟩, n, same, fun _ => rfl, by rintro - ⟨⟩⟩
  | succ left ih =>
      have reads := same.discReadSector env ⟨i, true, true⟩
      rcases read : discReadSector env ⟨i, true, true⟩ w with abort | ⟨w₁, sector⟩
      all_goals rcases read' : discReadSector env ⟨i, true, true⟩ w' with abort' | ⟨w₁', sector'⟩
      all_goals rw [read, read'] at reads
      · cases reads
        rw [hashedLoop_abort read', dumpLoop, read]
        exact ⟨⟨rfl, rfl, rfl, same.exists⟩, n, same, fun _ => rfl, by rintro - ⟨⟩⟩
      · cases reads
      · cases reads
      · cases reads with
        | read ahead _ sameSector =>
            have sameSector := sameSector behind
            let given := sector.rawdata.isSome ∨ sector.data.isSome
            obtain ⟨m, ahead, near, current, kept, missing⟩ : ∃ m, SameAhead m w₁ w₁' ∧
                m ≤ i.toNat + 1 ∧ (dmp.files.hashing = true → given → i.toNat < m) ∧
                (dmp.files.hashing = false → m = n) ∧ (¬ given → m ≤ i.toNat) := by
              by_cases spoiled : dmp.files.hashing = true ∧ given
              · refine ⟨i.toNat + 1, ahead.later (by omega), Nat.le_refl _,
                  fun _ _ => Nat.lt_succ_self _, fun off => ?_, fun none => absurd spoiled.2 none⟩
                cases off.symm.trans spoiled.1
              · exact ⟨n, ahead, by omega, fun on some => absurd ⟨on, some⟩ spoiled, fun _ => rfl,
                  fun _ => behind⟩
            obtain ⟨raw, iso, rawOut, rawEnd, isoEnd, files, hashed⟩ :=
              hashedRound_same ahead sameSector (host.sector i) current
            have plain := @dumpLoop_succ _ (fun i w => discReadSector env ⟨i, true, true⟩ w) host
              currentSector i left dmp.files w w₁ sector raw iso rawOut _ read rawEnd isoEnd
            rw [plain]
            cases out : (hashedRound (host.sector i) i dmp w₁' sector').out with
            | false =>
                rw [hashedLoop_stop read' out, if_neg Bool.false_ne_true]
                refine ⟨⟨files, rfl, rfl, hashed.exists⟩, m, hashed, kept, fun writes _ => missing ?_⟩
                -- Without an error of a file, only a sector that is missing stops the loop.
                intro shown
                obtain ⟨-, rawGiven, isoGiven⟩ := discReadSector_both read shown
                obtain ⟨rawdata, rawPointer⟩ := Option.isSome_iff_exists.mp rawGiven
                obtain ⟨data, isoPointer⟩ := Option.isSome_iff_exists.mp isoGiven
                obtain ⟨rawWrite, -, isoWrite, -⟩ := writes i
                rw [rawPointer, Option.map_some] at rawEnd
                rw [isoPointer, Option.map_some] at isoEnd
                have rawWritten : rawOut = true := (congrArg Prod.snd rawEnd).symm.trans
                  (Output.dumpSector_accepted _ _ _ _ rawWrite _)
                subst rawWritten
                have isoWritten := (congrArg Prod.snd isoEnd).symm.trans
                  (Output.dumpSector_accepted _ _ _ _ isoWrite _)
                cases out.symm.trans isoWritten
            | true =>
                rw [hashedLoop_next read' out, if_pos rfl]
                have next : (i + 1).toNat = i.toNat + 1 := toNat_add_one (by omega)
                obtain ⟨ended, m', later, kept', stopped⟩ := ih (i := i + 1) (by omega) hashed
                  (by omega)
                  (hashedRound (host.sector i) i dmp w₁' sector').dmp
                rw [files] at ended later kept' stopped
                exact ⟨⟨ended.files, ended.out, ended.currentSector, ended.world⟩, m', later,
                  fun off => (kept' off).trans (kept off), stopped⟩

/-- The two dumps on states in step. -/
theorem hashedDump_same (host : Host) (currentSector : UInt32) {dmp : HashedDumper}
    (same : SameAhead n w w') (behind : n ≤ dmp.files.startSector.toNat) :
    SameProgress n host dmp.files.hashing
      (dumperDump (fun i w => discReadSector env ⟨i, true, true⟩ w) host w.disc.sectorsNo dmp.files w
        currentSector)
      (hashedDump env host dmp w' currentSector) := by
  have start := dmp.files.startSector.toNat_lt
  have bound := w.disc.sectorsNo.toNat_lt
  obtain ⟨⟨sameFiles, out, current, world⟩, m, ahead, off, stopped⟩ :=
    @hashedLoop_same σ n w w' env host currentSector dmp.files.startSector
      (w.disc.sectorsNo.toNat - dmp.files.startSector.toNat) (by omega) same behind dmp
  rw [hashedDump, same.sectorsNo]
  exact ⟨⟨by rw [dumperDump, sameFiles], out, current, world⟩, m, ahead, off, stopped⟩

/-- Whatever the drive does, hashing in place changes neither what is written, nor the verdict, nor
the sector that a failure is reported for, nor what the drive is asked for. -/
theorem hashedDump_refines (host : Host) (dmp : HashedDumper) (w : World σ) (currentSector : UInt32) :
    SameEnd (dumperDump (fun i w => discReadSector env ⟨i, true, true⟩ w) host w.disc.sectorsNo
      dmp.files w currentSector) (hashedDump env host dmp w currentSector) :=
  (hashedDump_same env host currentSector (.refl 0 w) (Nat.zero_le _)).same

end Refinement

end Friidump
