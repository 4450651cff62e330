import Friidump.CacheRefinement
import Friidump.MethodAgreement

/-!
# The assertion of `disc_read_sector`

When a read method returns `true`, the block it was called for should be in the
cache. For methods 7 to 9 this takes a sector before the end of the disc.
-/

set_option autoImplicit false

namespace Friidump

section Reading

variable {σ : Type} {w w' : World σ} {sectorNo block : UInt32}

def Present (w : World σ) (block : UInt32) : Prop :=
  w.disc.cacheMap (w.disc.cachePos block) = block

theorem present_iff (w : World σ) (block : UInt32) :
    Present w block ↔ discCacheLookupBlock w.disc block ≠ none := by
  rw [Present, discCacheLookupBlock]
  split
  · exact iff_of_true ‹_› (Option.some_ne_none _)
  · exact iff_of_false ‹_› fun found => found rfl

/-! ## What a loop of insertions leaves in the cache -/

theorem block_zero (block : UInt32) : block + Nat.toUInt32 0 = block :=
  UInt32.add_zero block

theorem cacheBlock_present (w : World σ) (block : UInt32) (data rawdata : Buffer) :
    Present (w.cacheBlock block data rawdata).1 block :=
  if_pos rfl

/-- A block is lost only to one that falls on its position. -/
theorem Present.cacheBlock (present : Present w block) {added : UInt32}
    (elsewhere : w.disc.cachePos block ≠ w.disc.cachePos added) (data rawdata : Buffer) :
    Present (w.cacheBlock added data rawdata).1 block :=
  (if_neg elsewhere).trans present

/-- The loop of methods 0 to 6 goes down to the block asked for. -/
theorem cacheBlocks_present (startBlock : UInt32) {n : Nat} (positive : 0 < n) (w : World σ) :
    Present (cacheBlocks startBlock n w) startBlock := by
  induction n generalizing w with
  | zero => exact absurd positive (Nat.lt_irrefl 0)
  | succ n ih =>
      rw [cacheBlocks]
      cases n with
      | zero =>
          rw [cacheBlocks, block_zero]
          exact cacheBlock_present w startBlock _ _
      | succ n => exact ih (Nat.succ_pos n) _

theorem cacheLocals_keeps (left j : Nat) (later : 0 < j) (bound : j + left ≤ 5) (w : World σ)
    (present : Present w (sectorNo / 16)) (enough : 5 ≤ w.disc.cacheSize) (arrays : Locals) :
    Present (cacheLocals sectorNo left j w arrays).1 (sectorNo / 16) := by
  induction left generalizing j w arrays with
  | zero => exact present
  | succ left ih =>
      rw [cacheLocals]
      split
      · have size : 5 ≤ w.disc.cacheSize.toNat := enough
        have elsewhere := cachePos_ne w.disc sectorNo later (by omega) (by omega)
        rw [block_zero] at elsewhere
        have kept : Present (w.cacheBlockAt (sectorNo / 16 + j.toUInt32) j arrays.buf
            arrays.bufUnscrambled).1 (sectorNo / 16) := present.cacheBlock elsewhere _ _
        exact ih (j + 1) (Nat.succ_pos j) (by omega) _ kept enough _
      · exact present

/-- The loop of methods 7 to 9 starts with the block asked for. -/
theorem cacheLocals_present (inside : beforeEnd w sectorNo 0 = true)
    (enough : 5 ≤ w.disc.cacheSize) (arrays : Locals) :
    Present (cacheLocals sectorNo 5 0 w arrays).1 (sectorNo / 16) := by
  rw [cacheLocals, if_pos inside, block_zero]
  have added : Present (w.cacheBlockAt (sectorNo / 16) 0 arrays.buf arrays.bufUnscrambled).1
      (sectorNo / 16) := cacheBlock_present w _ _ _
  exact cacheLocals_keeps 4 1 Nat.one_pos (Nat.le_refl 5) _ added enough _

theorem ReadLocals.present {result : World σ × Bool} (read : ReadLocals sectorNo w result)
    (inside : sectorNo < w.disc.sectorsNo) (enough : 5 ≤ w.disc.cacheSize)
    (success : result.2 = true) : Present result.1 (sectorNo / 16) := by
  cases read with
  | failed => cases success
  | cached quiet ready =>
      have before : beforeEnd w sectorNo 0 = true := by
        have first : sectorNo + Nat.toUInt32 0 * 16 = sectorNo := UInt32.add_zero sectorNo
        rw [beforeEnd, first]
        exact decide_eq_true inside
      refine cacheLocals_present (quiet.beforeEnd sectorNo 0 ▸ before) ?_ _
      rw [quiet.disc]
      exact enough

variable (env : Env σ)

/-! ## Methods 0 to 6 -/

theorem simpleRead_present (success : (simpleRead env sectorNo w).2 = true) :
    Present (simpleRead env sectorNo w).1 (sectorNo / 16) := by
  obtain ⟨w', _, ended⟩ | ⟨w', _, _, ended⟩ := simpleRead_cases env sectorNo w
  · rw [ended] at success
    cases success
  · rw [ended]
    exact cacheBlock_present _ _ _ _

theorem memblock_zero (memdump : MemdumpFunc) (drive : σ) (offset : UInt32) (buf : Buffer) :
    (memdump.memblock env drive offset 0 buf).out = -2 := by
  cases memdump <;> rfl

theorem dvdMemdump_zero (memdump : MemdumpFunc) (drive : σ) (offset : UInt32) (buf : Buffer) :
    (dvdMemdump env memdump drive offset 1 0 buf).out = -2 := by
  have refused := memblock_zero env memdump drive (memdump.base + offset + 0 * 0)
    (buf.advance (0 * 0 : UInt32).toNat)
  have one : (1 : UInt32).toNat = 0 + 1 := rfl
  rw [dvdMemdump, one, dumpMemLoop, refused, if_pos (by decide)]

theorem streamStep_zero (zero : w.disc.secMem = 0) (method : Nat) (cnt : UInt32) :
    (streamStep env method sectorNo cnt w).2 = false := by
  have single : (chunksOf 0).blockLen.toNat = 0 + 1 := rfl
  have size : (chunksOf 0).blockSize = 0 := rfl
  unfold streamStep
  rw [zero]
  dsimp only
  have negative : (-2 : Int) < 0 := by decide
  rw [readStep_out, if_pos (Int.le_refl 0), single, dumpChunks, size, dvdMemdump_zero,
    if_pos negative]
  rfl

theorem streamingRead_zero {method : Nat} (zero : w.disc.secMem = 0) :
    (streamingRead env method sectorNo w).2 = false := by
  obtain ⟨w', _, ended⟩ | ⟨w', cnt, loop, _⟩ := streamingRead_cases env method sectorNo w
  · rw [ended]
  · have stopped : (streamStep env method sectorNo 0 w).2 = false := streamStep_zero env zero method 0
    rw [streamLoop] at loop
    rcases step : streamStep env method sectorNo 0 w with ⟨w₁, out⟩
    rw [step] at stopped loop
    cases stopped
    cases loop

theorem streamingRead_present {method : Nat} (cached : w.disc.maxBlk ≠ 0 ∨ w.disc.secMem = 0)
    (success : (streamingRead env method sectorNo w).2 = true) :
    Present (streamingRead env method sectorNo w).1 (sectorNo / 16) := by
  obtain nonzero | zero := cached
  · obtain ⟨w', _, ended⟩ | ⟨w', _, _, _, ended⟩ := streamingRead_cases env method sectorNo w
    · rw [ended] at success
      cases success
    · rw [ended]
      refine cacheBlocks_present _ (Nat.pos_of_ne_zero fun none => nonzero ?_) _
      exact UInt32.toNat_inj.mp none
  · rw [streamingRead_zero env zero] at success
    cases success

theorem discReadSectorGeneric_present {method : Nat}
    (cached : w.disc.maxBlk ≠ 0 ∨ w.disc.secMem = 0)
    (success : (discReadSectorGeneric env method sectorNo w).2 = true) :
    Present (discReadSectorGeneric env method sectorNo w).1 (sectorNo / 16) := by
  have ended : (discReadSectorGeneric env method sectorNo w).2 = true →
      Present (discReadSectorGeneric env method sectorNo w).1 (sectorNo / 16) := by
    refine retryLoop_rule (fun w' => w'.disc.maxBlk ≠ 0 ∨ w'.disc.secMem = 0)
      (fun w' out => out = true → Present w' (sectorNo / 16)) (fun _ _ => nofun) ?_ 5 0 rfl w cached
    intro retry _ w' cached
    dsimp only
    split
    · refine ⟨fun success _ => streamingRead_present env cached success, fun failed => ?_⟩
      obtain ⟨w₁, quiet, ended⟩ | ⟨_, _, _, _, ended⟩ := streamingRead_cases env method sectorNo w'
      · rw [ended, quiet.disc]
        exact cached
      · rw [ended] at failed
        cases failed
    · refine ⟨fun success _ => simpleRead_present env success, fun failed => ?_⟩
      obtain ⟨w₁, quiet, ended⟩ | ⟨_, _, _, ended⟩ := simpleRead_cases env sectorNo w'
      · rw [ended, quiet.disc]
        exact cached
      · rw [ended] at failed
        cases failed
  exact ended success

/-! ## All methods -/

/-- The sector can be read without a loss: its block is cached, or the read method
caches it. -/
def Cachable (w : World σ) (sectorNo : UInt32) : Prop :=
  Present w (sectorNo / 16) ∨
    if w.disc.readMethod = 7 ∨ w.disc.readMethod = 8 ∨ w.disc.readMethod = 9 then
      sectorNo < w.disc.sectorsNo
    else w.disc.maxBlk ≠ 0 ∨ w.disc.secMem = 0

theorem readSector_present (formed : SeedsWellFormed w.disc.u) (enough : 5 ≤ w.disc.cacheSize)
    (cachable : Cachable w sectorNo) (missing : ¬ Present w (sectorNo / 16))
    (success : (readSector env sectorNo w).2 = true) :
    Present (readSector env sectorNo w).1 (sectorNo / 16) := by
  have method := cachable.resolve_left missing
  unfold readSector at success ⊢
  split at success
  · rename_i seven
    rw [if_pos (.inl seven)] at method
    exact (discReadSector7_readLocals env sectorNo formed).present method enough success
  · rename_i eight
    rw [if_pos (.inr (.inl eight))] at method
    exact (discReadSector8_readLocals env sectorNo formed).present method enough success
  · rename_i nine
    rw [if_pos (.inr (.inr nine))] at method
    exact (discReadSector9_readLocals env sectorNo formed).present method enough success
  · rename_i seven eight nine
    have others : ¬ (w.disc.readMethod = 7 ∨ w.disc.readMethod = 8 ∨ w.disc.readMethod = 9) := by
      rintro (same | same | same)
      · exact seven same
      · exact eight same
      · exact nine same
    rw [if_neg others] at method
    exact discReadSectorGeneric_present env method success

/-! ## Runs -/

/-- The states of the program before and between the calls of the library. -/
inductive DiscReachable (env : Env σ) : World σ → Prop
  | created {dvd : DvdDrive} {memory rawMemory : Nat → Buffer} {unscramblerMemory : Unscrambler}
      {d : Disc} (created : discNew dvd memory rawMemory unscramblerMemory = some d) (drive : σ)
      (disctype : UInt8) : DiscReachable env (World.created drive d disctype)
  | step {w w' : World σ} (reachable : DiscReachable env w) (step : DiscStep env w w') :
      DiscReachable env w'
  | setDisctype {w : World σ} (reachable : DiscReachable env w) (disctype : UInt8) :
      DiscReachable env { w with disctype := disctype }
  | detectType {w : World σ} (reachable : DiscReachable env w) (forcedType sectorsNo : UInt32) :
      DiscReachable env
        (discDetectType env forcedType sectorsNo (w.withDisc { w.disc with sectorsNo := 1000 }))

/-- What the assertion needs of a disc. -/
structure DiscFormed (w : World σ) : Prop where
  formed : SeedsWellFormed w.disc.u
  enough : 5 ≤ w.disc.cacheSize

theorem Extends.discFormed {P : CachedBlock → Prop} (kept : Extends P w w')
    (disc : DiscFormed w) : DiscFormed w' where
  formed := kept.formed disc.formed
  enough := by
    rw [kept.disc]
    exact disc.enough

variable {env}

theorem discReadSector_discFormed (disc : DiscFormed w) {request : Request} {read : SectorRead}
    (returned : discReadSector env request w = .ok (w', read)) : DiscFormed w' := by
  have ended := discReadSector_returned env w request
  have kept : Extends (fun _ => True) w (readSector env request.sectorNo w).1 :=
    readSector_extends env disc.formed fun _ _ _ _ _ => trivial
  rw [returned] at ended
  cases ended with
  | cached => exact disc
  | read _ success =>
      rw [success] at kept
      exact kept.discFormed disc
  | failed _ failure =>
      rw [failure] at kept
      exact kept.discFormed disc

theorem DiscStep.discFormed (step : DiscStep env w w') (disc : DiscFormed w) : DiscFormed w' := by
  cases step with
  | read returned => exact discReadSector_discFormed disc returned
  | initRange => exact ⟨disc.formed, disc.enough⟩
  | setReadMethod => exact ⟨disc.formed, disc.enough⟩
  | setUnscrambling => exact ⟨disc.formed, disc.enough⟩
  | setBruteforce => exact ⟨⟨disc.formed.entry, disc.formed.sentinel⟩, disc.enough⟩

theorem discDetectType_discFormed (disc : DiscFormed w) (forcedType sectorsNo : UInt32) :
    DiscFormed (discDetectType env forcedType sectorsNo w) := by
  have same : (discDetectType env forcedType sectorsNo w).disc.u = w.disc.u ∧
      (discDetectType env forcedType sectorsNo w).disc.cacheSize = w.disc.cacheSize := by
    unfold discDetectType
    dsimp only
    split_ifs <;> exact ⟨rfl, rfl⟩
  constructor
  · rw [same.1]
    exact disc.formed
  · rw [same.2]
    exact disc.enough

theorem DiscReachable.discFormed (reachable : DiscReachable env w) : DiscFormed w := by
  induction reachable with
  | created created drive disctype =>
      cases created
      have five : (5 : UInt32) ≤ 40 := by decide
      exact ⟨unscramblerNew_formed _, five⟩
  | step _ step disc => exact step.discFormed disc
  | setDisctype _ _ disc => exact ⟨disc.formed, disc.enough⟩
  | @detectType w _ forcedType sectorsNo disc =>
      have opened : DiscFormed (w.withDisc { w.disc with sectorsNo := 1000 }) :=
        ⟨disc.formed, disc.enough⟩
      exact discDetectType_discFormed opened forcedType sectorsNo

/-! ## The set-up of a disc -/

/-- A read that ends the process, in a state the program can reach. -/
def Aborts (env : Env σ) (w : World σ) (request : Request) : Prop :=
  DiscReachable env w ∧ discReadSector env request w = .error .blockNotCached

/-- An outcome of some calls: a reachable state, or an assertion that failed in one. -/
def Outlasts {α : Type} (env : Env σ) (world : α → World σ) : Except Abort α → Prop
  | .ok result => DiscReachable env (world result)
  | .error .blockNotCached => ∃ w request, Aborts env w request
  | .error .unscramblingDisabled => True

theorem discReadSector_outlasts (reachable : DiscReachable env w) (request : Request) :
    Outlasts env Prod.fst (discReadSector env request w) := by
  cases returned : discReadSector env request w with
  | ok result => exact .step reachable (.read returned)
  | error abort =>
      cases abort with
      | blockNotCached => exact ⟨w, request, reachable, returned⟩
      | unscramblingDisabled => trivial

theorem Outlasts.bind {α β : Type} {world : α → World σ} {world' : β → World σ}
    {first : Except Abort α} {next : α → Except Abort β} (outlasts : Outlasts env world first)
    (later : ∀ result, DiscReachable env (world result) → Outlasts env world' (next result)) :
    Outlasts env world' (first >>= next) := by
  cases first with
  | ok result => exact later result outlasts
  | error abort =>
      cases abort with
      | blockNotCached => exact outlasts
      | unscramblingDisabled => trivial

theorem crackSeedsLoop_outlasts (left : Nat) (i : UInt32) (reachable : DiscReachable env w) :
    Outlasts env id (crackSeedsLoop env left i w) := by
  induction left generalizing i w with
  | zero => exact reachable
  | succ left ih => exact (discReadSector_outlasts reachable _).bind fun result later => ih _ later

theorem readUnscrambled_outlasts (sectorNo : UInt32) (reachable : DiscReachable env w) :
    Outlasts env Prod.fst (readUnscrambled env sectorNo w) :=
  (discReadSector_outlasts (.step reachable (.setUnscrambling w true)) _).bind
    fun _ later => .step later (.setUnscrambling _ _)

theorem discAnalyze_outlasts (reachable : DiscReachable env w) :
    Outlasts env Prod.fst (discAnalyze env w) :=
  (readUnscrambled_outlasts 0 reachable).bind fun _ later => later

theorem discCheckUpdate_outlasts (reachable : DiscReachable env w) :
    Outlasts env id (discCheckUpdate env w) := by
  unfold discCheckUpdate
  split
  · exact (readUnscrambled_outlasts 160 reachable).bind fun _ later => later
  · exact reachable

/-- `disc_init` is made of the same steps as every other run. -/
theorem discInit_outlasts (disctype sectorsNo : UInt32) (reachable : DiscReachable env w) :
    Outlasts env Prod.fst (discInit env disctype sectorsNo w) := by
  unfold discInit
  have detected := DiscReachable.detectType reachable disctype sectorsNo
  refine (crackSeedsLoop_outlasts 20 0 detected).bind fun cracked later => ?_
  have searching : DiscReachable env _ := .step later (.setBruteforce cracked true)
  dsimp only
  split
  · exact searching
  · refine (discAnalyze_outlasts searching).bind fun analyzed later => ?_
    split
    · exact (discCheckUpdate_outlasts later).bind fun _ updated => updated
    · exact later

/-! ## Sectors behind the end -/

private theorem beyond_end (behind : beforeEnd w sectorNo 0 = false) {arrays : Locals} :
    dumpBlocks env sectorNo 5 0 w arrays = ((w, arrays), true, false) ∧
      fillBlocks env sectorNo 5 0 w arrays = ((w, arrays), true) ∧
      cacheLocals sectorNo 5 0 w arrays = (w, arrays) ∧
      ∀ headers, reconstructBlocks headers sectorNo 5 0 w arrays = ((w, arrays), true, false) := by
  have skipped : ¬ beforeEnd w sectorNo 0 = true := Bool.eq_false_iff.mp behind
  refine ⟨?_, ?_, ?_, fun headers => ?_⟩
  · rw [dumpBlocks, if_neg skipped]
  · rw [fillBlocks, if_neg skipped]
  · rw [cacheLocals, if_neg skipped]
  · rw [reconstructBlocks, if_neg skipped]

private theorem attempt7_beyond (env : Env σ) (behind : beforeEnd w sectorNo 0 = false) (arrays : Locals) :
    ∃ w₁ arrays₁, Quiet w w₁ ∧ attempt7 env sectorNo 0 (w, arrays) = ((w₁, arrays₁), true, false) := by
  unfold attempt7
  extract_lets distant executed driven
  have quiet : Quiet w driven := .withDrive w _
  have read : executed.out = 0 := dvdReadSectorStreaming_out ..
  obtain ⟨dumped, _, cached, _⟩ := @beyond_end _ driven sectorNo env
    ((quiet.beforeEnd sectorNo 0).trans behind) arrays
  refine ⟨driven, arrays, quiet, ?_⟩
  rw [if_pos (Int.le_of_eq read.symm), dumped]
  dsimp only
  rw [cached]

private theorem attempt89_beyond (env : Env σ)
    (headers : Nat → World σ → Locals → (World σ × Locals) × Bool × Bool)
    (behind : beforeEnd w sectorNo 0 = false) (arrays : Locals) :
    ∃ w₁ arrays₁, Quiet w w₁ ∧
      attempt89 env headers sectorNo 0 (w, arrays) = ((w₁, arrays₁), true, false) := by
  unfold attempt89
  extract_lets distant ahead driven executed driven₁ source arrays₁
  have quiet : Quiet w driven₁ := (Quiet.withDrive w _).trans (.withDrive _ _)
  have read : executed.out = 0 := dvdReadSectorStreaming_out ..
  obtain ⟨_, filled, cached, reconstructed⟩ := @beyond_end _ driven₁ sectorNo env
    ((quiet.beforeEnd sectorNo 0).trans behind) arrays₁
  refine ⟨driven₁, arrays₁, quiet, ?_⟩
  rw [if_pos (Int.le_of_eq read.symm), reconstructed]
  dsimp only
  rw [filled]
  dsimp only
  rw [cached]

/-- There methods 7 to 9 report success without having cached anything. -/
theorem readSector_beyond (env : Env σ)
    (method : w.disc.readMethod = 7 ∨ w.disc.readMethod = 8 ∨ w.disc.readMethod = 9)
    (beyond : w.disc.sectorsNo ≤ sectorNo) :
    ∃ w₁, Quiet w w₁ ∧ readSector env sectorNo w = (w₁, true) := by
  have behind : beforeEnd w sectorNo 0 = false := by
    have first : sectorNo + Nat.toUInt32 0 * 16 = sectorNo := UInt32.add_zero sectorNo
    rw [beforeEnd, first]
    exact decide_eq_false (UInt32.not_lt.mpr beyond)
  obtain seven | eight | nine := method
  · obtain ⟨w₁, arrays₁, quiet, first⟩ := attempt7_beyond env behind (.ofStack env w.drive)
    have chosen : readSector env sectorNo w = discReadSector7 env sectorNo w := by
      rw [readSector, seven]
      rfl
    exact ⟨w₁, quiet, by rw [chosen, discReadSector7, retryLoop_first first]⟩
  · obtain ⟨w₁, arrays₁, quiet, first⟩ := attempt89_beyond env
      (fun j w arrays => dumpHeaders8 env j 16 0 w arrays true false) behind (.ofStack env w.drive)
    have chosen : readSector env sectorNo w = discReadSector8 env sectorNo w := by
      rw [readSector, eight]
      rfl
    exact ⟨w₁, quiet, by rw [chosen, discReadSector8, retryLoop_first first]⟩
  · obtain ⟨w₁, arrays₁, quiet, first⟩ := attempt89_beyond env
      (fun j w arrays => dumpHeaders9 env j 16 0 w arrays true false) behind (.ofStack env w.drive)
    have chosen : readSector env sectorNo w = discReadSector9 env sectorNo w := by
      rw [readSector, nine]
      rfl
    exact ⟨w₁, quiet, by rw [chosen, discReadSector9, retryLoop_first first]⟩

theorem discReadSector_beyond
    (method : w.disc.readMethod = 7 ∨ w.disc.readMethod = 8 ∨ w.disc.readMethod = 9)
    {request : Request} (beyond : w.disc.sectorsNo ≤ request.sectorNo)
    (missing : ¬ Present w (request.sectorNo / 16))
    (enabled : (request.wantData && !w.disc.unscrambling) = false) :
    discReadSector env request w = .error .blockNotCached := by
  obtain ⟨w₁, quiet, success⟩ := readSector_beyond env method beyond
  have absent : discCacheLookupBlock w₁.disc (request.sectorNo / 16) = none := by
    by_contra found
    have present := (present_iff w₁ _).mpr found
    rw [Present, quiet.disc] at present
    exact missing present
  have ended := discReadSector_returned env w request
  generalize discReadSector env request w = result at ended
  cases ended with
  | disabled needed => exact absurd (needed.symm.trans enabled) (by decide)
  | cached found => exact absurd ((present_iff w _).mpr (found ▸ nofun)) missing
  | read _ success' found =>
      cases success.symm.trans success'
      cases absent.symm.trans found
  | lost => rfl
  | failed _ failure => cases success.symm.trans failure

end Reading

/-! ## A read of the counting drive -/

theorem readSector_generic {σ : Type} {env : Env σ} {w : World σ} {sectorNo : UInt32}
    (known : 0 ≤ w.disc.readMethod ∧ w.disc.readMethod ≤ 6) :
    readSector env sectorNo w = discReadSectorGeneric env w.disc.readMethod.toNat sectorNo w := by
  obtain ⟨lower, upper⟩ := known
  unfold readSector
  split
  · omega
  · omega
  · omega
  · rfl

theorem countingEnv_discReadSector {w : World UInt32} {sectorNo : UInt32}
    (vanilla : w.disc.dvd.memdump = .vanilla2064) (ranged : Ranged w.disc)
    (near : sectorNo.toNat ≤ 32768) (seedless : Seedless w.disc.u)
    (known : 0 ≤ w.disc.readMethod ∧ w.disc.readMethod ≤ 6) (enabled : w.disc.unscrambling = true)
    (missing : discCacheLookupBlock w.disc (sectorNo / 16) = none) :
    ∃ w' data rawdata, discReadSector (countingEnv 0) ⟨sectorNo, true, true⟩ w =
        .ok (w', sectorOf ⟨sectorNo, true, true⟩ data rawdata) ∧
      discCacheLookupBlock w'.disc (sectorNo / 16) = some (data, rawdata) ∧
      Extends (PassBlock 0 w.disc.secMem.toNat sectorNo) w w' := by
  obtain ⟨w', read, kept, _⟩ := @countingEnv_read 0 sectorNo w w.disc.readMethod.toNat vanilla
    ranged near (by decide) seedless
  have positive : w.disc.maxBlk ≠ 0 := by
    intro zero
    have positive := ranged.positive
    rw [zero] at positive
    cases positive
  have present : Present w' (sectorNo / 16) := by
    have success := discReadSectorGeneric_present (countingEnv 0) (.inl positive)
      (congrArg Prod.snd read)
    rw [read] at success
    exact success
  cases found : discCacheLookupBlock w'.disc (sectorNo / 16) with
  | none => exact absurd found ((present_iff w' _).mp present)
  | some entry =>
      refine ⟨w', entry.1, entry.2, ?_, found, kept⟩
      rw [← readSector_generic known] at read
      unfold discReadSector
      dsimp only
      rw [enabled, missing, read]
      dsimp only
      rw [found]
      rfl

theorem counting_setUp {d : Disc}
    (created : discNew ⟨.vanilla2064, 2, 0, true⟩ (fun _ _ => 0) (fun _ _ => 0)
      ⟨fun _ => ⟨0, fun _ => 0⟩, false⟩ = some d) :
    EmptyCache (World.created (0 : UInt32)
        (discSetReadMethod (initRange d notGiven notGiven) 0) 0) ∧
      d.dvd.memdump = .vanilla2064 ∧ Seedless d.u ∧ d.unscrambling = true := by
  have start := discNew_emptyCache created (0 : UInt32) (by decide : (0 : UInt8) ≠ 3)
  refine ⟨⟨start.reachable, start.agree, start.positive, start.empty, start.recorded⟩, ?_⟩
  cases created
  exact ⟨rfl, unscramblerNew_seedless _, rfl⟩

theorem countingEnv_firstRead {d : Disc}
    (created : discNew ⟨.vanilla2064, 2, 0, true⟩ (fun _ _ => 0) (fun _ _ => 0)
      ⟨fun _ => ⟨0, fun _ => 0⟩, false⟩ = some d) {sectorNo : UInt32}
    (near : sectorNo.toNat ≤ 32768) :
    ∃ w' data rawdata, discReadSector (countingEnv 0) ⟨sectorNo, true, true⟩
        (World.created 0 (discSetReadMethod (initRange d notGiven notGiven) 0) 0) =
          .ok (w', sectorOf ⟨sectorNo, true, true⟩ data rawdata) ∧
      discCacheLookupBlock w'.disc (sectorNo / 16) = some (data, rawdata) ∧
      Extends (PassBlock 0 16 sectorNo)
        (World.created 0 (discSetReadMethod (initRange d notGiven notGiven) 0) 0) w' := by
  obtain ⟨start, vanilla, seedless, enabled⟩ := counting_setUp created
  have ranged := discSetReadMethod_ranged d notGiven notGiven 0
  have known : (0 : Int) ≤ 0 ∧ (0 : Int) ≤ 6 := by decide
  exact countingEnv_discReadSector vanilla ranged near seedless known enabled start.missing

/-! ## The assertion -/

/-- In a state a run can reach, the assertion holds for every sector that the read
method can cache, and with methods 7 to 9 only for those. `disc_init` can fail it
only where one of its reads does. -/
theorem assertion_holds_of_cachable {σ : Type} {env : Env σ} {w : World σ} (reachable : DiscReachable env w) :
    (∀ request : Request, Cachable w request.sectorNo →
      discReadSector env request w ≠ .error .blockNotCached) ∧
    (∀ disctype sectorsNo, discInit env disctype sectorsNo w = .error .blockNotCached →
      ∃ w' request, Aborts env w' request ∧ ¬ Cachable w' request.sectorNo) ∧
    ∀ request : Request,
      (w.disc.readMethod = 7 ∨ w.disc.readMethod = 8 ∨ w.disc.readMethod = 9) →
      (request.wantData && !w.disc.unscrambling) = false → ¬ Cachable w request.sectorNo →
      discReadSector env request w = .error .blockNotCached := by
  have holds : ∀ {w : World σ}, DiscReachable env w → ∀ request : Request,
      Cachable w request.sectorNo → discReadSector env request w ≠ .error .blockNotCached := by
    intro w reachable request cachable aborted
    have disc := reachable.discFormed
    have ended := discReadSector_returned env w request
    rw [aborted] at ended
    cases ended with
    | @lost w' missing success lost =>
        have absent : ¬ Present w (request.sectorNo / 16) := fun present =>
          (present_iff w _).mp present missing
        have found := readSector_present env disc.formed disc.enough cachable absent
          (congrArg Prod.snd success)
        rw [success] at found
        exact (present_iff w' _).mp found lost
  refine ⟨holds reachable, fun disctype sectorsNo aborted => ?_, ?_⟩
  · have outlasts := discInit_outlasts disctype sectorsNo reachable
    rw [aborted] at outlasts
    obtain ⟨w', request, aborts⟩ := outlasts
    exact ⟨w', request, aborts, fun cachable => holds aborts.1 request cachable aborts.2⟩
  · intro request method enabled lost
    rw [Cachable, if_pos method, not_or] at lost
    exact discReadSector_beyond method (UInt32.not_lt.mp lost.2) lost.1 enabled

/-- The disc of the header drive, forced to 96 sectors and read with method 8. -/
def World.headers (d : Disc) : World UInt32 :=
  discDetectType headerEnv 0 96
    ((World.created 0 (discSetReadMethod (initRange d notGiven notGiven) 8) 0).withDisc
      { discSetReadMethod (initRange d notGiven notGiven) 8 with sectorsNo := 1000 })

/-- A read with method 0 and one with method 8 succeed and find their blocks; behind the end
method 8 aborts. -/
theorem assertion_holds_read :
    ∃ d, discNew ⟨.vanilla2064, 2, 0, true⟩ (fun _ _ => 0) (fun _ _ => 0)
        ⟨fun _ => ⟨0, fun _ => 0⟩, false⟩ = some d ∧
      ((readSector (countingEnv 0) 0
          (World.created 0 (discSetReadMethod (initRange d notGiven notGiven) 0) 0)).2 = true ∧
        discReadSector (countingEnv 0) ⟨0, true, true⟩
          (World.created 0 (discSetReadMethod (initRange d notGiven notGiven) 0) 0) ≠
            .error .blockNotCached) ∧
      (readSector headerEnv 16 (World.headers d)).2 = true ∧
      discReadSector headerEnv ⟨16, true, true⟩ (World.headers d) ≠ .error .blockNotCached ∧
      discReadSector headerEnv ⟨96, true, true⟩ (World.headers d) = .error .blockNotCached := by
  obtain ⟨d, created⟩ : ∃ d, discNew ⟨.vanilla2064, 2, 0, true⟩ (fun _ _ => 0) (fun _ _ => 0)
      ⟨fun _ => ⟨0, fun _ => 0⟩, false⟩ = some d := ⟨_, rfl⟩
  obtain ⟨start, vanilla, seedless, enabled⟩ := counting_setUp created
  have set : ∀ method, DiscReachable (countingEnv 0)
      (World.created 0 (discSetReadMethod (initRange d notGiven notGiven) method) 0) := fun method =>
    .step (.step (.created created 0 0) (.initRange _ notGiven notGiven)) (.setReadMethod _ method)
  have ranged := discSetReadMethod_ranged d notGiven notGiven 0
  have cachable : (discSetReadMethod (initRange d notGiven notGiven) 0).maxBlk ≠ 0 := by
    intro zero
    have positive := ranged.positive
    rw [zero] at positive
    cases positive
  have counted : ∃ w', readSector (countingEnv 0) 0
      (World.created 0 (discSetReadMethod (initRange d notGiven notGiven) 0) 0) = (w', true) := by
    obtain ⟨w', read, -⟩ := @countingEnv_read 0 0
      (World.created 0 (discSetReadMethod (initRange d notGiven notGiven) 0) 0) 0 vanilla ranged
      (by decide) (by decide) seedless
    exact ⟨w', read⟩
  obtain ⟨w', success⟩ := counted
  have reachable : DiscReachable headerEnv (World.headers d) :=
    .detectType (.step (.step (.created created 0 0) (.initRange _ notGiven notGiven))
      (.setReadMethod _ 8)) 0 96
  have eight : (World.headers d).disc.readMethod = 8 := rfl
  have size : (World.headers d).disc.sectorsNo = 96 := rfl
  refine ⟨d, created, ⟨congrArg Prod.snd success, ?_⟩, ?_, ?_, ?_⟩
  · exact (assertion_holds_of_cachable (set 0)).1 ⟨0, true, true⟩ (.inr (.inl cachable))
  · have read : readSector headerEnv 16 (World.headers d) = discReadSector8 headerEnv 16 (World.headers d) :=
      rfl
    rw [read]
    have before : ∀ j < 5, (16 : UInt32) + j.toUInt32 * 16 < 96 := by decide
    exact headerEnv_drive.read8 vanilla (fun j block => decide_eq_true (before j block)) seedless
  · refine (assertion_holds_of_cachable reachable).1 ⟨16, true, true⟩ (.inr ?_)
    rw [if_pos (.inr (.inl eight)), size]
    decide
  · refine (assertion_holds_of_cachable reachable).2.2 ⟨96, true, true⟩ (.inr (.inl eight)) ?_ ?_
    · have same : (World.headers d).disc.unscrambling = d.unscrambling := rfl
      rw [same, enabled]
      rfl
    · rintro (present | early)
      · have missing : discCacheLookupBlock (World.headers d).disc (96 / 16) = none := start.missing
        exact (present_iff _ _).mp present missing
      · rw [if_pos (.inr (.inl eight)), size] at early
        exact absurd early (by decide)

/-- With method 9 and a disc forced to 16 sectors, the search for seeds runs into it. -/
theorem assertion_fails_sixteen :
    ∃ d, discNew ⟨.hitachi, 2, 9, true⟩ (fun _ _ => 0) (fun _ _ => 0)
        ⟨fun _ => ⟨0, fun _ => 0⟩, false⟩ = some d ∧
      discInit ⟨fun drive _ => (drive, ⟨true, 0, fun _ => 0, ⟨0, 0, 0⟩⟩), fun _ _ _ => 0, id⟩ 0 16
        (World.created () (discSetReadMethod (initRange d notGiven notGiven) 9) 0) =
          .error .blockNotCached :=
  ⟨_, rfl, rfl⟩

end Friidump
