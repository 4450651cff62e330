import Friidump.ImageConversion

/-!
# Converting any file

The input file need not be an image. What comes out are the user data of its blocks
up to the first one that fails its checks or cannot be written.
-/

set_option autoImplicit false

namespace Friidump

/-! ## The blocks of a file -/

/-- The bytes from a block on, with zeroes behind the end of the file. -/
def blockAt (bytes : List UInt8) (g : Nat) : Buffer := fun a => (bytes.drop (33024 * g)).getD a 0

/-- The last block may be short. -/
def blockCount (bytes : List UInt8) : Nat := (bytes.length + 33023) / 33024

/-- A seed of the search with which all sectors of a block pass their checks. -/
structure BlockSeed (bin : Buffer) (s : Nat) : Prop where
  searched : s ≤ 0x7FFE
  checked : ∀ k < 16, edcCalc 0 ((decodedSector bin s.toUInt16 k).bytes 2060) =
    ((decodedSector bin s.toUInt16 k).advance 2060).loadWordBig

def userData (disctype : UInt8) (bin : Buffer) (s : Nat) : List UInt8 :=
  Buffer.bytes (fun a => decodedSector bin s.toUInt16 (a / 2048)
    ((if disctype = 3 then 12 else 6) + a % 2048)) 32768

/-- The user data of the first blocks of a file, each unscrambled with its seed. -/
def userFile (disctype : UInt8) (bytes : List UInt8) (seeds : Nat → Nat) (n : Nat) : List UInt8 :=
  (List.range n).flatMap fun g => userData disctype (blockAt bytes g) (seeds g)

theorem blockSeed_iff {bin : Buffer} {s : Nat} : BlockSeed bin s ↔
    s < 0x7FFF ∧ ∀ k < 16, sectorSyndrome (decodedSector bin s.toUInt16 k) = 0 := by
  constructor
  · rintro ⟨searched, checked⟩
    exact ⟨Nat.lt_succ_of_le searched, fun k inside => (sectorSyndrome_eq_zero_iff _).mpr (checked k inside)⟩
  · rintro ⟨searched, passes⟩
    exact ⟨Nat.le_of_lt_succ searched, fun k inside => (sectorSyndrome_eq_zero_iff _).mp (passes k inside)⟩

theorem BlockSeed.congr {bin bin' : Buffer} {s : Nat} (seed : BlockSeed bin s)
    (same : ∀ a < 33024, bin' a = bin a) : BlockSeed bin' s := by
  obtain ⟨searched, passes⟩ := blockSeed_iff.mp seed
  refine blockSeed_iff.mpr ⟨searched, fun k inside => ?_⟩
  rw [sectorSyndrome_congr fun i below => decodedSector_congr same _ inside below]
  exact passes k inside

theorem userData_congr (disctype : UInt8) {bin bin' : Buffer} (s : Nat)
    (same : ∀ a < 33024, bin' a = bin a) : userData disctype bin' s = userData disctype bin s := by
  refine Buffer.bytes_congr fun a below => ?_
  have offset : (if disctype = 3 then 12 else 6) ≤ 12 := by split <;> decide
  exact decodedSector_congr same _ (by omega) (by omega)

/-- The first sector of such a block passes the test of the search. -/
theorem BlockSeed.accepts {bin : Buffer} {s : Nat} (seed : BlockSeed bin s) : Accepts bin s := by
  obtain ⟨searched, passes⟩ := blockSeed_iff.mp seed
  have first := passes 0 (by decide)
  rw [decodedSector, Nat.mul_zero, Buffer.advance_zero] at first
  exact ⟨searched, (testSeed_iff bin s).mpr first⟩

theorem userFile_congr (disctype : UInt8) (bytes : List UInt8) {seeds seeds' : Nat → Nat} {n : Nat}
    (same : ∀ g < n, seeds g = seeds' g) : userFile disctype bytes seeds n = userFile disctype bytes seeds' n := by
  refine List.flatMap_congr fun g member => ?_
  rw [same g (List.mem_range.mp member)]

theorem userFile_succ (disctype : UInt8) (bytes : List UInt8) (seeds : Nat → Nat) (n : Nat) :
    userFile disctype bytes seeds (n + 1) =
      userFile disctype bytes seeds n ++ userData disctype (blockAt bytes n) (seeds n) := by
  rw [userFile, List.range_succ, List.flatMap_append, List.flatMap_singleton]
  rfl

/-! ## One round -/

/-- Each write appends what it is given, or a part of it if it fails. -/
def ConversionFiles.Appends (files : ConversionFiles) : Prop :=
  ∀ content bytes, ∃ part, part <+: bytes ∧ (files.fwrite content bytes).1 = content ++ part ∧
    ((files.fwrite content bytes).2 = false → part = bytes)

section Rounds

variable {disctype : UInt8} {bytes : List UInt8} {currentSector : UInt32} {seeds : Nat → Nat} {g : Nat}
  {files : ConversionFiles} {state : Conversion}

theorem unscrambled_blockSeed {u : Unscrambler} (formed : SeedsWellFormed u) {call : Call}
    (success : (call.on u).out = true) :
    ∃ s, BlockSeed call.inbuf s ∧
      (call.on u).outbuf.bytes 32768 = userData call.disctype call.inbuf s := by
  obtain ⟨s, accepted, passes, shown⟩ := (call.outcome formed).accepts success
  refine ⟨s, blockSeed_iff.mpr ⟨accepted.1, passes⟩, Buffer.bytes_congr fun a below => ?_⟩
  have bout : (call.on u).outbuf = (decodedFrame call.disctype s.toUInt16 call.inbuf call.outbuf 16).bout :=
    congrArg Frame.bout shown
  rw [bout, decodedFrame]
  exact if_pos (by omega)

/-- The loop before it reads block `g`. -/
structure Underway (disctype : UInt8) (bytes : List UInt8) (currentSector : UInt32) (seeds : Nat → Nat)
    (g : Nat) (state : Conversion) : Prop where
  rest : state.rest = bytes.drop (33024 * g)
  sector : state.s = UInt32.ofNat (16 * g)
  formed : SeedsWellFormed state.u
  begun : g ≤ blockCount bytes
  going : state.out = true
  known : ∀ earlier < g, BlockSeed (blockAt bytes earlier) (seeds earlier)
  outfile : state.outfile = userFile disctype bytes seeds g
  current : state.currentSector = currentSector

/-- What a conversion can come to: all blocks are written, or those before the block that
`current_sector` tells, perhaps with a part of that one. -/
inductive ConvertedSoundly (disctype : UInt8) (bytes : List UInt8) (currentSector : UInt32) :
    Bool → List UInt8 → UInt32 → Prop
  | whole {seeds : Nat → Nat} (known : ∀ g < blockCount bytes, BlockSeed (blockAt bytes g) (seeds g)) :
      ConvertedSoundly disctype bytes currentSector true
        (userFile disctype bytes seeds (blockCount bytes)) currentSector
  | stopped {seeds : Nat → Nat} {g : Nat} {part : List UInt8} (inside : g < blockCount bytes)
      (known : ∀ earlier < g, BlockSeed (blockAt bytes earlier) (seeds earlier))
      (written : part = [] ∨
        ∃ s, BlockSeed (blockAt bytes g) s ∧ part <+: userData disctype (blockAt bytes g) s) :
      ConvertedSoundly disctype bytes currentSector false (userFile disctype bytes seeds g ++ part)
        (UInt32.ofNat (16 * g))

namespace Underway

theorem inbuf (underway : Underway disctype bytes currentSector seeds g state) :
    ∀ a < 33024, readPadded state.rest state.bIn a = blockAt bytes g a := by
  intro a below
  rw [readPadded_apply _ _ below, underway.rest, blockAt]

theorem inside (underway : Underway disctype bytes currentSector seeds g state) (left : state.rest ≠ []) :
    g < blockCount bytes := by
  have length := List.length_pos_iff.mpr left
  rw [underway.rest, List.length_drop] at length
  rw [blockCount]
  omega

/-- At the end of the file all blocks have been written. -/
theorem ended (underway : Underway disctype bytes currentSector seeds g state) (ended : state.rest = []) :
    ConvertedSoundly disctype bytes currentSector state.out state.outfile state.currentSector := by
  have length := congrArg List.length ended
  rw [underway.rest, List.length_drop, List.length_nil] at length
  have all : g = blockCount bytes := by
    have begun := underway.begun
    rw [blockCount] at begun ⊢
    omega
  rw [underway.going, underway.outfile, underway.current, all]
  exact .whole (all ▸ underway.known)

/-- A round takes a block to the output file, or is the last one. -/
theorem round (underway : Underway disctype bytes currentSector seeds g state) (left : state.rest ≠ [])
    (appends : files.Appends) :
    (∃ s, Underway disctype bytes currentSector (fun i => if i = g then s else seeds i) (g + 1)
        (convertBlock disctype files state)) ∨
      (convertBlock disctype files state).out = false ∧
        ConvertedSoundly disctype bytes currentSector (convertBlock disctype files state).out
          (convertBlock disctype files state).outfile
          (convertBlock disctype files state).currentSector := by
  have inside := underway.inside left
  have call : (state.call disctype).on state.u = unscramblerUnscramble16sectors disctype state.u state.s
    (readPadded state.rest state.bIn) state.bOut := rfl
  have formed := ((state.call disctype).outcome underway.formed).formed underway.formed
  have step : ∀ content failed, (if ((state.call disctype).on state.u).out then
      files.fwrite state.outfile (((state.call disctype).on state.u).outbuf.bytes 32768)
      else (state.outfile, true)) = (content, failed) →
      (convertBlock disctype files state).out = !failed ∧
        (convertBlock disctype files state).outfile = content ∧
        (convertBlock disctype files state).currentSector =
          (if failed then state.s else state.currentSector) := by
    intro content failed written
    rw [call] at written
    unfold convertBlock
    dsimp only
    rw [written]
    exact ⟨rfl, rfl, rfl⟩
  cases success : ((state.call disctype).on state.u).out with
  | false =>
      obtain ⟨out, outfile, current⟩ := step state.outfile true (by rw [success]; rfl)
      refine .inr ⟨out, ?_⟩
      have stopped := @ConvertedSoundly.stopped disctype bytes currentSector seeds g [] inside
        underway.known (.inl rfl)
      rw [List.append_nil] at stopped
      rw [out, outfile, current, underway.outfile, if_pos rfl, underway.sector]
      exact stopped
  | true =>
      obtain ⟨s, seed, shown⟩ := unscrambled_blockSeed underway.formed success
      have same : ∀ a < 33024, blockAt bytes g a = (state.call disctype).inbuf a :=
        fun a below => (underway.inbuf a below).symm
      have seed := seed.congr same
      have data := shown.trans (userData_congr disctype s same).symm
      obtain ⟨part, short, content, whole⟩ := appends state.outfile (userData disctype (blockAt bytes g) s)
      rcases written : files.fwrite state.outfile (userData disctype (blockAt bytes g) s) with ⟨file, failed⟩
      rw [written] at content whole
      dsimp only at content whole
      obtain ⟨out, outfile, current⟩ := step file failed (by rw [success, data, if_pos rfl, written])
      cases failed with
      | true =>
          refine .inr ⟨out, ?_⟩
          rw [out, outfile, current, content, underway.outfile, if_pos rfl, underway.sector]
          exact .stopped inside underway.known (.inr ⟨s, seed, short⟩)
      | false =>
          have earlier : ∀ i < g, (if i = g then s else seeds i) = seeds i :=
            fun i before => if_neg (Nat.ne_of_lt before)
          refine .inl ⟨s, ?_, ?_, formed, inside, out, ?_, ?_, current.trans underway.current⟩
          · have rest : (convertBlock disctype files state).rest = state.rest.drop 33024 := rfl
            rw [rest, underway.rest, List.drop_drop, Nat.mul_succ]
          · have sector : (convertBlock disctype files state).s = state.s + 16 := rfl
            rw [sector, underway.sector, Nat.mul_succ, UInt32.ofNat_add]
            rfl
          · intro i before
            obtain before | rfl := Nat.lt_succ_iff_lt_or_eq.mp before
            · rw [earlier i before]
              exact underway.known i before
            · rw [if_pos rfl]
              exact seed
          · rw [outfile, content, whole rfl, underway.outfile, userFile_succ, if_pos rfl,
              userFile_congr disctype bytes earlier]

end Underway

theorem convertLoop_sound (appends : files.Appends) {rounds : Nat}
    (underway : Underway disctype bytes currentSector seeds g state) (enough : state.rest.length ≤ rounds) :
    ConvertedSoundly disctype bytes currentSector (convertLoop disctype files rounds state).out
      (convertLoop disctype files rounds state).outfile
      (convertLoop disctype files rounds state).currentSector := by
  induction rounds generalizing seeds g state with
  | zero => exact underway.ended (List.length_eq_zero_iff.mp (Nat.le_zero.mp enough))
  | succ rounds ih =>
      by_cases left : state.rest = []
      · rw [convertLoop, if_pos (.inl left)]
        exact underway.ended left
      · have going : ¬ (state.rest = [] ∨ state.out = false) := by
          rintro (empty | failed)
          · exact left empty
          · cases underway.going.symm.trans failed
        have shorter : (convertBlock disctype files state).rest.length ≤ rounds := by
          have dropped : (convertBlock disctype files state).rest.length = state.rest.length - 33024 :=
            List.length_drop
          have length := List.length_pos_iff.mpr left
          omega
        rw [convertLoop, if_neg going]
        obtain ⟨s, next⟩ | ⟨failed, stopped⟩ := underway.round left appends
        · exact ih next shorter
        · cases rounds with
          | zero => exact stopped
          | succ more =>
              rw [convertLoop, if_pos (.inr failed)]
              exact stopped

theorem Underway.succeeds (underway : Underway disctype bytes currentSector seeds g state)
    (writes : ∀ content bytes, files.fwrite content bytes = (content ++ bytes, false))
    {known : Nat → List Nat} (fit : SeedsFit known state.u)
    (member : ∀ s, Accepts (blockAt bytes g) s → s ∈ known (g % 16)) {s : Nat}
    (seed : BlockSeed (blockAt bytes g) s) :
    (convertBlock disctype files state).out = true ∧
      SeedsFit known (convertBlock disctype files state).u := by
  have seed := seed.congr underway.inbuf
  have zone : (state.call disctype).zone = g % 16 := by
    rw [Call.zone, Conversion.call, underway.sector, seedZone_group]
  have within : (state.call disctype).Within known := by
    intro j fits
    rw [zone]
    exact member j (fits.congr underway.inbuf)
  obtain ⟨out, -, fit⟩ := convertBlock_direct writes fit within rfl
  rw [directFrame_of_accepts seed.accepts] at out
  exact ⟨out.trans ((decodedFrame_out_iff ..).mpr (blockSeed_iff.mp seed).2), fit⟩

theorem convertLoop_complete
    (writes : ∀ content bytes, files.fwrite content bytes = (content ++ bytes, false))
    {known : Nat → List Nat}
    (member : ∀ g < blockCount bytes, ∀ s, Accepts (blockAt bytes g) s → s ∈ known (g % 16))
    (sound : ∀ g < blockCount bytes, ∃ s, BlockSeed (blockAt bytes g) s) {rounds : Nat}
    (underway : Underway disctype bytes currentSector seeds g state) (fit : SeedsFit known state.u) :
    (convertLoop disctype files rounds state).out = true := by
  have appends : files.Appends := fun content bytes => by
    rw [writes]
    exact ⟨bytes, List.prefix_rfl, rfl, fun _ => rfl⟩
  induction rounds generalizing seeds g state with
  | zero => exact underway.going
  | succ rounds ih =>
      rw [convertLoop]
      split
      · exact underway.going
      · rename_i going
        have left : state.rest ≠ [] := fun empty => going (.inl empty)
        have inside := underway.inside left
        obtain ⟨s, seed⟩ := sound g inside
        obtain ⟨success, fit⟩ := underway.succeeds writes fit (member g inside) seed
        obtain ⟨s, next⟩ | ⟨failed, -⟩ := underway.round left appends
        · exact ih next fit
        · cases success.symm.trans failed

end Rounds

/-! ## The whole file -/

section File

variable {disctype : UInt8} {files : ConversionFiles} {bytes : List UInt8}

theorem underway_start (disctype : UInt8) (bytes : List UInt8) {u : Unscrambler}
    (formed : SeedsWellFormed u) (currentSector : UInt32) (bIn bOut : Buffer) :
    Underway disctype bytes currentSector (fun _ => 0) 0
      { rest := bytes, u := u, s := 0, out := true, bIn := bIn, bOut := bOut, outfile := []
        currentSector := currentSector } :=
  ⟨rfl, rfl, formed, Nat.zero_le _, rfl, fun _ below => absurd below (Nat.not_lt_zero _), rfl, rfl⟩

/-- As long as no zone meets more than four seeds, a file that is read and written without an
error is converted to its end exactly when each block passes its checks with some seed. -/
theorem unscrambleFile_complete
    (few : ∀ zone < 16, ∃ known : List Nat, known.length ≤ 4 ∧
      ∀ g < blockCount bytes, g % 16 = zone → ∀ s, Accepts (blockAt bytes g) s → s ∈ known)
    (memory : Unscrambler) (input : files.infile = some bytes) (opens : files.outfileOpens = true)
    (writes : ∀ content bytes, files.fwrite content bytes = (content ++ bytes, false))
    (currentSector : UInt32) (bIn bOut : Buffer) :
    (unscramblerUnscrambleFile disctype (unscramblerNew memory) files currentSector bIn bOut).out = true ↔
      ∀ g < blockCount bytes, ∃ s, BlockSeed (blockAt bytes g) s := by
  have start := underway_start disctype bytes (unscramblerNew_formed memory) currentSector bIn bOut
  rw [unscramblerUnscrambleFile, input]
  dsimp only
  rw [if_pos opens]
  constructor
  · intro success
    have appends : files.Appends := fun content bytes => by
      rw [writes]
      exact ⟨bytes, List.prefix_rfl, rfl, fun _ => rfl⟩
    have sound := @convertLoop_sound disctype bytes currentSector _ 0 files _ appends bytes.length start
      (Nat.le_refl _)
    dsimp only at success
    rw [success] at sound
    generalize (convertLoop disctype files bytes.length _).outfile = outfile at sound
    generalize (convertLoop disctype files bytes.length _).currentSector = current at sound
    cases sound with
    | whole known => exact fun g inside => ⟨_, known g inside⟩
  · intro sound
    choose! known short member using few
    exact convertLoop_complete writes
      (fun g inside s accepted => member _ (Nat.mod_lt _ (by decide)) g inside rfl s accepted) sound start
      ⟨unscramblerNew_formed memory, rfl, unscramblerNew_zonesRoomy memory known, short⟩

end File

/-- The same file is converted. -/
theorem unscrambleFile_complete_short :
    (unscramblerUnscrambleFile 3 (unscramblerNew ⟨fun _ => ⟨0, fun _ => 0⟩, false⟩)
      (healthyFiles [0, 0, 0]) 7 (fun _ => 0) (fun _ => 0)).out = true := by
  have silent : ∀ g a, blockAt [0, 0, 0] g a = 0 := by
    intro g a
    rw [blockAt, List.getD_eq_getElem?_getD, List.getElem?_drop]
    generalize 33024 * g + a = i
    match i with
    | 0 | 1 | 2 => rfl
    | i + 3 => rfl
  have zero : sectorSyndrome (fun _ => 0) = 0 := by
    have doubled := sectorSyndrome_xor (fun _ => 0) (fun _ => 0)
    rw [UInt32.xor_self] at doubled
    refine (sectorSyndrome_congr fun i _ => ?_).trans doubled
    exact UInt8.xor_self.symm
  have seed : ∀ g, BlockSeed (blockAt [0, 0, 0] g) 0 := by
    intro g
    refine blockSeed_iff.mpr ⟨by decide, fun k _ => ?_⟩
    rw [← zero]
    refine sectorSyndrome_congr fun i _ => ?_
    have plain : decodedSector (blockAt [0, 0, 0] g) (Nat.toUInt16 0) k =
        (blockAt [0, 0, 0] g).advance (2064 * k) := decodedSector_zero _ _
    rw [plain, Buffer.advance_apply, silent]
  refine (unscrambleFile_complete (fun _ _ => ⟨[0], by decide, fun g _ _ s accepted => ?_⟩)
    ⟨fun _ => ⟨0, fun _ => 0⟩, false⟩ rfl rfl (fun _ _ => rfl) 7 _ _).mpr fun g _ => ⟨0, seed g⟩
  exact List.mem_singleton.mpr (accepted.unique (seed g).accepts)

end Friidump
