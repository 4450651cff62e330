import Friidump.BlockCache
import Friidump.SeedCacheTransparency

/-!
# Unscrambling a dump file

A raw dump holds blocks whose sectors are already unscrambled, so that the
search settles on seed 0 throughout.
-/

set_option autoImplicit false

namespace Friidump

/-! ## The conversion -/

/-- The two files. A write takes the content of the output file to a new one, and says
whether the error indicator of the stream is set. -/
structure ConversionFiles where
  infile : Option (List UInt8)
  outfileOpens : Bool
  fwrite : List UInt8 → List UInt8 → List UInt8 × Bool

/-- The variables of the loop, with the bytes of the input file not yet read. -/
structure Conversion where
  rest : List UInt8
  u : Unscrambler
  s : UInt32
  out : Bool
  bIn : Buffer
  bOut : Buffer
  outfile : List UInt8
  currentSector : UInt32

/-- What `fread (b_in, 1, RAW_BLOCK_SIZE, in)` and the padding with zeroes make of the buffer. -/
def readPadded (rest : List UInt8) (bIn : Buffer) : Buffer :=
  let r := min 33024 rest.length
  (bIn.memcpy 0 (.ofBytes rest) r).memset r 0 (33024 - r)

def convertBlock (disctype : UInt8) (files : ConversionFiles) (state : Conversion) : Conversion :=
  let result := unscramblerUnscramble16sectors disctype state.u state.s
    (readPadded state.rest state.bIn) state.bOut
  let (outfile, failed) :=
    if result.out then files.fwrite state.outfile (result.outbuf.bytes 32768)
    else (state.outfile, true)
  { rest := state.rest.drop 33024
    u := result.u
    s := state.s + 16
    out := !failed
    bIn := result.inbuf
    bOut := result.outbuf
    outfile := outfile
    currentSector := if failed then state.s else state.currentSector }

/-- The loop, with the rounds left. It ends at the end of the file or after a failure. -/
def convertLoop (disctype : UInt8) (files : ConversionFiles) : Nat → Conversion → Conversion
  | 0, state => state
  | rounds + 1, state =>
      if state.rest = [] ∨ state.out = false then state
      else convertLoop disctype files rounds (convertBlock disctype files state)

/-- The result with the content of the output file, if that was opened, and with what
`current_sector` points to. -/
structure Converted where
  out : Bool
  u : Unscrambler
  outfile : Option (List UInt8)
  currentSector : UInt32

/-- `bIn` and `bOut` are the contents of the automatic arrays. -/
def unscramblerUnscrambleFile (disctype : UInt8) (u : Unscrambler) (files : ConversionFiles)
    (currentSector : UInt32) (bIn bOut : Buffer) : Converted :=
  match files.infile with
  | none => { out := false, u := u, outfile := none, currentSector := currentSector }
  | some bytes =>
      if files.outfileOpens then
        let state := convertLoop disctype files bytes.length
          { rest := bytes, u := u, s := 0, out := true, bIn := bIn, bOut := bOut, outfile := []
            currentSector := currentSector }
        { out := state.out, u := state.u, outfile := some state.outfile
          currentSector := state.currentSector }
      else { out := false, u := u, outfile := none, currentSector := currentSector }

/-- As many rounds as there are bytes are enough. -/
theorem convertLoop_ends (disctype : UInt8) (files : ConversionFiles) (rounds : Nat)
    (state : Conversion) (enough : state.rest.length ≤ rounds) :
    (convertLoop disctype files rounds state).rest = [] ∨
      (convertLoop disctype files rounds state).out = false := by
  induction rounds generalizing state with
  | zero => exact .inl (List.length_eq_zero_iff.mp (Nat.le_zero.mp enough))
  | succ rounds ih =>
      rw [convertLoop]
      split
      · assumption
      · rename_i going
        have nonempty := List.length_pos_iff.mpr fun empty => going (.inl empty)
        refine ih _ ?_
        have dropped : (state.rest.drop 33024).length ≤ rounds := by
          rw [List.length_drop]
          omega
        exact dropped

/-! ## Dumped blocks -/

/-- Data and raw data of a block that the unscrambler took and the disc cached. -/
inductive Dumpable (disctype : UInt8) : Buffer → Buffer → Prop
  | mk {u : Unscrambler} {sectorNo block : UInt32} {inbuf outbuf data rawdata : Buffer} {d : Disc}
      (reachable : Reachable u) (agree : disctype = 3 ↔ d.type = .dvd)
      (accepted :
        (unscramblerUnscramble16sectors disctype u sectorNo inbuf outbuf).out = true)
      (cached : discCacheLookupBlock (discCacheAddBlock d block
          (unscramblerUnscramble16sectors disctype u sectorNo inbuf outbuf).outbuf
          (unscramblerUnscramble16sectors disctype u sectorNo inbuf outbuf).inbuf).1 block =
        some (data, rawdata)) :
      Dumpable disctype data rawdata

theorem Dumpable.blockValid {disctype : UInt8} {data rawdata : Buffer}
    (dumped : Dumpable disctype data rawdata) : BlockValid (dataOffset disctype) data rawdata := by
  cases dumped with
  | @mk u sectorNo block inbuf outbuf _ _ d reachable agree accepted cached =>
      obtain ⟨seed, handed⟩ := unscramble_handed reachable.formed accepted
      generalize unscramblerUnscramble16sectors disctype u sectorNo inbuf outbuf = result
        at cached handed
      have offset : d.copyOffset = dataOffset disctype := if_congr agree.symm rfl rfl
      have small : dataOffset disctype ≤ 16 := Nat.le_trans (dataOffset_le disctype) (by decide)
      have stored : discCacheLookupBlock (discCacheAddBlock d block result.outbuf result.inbuf).1
          block = some ((d.cache (d.cachePos block)).memcpy 0 result.outbuf 32768,
            (d.rawCache (d.cachePos block)).memcpy 0
              (copyUserData result.inbuf result.outbuf (dataOffset disctype)) 33024) := by
        simp only [discCacheLookupBlock, discCacheAddBlock, Disc.cachePos, if_true, offset]
      rw [stored] at cached
      cases cached
      refine handed.blockValid.congr small (fun a below => ?_) (fun a below => ?_)
      · exact Buffer.memcpy_inside _ _ (Nat.zero_le a) ((Nat.zero_add _).symm ▸ below)
      · exact Buffer.memcpy_inside _ _ (Nat.zero_le a) ((Nat.zero_add _).symm ▸ below)

/-! ## Seed 0 -/

theorem cipherPad_zero (i : Nat) : cipherPad 0 i = 0 := by
  rw [cipherPad, lfsrStream_zero, ite_self]

theorem decodedSector_zero (bin : Buffer) (k : Nat) : decodedSector bin 0 k = bin.advance (2064 * k) := by
  funext i
  rw [decodedSector, Buffer.xor, cipherPad_zero]
  exact UInt8.xor_zero

section Block

variable {offset : Nat} {data rawdata bin : Buffer}

def Passes (bin : Buffer) : Prop := ∀ k < 16, sectorSyndrome (bin.advance (2064 * k)) = 0

theorem BlockValid.passes (valid : BlockValid offset data rawdata)
    (same : ∀ a < 33024, bin a = rawdata a) : Passes bin := by
  intro k inside
  rw [← (sectorSyndrome_eq_zero_iff (rawdata.advance (2064 * k))).mpr (valid.checked k inside)]
  exact sectorSyndrome_congr fun i below => same _ (by omega)

theorem Passes.accepts (passes : Passes bin) : Accepts bin 0 := by
  refine ⟨by decide, (testSeed_iff bin 0).mpr ?_⟩
  have first := passes 0 (by decide)
  rw [← decodedSector_zero, decodedSector, Nat.mul_zero, Buffer.advance_zero] at first
  exact first

theorem Passes.out (passes : Passes bin) (disctype : UInt8) (bout : Buffer) :
    (directFrame disctype bin bout).out = true := by
  rw [directFrame_of_accepts passes.accepts]
  refine (decodedFrame_out_iff ..).mpr fun k inside => ?_
  exact (congrArg sectorSyndrome (decodedSector_zero bin k)).trans (passes k inside)

end Block

theorem BlockValid.frame {disctype : UInt8} {data rawdata bin : Buffer}
    (valid : BlockValid (dataOffset disctype) data rawdata)
    (same : ∀ a < 33024, bin a = rawdata a) (bout : Buffer) :
    (directFrame disctype bin bout).out = true ∧
      (directFrame disctype bin bout).bout.bytes 32768 = data.bytes 32768 := by
  have passes := valid.passes same
  refine ⟨passes.out disctype bout, ?_⟩
  rw [directFrame_of_accepts passes.accepts]
  refine Buffer.bytes_congr fun a below => ?_
  have offset := dataOffset_le disctype
  have insideBlock : a / 2048 < 16 := by omega
  have insideSector : a % 2048 < 2048 := Nat.mod_lt a (by decide)
  rw [← Nat.div_add_mod a 2048, valid.agrees _ insideBlock _ insideSector,
    decodedFrame_bout _ _ _ _ insideBlock insideSector]
  have seedless : decodedSector bin (Nat.toUInt16 0) (a / 2048) = bin.advance (2064 * (a / 2048)) :=
    decodedSector_zero bin _
  rw [seedless, Buffer.advance_apply]
  exact same _ (by omega)

/-! ## The whole file -/

/-- Every zone of the seed cache knows at most seed 0. -/
structure Seedless (u : Unscrambler) : Prop where
  formed : SeedsWellFormed u
  enabled : u.bruteforceSeeds = true
  roomy : ZonesRoomy u fun _ => [0]

theorem unscramblerNew_seedless (memory : Unscrambler) : Seedless (unscramblerNew memory) :=
  ⟨unscramblerNew_formed memory, rfl, unscramblerNew_zonesRoomy memory _⟩

theorem Seedless.unscramble {u : Unscrambler} (seedless : Seedless u) (call : Call)
    (accepted : Accepts call.inbuf 0) :
    (call.on u).frame = directFrame call.disctype call.inbuf call.outbuf ∧
      Seedless (call.on u).u := by
  have short : ∀ zone < 16, ([0] : List Nat).length ≤ 4 := fun _ _ => by decide
  have within : call.Within fun _ => [0] := fun j fits =>
    List.mem_singleton.mpr (fits.unique accepted)
  have ended := call.outcome seedless.formed
  refine ⟨ended.direct seedless.enabled (call.not_crowded seedless.roomy short within), ?_⟩
  exact ⟨ended.formed seedless.formed, ended.bruteforceSeeds.trans seedless.enabled,
    call.zonesRoomy seedless.formed seedless.roomy short within⟩

private theorem readPadded_block (rawdata bIn : Buffer) (tail : List UInt8) {a : Nat}
    (below : a < 33024) : readPadded (rawdata.bytes 33024 ++ tail) bIn a = rawdata a := by
  have length : min 33024 (rawdata.bytes 33024 ++ tail).length = 33024 := by
    rw [List.length_append, Buffer.length_bytes]
    exact Nat.min_eq_left (Nat.le_add_right _ _)
  have inside : a < (rawdata.bytes 33024).length := by
    rw [Buffer.length_bytes]
    exact below
  have kept : ¬ (33024 ≤ a ∧ a < 33024 + (33024 - 33024)) := fun padded =>
    Nat.not_lt.mpr padded.1 below
  rw [readPadded, length, Buffer.memset, if_neg kept,
    Buffer.memcpy_inside _ _ (Nat.zero_le a) ((Nat.zero_add _).symm ▸ below), Nat.sub_zero,
    Buffer.ofBytes, List.getD_eq_getElem?_getD, List.getElem?_append_left inside,
    List.getElem?_eq_getElem inside, Option.getD_some]
  simp only [Buffer.bytes, List.getElem_map, List.getElem_range]

section File

variable {disctype : UInt8} {files : ConversionFiles}

/-- One round takes one block from the one file to the other. -/
theorem convertBlock_block
    (writes : ∀ content bytes, files.fwrite content bytes = (content ++ bytes, false))
    {data rawdata : Buffer} (valid : BlockValid (dataOffset disctype) data rawdata)
    {state : Conversion} (seedless : Seedless state.u) {tail : List UInt8}
    (ahead : state.rest = rawdata.bytes 33024 ++ tail) :
    (convertBlock disctype files state).rest = tail ∧
      (convertBlock disctype files state).out = true ∧
      (convertBlock disctype files state).outfile = state.outfile ++ data.bytes 32768 ∧
      Seedless (convertBlock disctype files state).u := by
  let call : Call := ⟨disctype, state.s, readPadded state.rest state.bIn, state.bOut⟩
  have same : ∀ a < 33024, call.inbuf a = rawdata a := by
    intro a below
    have read := readPadded_block rawdata state.bIn tail below
    rwa [← ahead] at read
  obtain ⟨shown, seedless'⟩ := seedless.unscramble call (valid.passes same).accepts
  obtain ⟨success, unscrambled⟩ := valid.frame same state.bOut
  have out : (call.on state.u).out = true := (congrArg Frame.out shown).trans success
  have outbuf : (call.on state.u).outbuf.bytes 32768 = data.bytes 32768 :=
    (congrArg (fun frame => frame.bout.bytes 32768) shown).trans unscrambled
  have written : (if (call.on state.u).out then
      files.fwrite state.outfile ((call.on state.u).outbuf.bytes 32768)
      else (state.outfile, true)) = (state.outfile ++ data.bytes 32768, false) := by
    rw [if_pos out, writes, outbuf]
  refine ⟨?_, congrArg (fun result : List UInt8 × Bool => !result.2) written, congrArg Prod.fst written, seedless'⟩
  have rest : (convertBlock disctype files state).rest = state.rest.drop 33024 := rfl
  rw [rest, ahead, List.drop_left' (Buffer.length_bytes ..)]

theorem convertLoop_blocks
    (writes : ∀ content bytes, files.fwrite content bytes = (content ++ bytes, false))
    (blocks : List (Buffer × Buffer))
    (valid : ∀ block ∈ blocks, BlockValid (dataOffset disctype) block.1 block.2) (rounds : Nat)
    (state : Conversion) (seedless : Seedless state.u) (going : state.out = true)
    (ahead : state.rest = blocks.flatMap fun block => block.2.bytes 33024)
    (enough : state.rest.length ≤ rounds) :
    (convertLoop disctype files rounds state).out = true ∧
      (convertLoop disctype files rounds state).outfile =
        state.outfile ++ blocks.flatMap fun block => block.1.bytes 32768 := by
  induction blocks generalizing rounds state with
  | nil =>
      have ended : convertLoop disctype files rounds state = state := by
        cases rounds with
        | zero => rfl
        | succ rounds => rw [convertLoop, if_pos (.inl ahead)]
      rw [ended]
      exact ⟨going, (List.append_nil _).symm⟩
  | cons block blocks ih =>
      rw [List.flatMap_cons] at ahead
      have length : 33024 ≤ state.rest.length := by
        rw [ahead, List.length_append, Buffer.length_bytes]
        exact Nat.le_add_right _ _
      have nonempty : state.rest ≠ [] := fun empty => by
        rw [empty] at length
        exact absurd length (by decide)
      cases rounds with
      | zero => exact absurd (Nat.le_trans length enough) (by decide)
      | succ rounds =>
          obtain ⟨rest, success, outfile, seedless'⟩ :=
            convertBlock_block writes (valid block List.mem_cons_self) seedless ahead
          have continues : ¬ (state.rest = [] ∨ state.out = false) := by
            rintro (empty | failed)
            · exact nonempty empty
            · exact absurd (going.symm.trans failed) (by decide)
          have shorter : (convertBlock disctype files state).rest.length ≤ rounds := by
            have dropped : (convertBlock disctype files state).rest.length =
                state.rest.length - 33024 := List.length_drop
            rw [dropped]
            omega
          rw [convertLoop, if_neg continues]
          obtain ⟨done, written⟩ := ih (fun later member => valid later (List.mem_cons_of_mem _ member))
            rounds _ seedless' success rest shorter
          refine ⟨done, written.trans ?_⟩
          rw [outfile, List.flatMap_cons, List.append_assoc]

end File

/-- A raw dump converts to the dump of the data. -/
theorem unscrambleFile_rawDump {disctype : UInt8} (blocks : List (Buffer × Buffer))
    (dumped : ∀ block ∈ blocks, Dumpable disctype block.1 block.2) (memory : Unscrambler)
    (files : ConversionFiles)
    (input : files.infile = some (blocks.flatMap fun block => block.2.bytes 33024))
    (opens : files.outfileOpens = true)
    (writes : ∀ content bytes, files.fwrite content bytes = (content ++ bytes, false))
    (currentSector : UInt32) (bIn bOut : Buffer) :
    (unscramblerUnscrambleFile disctype (unscramblerNew memory) files currentSector bIn bOut).out =
        true ∧
      (unscramblerUnscrambleFile disctype (unscramblerNew memory) files currentSector bIn
        bOut).outfile = some (blocks.flatMap fun block => block.1.bytes 32768) := by
  obtain ⟨done, written⟩ := convertLoop_blocks writes blocks
    (fun block member => (dumped block member).blockValid) _
    { rest := blocks.flatMap fun block => block.2.bytes 33024, u := unscramblerNew memory, s := 0
      out := true, bIn := bIn, bOut := bOut, outfile := [], currentSector := currentSector }
    (unscramblerNew_seedless memory) rfl rfl (Nat.le_refl _)
  rw [unscramblerUnscrambleFile, input]
  dsimp only
  rw [if_pos opens]
  exact ⟨done, congrArg some written⟩

theorem unscrambleFile_rawDump_zero :
    ∃ data rawdata : Buffer, Dumpable 3 data rawdata ∧
      (unscramblerUnscrambleFile 3 (unscramblerNew ⟨fun _ => ⟨0, fun _ => 0⟩, false⟩)
          ⟨some (rawdata.bytes 33024 ++ []), true, fun content bytes => (content ++ bytes, false)⟩ 0
          (fun _ => 0) (fun _ => 0)).outfile = some (data.bytes 32768 ++ []) := by
  have accepted : (unscramblerUnscramble16sectors 3
      (unscramblerNew ⟨fun _ => ⟨0, fun _ => 0⟩, false⟩) 0 (scrambledBlock (fun _ _ => 0) 5#15)
      (fun _ => 0)).out = true := by
    rw [← Unscrambled.frame_out, unscramblerNew_direct]
    exact directFrame_scrambledBlock_out 3 _ (by decide) _
  have regular : (3 : UInt8) = 3 ↔ DiscType.dvd = .dvd := iff_of_true rfl rfl
  obtain ⟨data, rawdata, dumped⟩ : ∃ data rawdata, Dumpable 3 data rawdata :=
    ⟨_, _, @Dumpable.mk 3 _ 0 0 _ _ _ _
      { dvd := ⟨.hitachi, 2, 9, true⟩, type := .dvd, sectorsNo := 16, layerbreak := 0, secDisc := 16
        secMem := 16, maxCnt := 0, maxBlk := 1, readMethod := 9, unscrambling := true
        u := ⟨fun _ => ⟨0, fun _ => 0⟩, false⟩, cacheSize := 40, rawCache := fun _ _ => 0
        cache := fun _ _ => 0, cacheMap := fun _ => 0 }
      (.new _) regular accepted rfl⟩
  refine ⟨data, rawdata, dumped, ?_⟩
  exact (unscrambleFile_rawDump [(data, rawdata)] (List.forall_mem_singleton.mpr dumped)
    ⟨fun _ => ⟨0, fun _ => 0⟩, false⟩ _ rfl rfl (fun _ _ => rfl) 0 (fun _ => 0) (fun _ => 0)).2

end Friidump
