import Friidump.DiscReadMethods

/-!
# Setting up a disc

Creation, ranges, read method, detection of the type, and the reads that
`disc_init` makes. The identification strings of `disc_analyze` are left out.
-/

set_option autoImplicit false

namespace Friidump

/-- `(u_int32_t) -1`, which stands for a value the user did not give. -/
def notGiven : UInt32 := 0xFFFFFFFF

def initRange (d : Disc) (secDisc secMem : UInt32) : Disc :=
  { d with
    secDisc := if 1 ≤ secDisc ∧ secDisc ≤ 100 then secDisc else notGiven
    secMem := if 16 ≤ secMem ∧ secMem ≤ 100 then secMem else notGiven }

/-- The loop `while (1==1)` of `disc_set_read_method`, with a bound on its rounds. -/
def countDeviations (deviation : UInt32) : Nat → UInt32 → UInt32 → Option UInt32
  | 0, _, _ => none
  | rounds + 1, cnt1, counter =>
      let cnt1 := cnt1 + deviation
      let counter := counter + 1
      if cnt1 % 16 ≤ 1 then some counter else countDeviations deviation rounds cnt1 counter

/-- Sixteen rounds are enough for every deviation there is. -/
theorem countDeviations_terminates : ∀ deviation : Fin 16, 3 < deviation.val →
    (countDeviations deviation.val.toUInt32 16 deviation.val.toUInt32 0).isSome = true := by
  decide

/-- `max_cnt`, the rounds after the first one until the sectors read are (nearly) whole blocks. -/
def maxCntOf (secMem : UInt32) : UInt32 :=
  let deviation := secMem % 16
  if 3 < deviation then (countDeviations deviation 16 deviation 0).getD 0 else 0

/-- `max_blk`, the whole blocks among the sectors read. -/
def maxBlkOf (secMem maxCnt : UInt32) : UInt32 :=
  (secMem * (maxCnt + 1) - secMem * (maxCnt + 1) % 16) / 16

def discSetReadMethod (d : Disc) (method : Int) : Disc :=
  let readMethod :=
    if 0 ≤ method ∧ method ≤ 9 then method
    else if d.dvd.defMethod ≤ 9 then d.dvd.defMethod.toNat
    else 0
  let streaming := readMethod = 4 ∨ readMethod = 5 ∨ readMethod = 6
  let secDisc := if d.secDisc = notGiven then if streaming then 27 else 16 else d.secDisc
  let secMem := if d.secMem = notGiven then if streaming then 27 else 16 else d.secMem
  { d with
    readMethod := readMethod
    secDisc := secDisc
    secMem := secMem
    maxCnt := maxCntOf secMem
    maxBlk := maxBlkOf secMem (maxCntOf secMem) }

def discSetUnscrambling (d : Disc) (unscramble : Bool) : Disc := { d with unscrambling := unscramble }

/-- Below the minimum size of 5 blocks the program exits. -/
def discCacheInit (d : Disc) (size : UInt32) (memory rawMemory : Nat → Buffer) : Option Disc :=
  if size < 5 then none
  else some { d with
    cacheSize := size
    cache := memory
    rawCache := rawMemory
    cacheMap := fun _ => cacheEntryInvalid }

/-- `memory`, `rawMemory` and `unscramblerMemory` are what `malloc` returned. -/
def discNew (dvd : DvdDrive) (memory rawMemory : Nat → Buffer) (unscramblerMemory : Unscrambler) :
    Option Disc :=
  let d : Disc :=
    { dvd := dvd, type := .gamecube, sectorsNo := 0, layerbreak := 0, secDisc := 0, secMem := 0
      maxCnt := 0, maxBlk := 0, readMethod := 0, unscrambling := false
      u := unscramblerNew unscramblerMemory, cacheSize := 0, rawCache := fun _ _ => 0
      cache := fun _ _ => 0, cacheMap := fun _ => 0 }
  discCacheInit (discSetReadMethod (discSetUnscrambling d true) 0) 40 memory rawMemory

section Setup

variable {σ : Type} (env : Env σ)

def World.withDisc (w : World σ) (disc : Disc) : World σ := { w with disc := disc }

/-- A sector number beyond the end of a disc type is refused with this sense. -/
def beyondEnd (executed : Executed σ) : Bool :=
  executed.out = 0 && executed.sense.senseKey = 0x05 && executed.sense.asc = 0x21

def discDetectType (forcedType sectorsNo : UInt32) (w : World σ) : World σ :=
  let w :=
    if forcedType = 0 then w.withDisc { w.disc with type := .gamecube, sectorsNo := 0x0AE0B0 }
    else if forcedType = 1 then w.withDisc { w.disc with type := .wii, sectorsNo := 0x230480 }
    else if forcedType = 2 then w.withDisc { w.disc with type := .wiiDl, sectorsNo := 0x3F69C0 }
    else if forcedType = 3 then
      let w := w.withDisc { w.disc with type := .dvd }
      let w :=
        if sectorsNo = notGiven then
          let (drive, size) := dvdGetSize env w.drive w.disc.sectorsNo
          (w.withDrive drive).withDisc { w.disc with sectorsNo := size }
        else w
      let (drive, layerbreak) := dvdGetLayerbreak env w.drive w.disc.layerbreak
      (w.withDrive drive).withDisc { w.disc with layerbreak := layerbreak }
    else
      let executed := dvdReadSectorDummy env w.drive (0x0AE0B0 + 100) 16 none
      let w := w.withDrive executed.drive
      if beyondEnd executed then
        w.withDisc { w.disc with type := .gamecube, sectorsNo := 0x0AE0B0 }
      else
        let executed := dvdReadSectorDummy env w.drive (0x230480 + 100) 16 none
        let w := w.withDrive executed.drive
        if beyondEnd executed then
          w.withDisc { w.disc with type := .wii, sectorsNo := 0x230480 }
        else w.withDisc { w.disc with type := .wiiDl, sectorsNo := 0x3F69C0 }
  if sectorsNo ≠ notGiven then w.withDisc { w.disc with sectorsNo := sectorsNo } else w

/-- The loop of `disc_crack_seeds`, with the rounds left. Failed reads are ignored. -/
def crackSeedsLoop : Nat → UInt32 → World σ → Except Abort (World σ)
  | 0, _, w => .ok w
  | left + 1, i, w => do
      let (w, _) ← discReadSector env { sectorNo := i, wantData := false, wantRawdata := false } w
      crackSeedsLoop left (i + 16) w

def discCrackSeeds (w : World σ) : Except Abort (World σ) := crackSeedsLoop env 20 0 w

/-- A read with unscrambling forced on, as `disc_analyze` and `disc_check_update` make it. -/
def readUnscrambled (sectorNo : UInt32) (w : World σ) : Except Abort (World σ × SectorRead) := do
  let old := w.disc.unscrambling
  let w := w.withDisc (discSetUnscrambling w.disc true)
  let (w, read) ← discReadSector env { sectorNo := sectorNo, wantData := true, wantRawdata := false } w
  return (w.withDisc (discSetUnscrambling w.disc old), read)

def discAnalyze (w : World σ) : Except Abort (World σ × Bool) := do
  let (w, read) ← readUnscrambled env 0 w
  return (w, read.out)

/-- The update flag the sector holds is left out. -/
def discCheckUpdate (w : World σ) : Except Abort (World σ) := do
  if w.disc.type = .wii ∨ w.disc.type = .wiiDl then
    let (w, _) ← readUnscrambled env 160 w
    return w
  else return w

def discInit (disctype sectorsNo : UInt32) (w : World σ) : Except Abort (World σ × Bool) := do
  let w := w.withDisc { w.disc with sectorsNo := 1000 }
  let w := discDetectType env disctype sectorsNo w
  let w ← discCrackSeeds env w
  let w := w.withDisc { w.disc with u := unscramblerSetBruteforce w.disc.u true }
  if w.disc.type = .dvd then return (w, true)
  else
    let (w, analyzed) ← discAnalyze env w
    if analyzed then
      let w ← discCheckUpdate env w
      return (w, true)
    else return (w, false)

end Setup

end Friidump
