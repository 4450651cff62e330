import Friidump.DiscSetup
import Friidump.Theory.AppendStream

/-!
# Dumper

The output files, the sector to restart from, and the dump loop of `dumper.c`.
A hash is the bytes it has absorbed. The progress callback is left out.
-/

set_option autoImplicit false

namespace Friidump

open Theory (AppendStream WriteReply FlushReply)

/-- What a file name stands for: the bytes of the file, if there is one. -/
abbrev File := Option (List UInt8)

/-- The fields of a dumper that exist for both formats. `fp` is kept after `fclose`. -/
structure Output where
  outfile : Option File
  startSector : UInt32
  fp : Option (AppendStream UInt8)
  hash : List UInt8

structure Dumper where
  raw : Output
  iso : Output
  startSector : UInt32
  hashing : Bool
  flushing : Bool

/-- The assertions that end the program. -/
inductive DumperAbort
  | noOutput
  | hashing
  | reading (abort : Abort)
deriving DecidableEq, Repr

/-! ## How the calls on the files end -/

structure SetupReplies where
  fseek : UInt32 → Bool
  ftruncate : Nat → Bool

structure SectorReplies where
  rawWrite : WriteReply
  rawFlush : FlushReply
  isoWrite : WriteReply
  isoFlush : FlushReply

/-- Opening a file succeeds. The end of the program closes the files as `fclose` does. -/
structure Host where
  raw : SetupReplies
  iso : SetupReplies
  sector : UInt32 → SectorReplies
  rawClose : FlushReply
  isoClose : FlushReply

/-! ## Set-up -/

def dumperNew : Dumper :=
  let output : Output := { outfile := none, startSector := 0, fp := none, hash := [] }
  { raw := output, iso := output, startSector := 0, hashing := true, flushing := true }

def dumperSetHashing (dmp : Dumper) (h : Bool) : Dumper := { dmp with hashing := h }

def dumperSetFlushing (dmp : Dumper) (f : Bool) : Dumper := { dmp with flushing := f }

/-- The sector to start from is the first one of a block. -/
def Output.setOutputFile (o : Output) (sectorSize : Nat) (outfile : Option File) (resume : Bool) :
    Output × Bool :=
  match outfile with
  | none => ({ o with startSector := notGiven, outfile := none }, true)
  | some file =>
      if o.outfile.isSome then (o, false)
      else
        match file with
        | none => ({ o with startSector := 0, outfile := some none }, true)
        | some bytes =>
            if resume then
              ({ o with
                startSector := (bytes.length / sectorSize / 16).toUInt32 * 16
                outfile := some (some bytes) }, true)
            else ({ o with startSector := notGiven, outfile := none }, false)

def dumperSetRawOutputFile (dmp : Dumper) (outfileRaw : Option File) (resume : Bool) : Dumper × Bool :=
  let (raw, out) := dmp.raw.setOutputFile 2064 outfileRaw resume
  ({ dmp with raw := raw }, out)

def dumperSetIsoOutputFile (dmp : Dumper) (outfileIso : Option File) (resume : Bool) : Dumper × Bool :=
  let (iso, out) := dmp.iso.setOutputFile 2048 outfileIso resume
  ({ dmp with iso := iso }, out)

/-- The loop over `fread`, with the sectors left, the rest of the file, and the hash. -/
def hashExisting (sectorSize : Nat) : Nat → List UInt8 → List UInt8 → Option (List UInt8)
  | 0, _, hash => some hash
  | left + 1, rest, hash =>
      if rest.length < sectorSize then none
      else hashExisting sectorSize left (rest.drop sectorSize) (hash ++ rest.take sectorSize)

def resized (bytes : List UInt8) (length : Nat) : List UInt8 :=
  bytes.take length ++ List.replicate (length - bytes.length) 0

/-- The set-up of one output file, with the value it gives `out`. -/
def Output.prepare (o : Output) (sectorSize : Nat) (startSector : UInt32) (hashing : Bool)
    (replies : SetupReplies) : Output × Except DumperAbort (Option Bool) :=
  match o.outfile with
  | none => ({ o with fp := none }, .ok none)
  | some file =>
      let fp := AppendStream.opened (file.getD [])
      let hashed :=
        if hashing && 0 < startSector then
          hashExisting sectorSize startSector.toNat fp.file o.hash
        else some o.hash
      match hashed with
      | none => ({ o with fp := some fp }, .error .hashing)
      | some hash =>
          -- The offset is a product of 32 bits, the length one of 64.
          if replies.fseek (startSector * sectorSize.toUInt32) &&
              replies.ftruncate (startSector.toNat * sectorSize) then
            ({ o with
              fp := some (fp.resize (resized fp.file (startSector.toNat * sectorSize)))
              hash := hash }, .ok (some true))
          else ({ o with fp := none, hash := hash }, .ok (some false))

/-- With both outputs the smaller start sector counts. -/
def Dumper.chooseStart (dmp : Dumper) : Option UInt32 :=
  if dmp.raw.outfile.isSome ∧ dmp.iso.outfile.isSome ∧
      dmp.raw.startSector ≠ dmp.iso.startSector then
    some (if dmp.raw.startSector < dmp.iso.startSector then dmp.raw.startSector
      else dmp.iso.startSector)
  else if dmp.raw.outfile.isSome then some dmp.raw.startSector
  else if dmp.iso.outfile.isSome then some dmp.iso.startSector
  else none

def Dumper.initHashes (dmp : Dumper) : Dumper :=
  if dmp.hashing then
    { dmp with raw := { dmp.raw with hash := [] }, iso := { dmp.iso with hash := [] } }
  else dmp

/-- Both files are set up with one `out`, so that the second has the last word. -/
def Dumper.openOutputs (dmp : Dumper) (host : Host) : Dumper × Except DumperAbort Bool :=
  match dmp.raw.prepare 2064 dmp.startSector dmp.hashing host.raw with
  | (raw, .error abort) => ({ dmp with raw := raw }, .error abort)
  | (raw, .ok rawOut) =>
      match dmp.iso.prepare 2048 dmp.startSector dmp.hashing host.iso with
      | (iso, .error abort) => ({ dmp with raw := raw, iso := iso }, .error abort)
      | (iso, .ok isoOut) =>
          ({ dmp with raw := raw, iso := iso }, .ok ((isoOut <|> rawOut).getD false))

def dumperPrepare (dmp : Dumper) (host : Host) : Dumper × Except DumperAbort Bool :=
  match dmp.chooseStart with
  | none => (dmp, .error .noOutput)
  | some startSector => { dmp with startSector := startSector }.initHashes.openOutputs host

/-! ## The dump -/

/-- A sector goes to a file that is open, and into the hash while nothing has failed. -/
def Output.dumpSector (o : Output) (flushing hashing out : Bool) (buf : Option (List UInt8))
    (write : WriteReply) (flush : FlushReply) : Output × Bool :=
  match o.fp with
  | none => (o, out)
  | some fp =>
      let fp := fp.clearError
      let (fp, out) :=
        match buf with
        | none => (fp, false)
        | some bytes => (fp.write bytes write, out)
      let out := if fp.error then false else out
      let fp := if flushing then fp.flush flush else fp
      let hash := if hashing && out then o.hash ++ buf.getD [] else o.hash
      ({ o with fp := some fp, hash := hash }, out)

def Output.close (o : Output) (reply : FlushReply) : Output :=
  { o with fp := o.fp.map fun fp => fp.close reply }

/-- Where a dump has ended, with what `current_sector` points to. -/
structure DumpEnd (δ : Type) where
  dmp : Dumper
  source : δ
  out : Except DumperAbort Bool
  currentSector : UInt32

section Dump

variable {δ : Type} (readSector : UInt32 → δ → Except Abort (δ × SectorRead)) (host : Host)

/-- The loop over the sectors, with the rounds left. -/
def dumpLoop (currentSector : UInt32) : Nat → UInt32 → Dumper → δ → DumpEnd δ
  | 0, _, dmp, source =>
      { dmp := dmp, source := source, out := .ok true, currentSector := currentSector }
  | left + 1, i, dmp, source =>
      match readSector i source with
      | .error abort =>
          { dmp := dmp, source := source, out := .error (.reading abort)
            currentSector := currentSector }
      | .ok (source, read) =>
          let replies := host.sector i
          let (raw, out) := dmp.raw.dumpSector dmp.flushing dmp.hashing true
            (read.rawdata.map fun rawbuf => rawbuf.bytes 2064) replies.rawWrite replies.rawFlush
          let (iso, out) := dmp.iso.dumpSector dmp.flushing dmp.hashing out
            (read.data.map fun isobuf => isobuf.bytes 2048) replies.isoWrite replies.isoFlush
          let dmp := { dmp with raw := raw, iso := iso }
          if out then dumpLoop currentSector left (i + 1) dmp source
          else { dmp := dmp, source := source, out := .ok false, currentSector := i }

def dumperDump (sectorsNo : UInt32) (dmp : Dumper) (source : δ) (currentSector : UInt32) : DumpEnd δ :=
  let dumped := dumpLoop readSector host currentSector (sectorsNo.toNat - dmp.startSector.toNat)
    dmp.startSector dmp source
  { dumped with
    dmp := { dumped.dmp with
      raw := dumped.dmp.raw.close host.rawClose
      iso := dumped.dmp.iso.close host.isoClose } }

/-! ## A run of the program -/

structure Options where
  raw : Bool
  iso : Bool
  hashing : Bool
  flushing : Bool

structure Files where
  raw : File
  iso : File

/-- `dumper_prepare` and `dumper_dump`, and how the latter ended if it came so far. -/
def prepareAndDump (sectorsNo : UInt32) (dmp : Dumper) (source : δ) :
    Dumper × Option (Except DumperAbort Bool) :=
  match dumperPrepare dmp host with
  | (dmp, .error abort) => (dmp, some (.error abort))
  | (dmp, .ok false) => (dmp, none)
  | (dmp, .ok true) =>
      let dumped := dumperDump readSector host sectorsNo dmp source 0
      (dumped.dmp, some dumped.out)

/-- A run with `resume` set. -/
def dumperRun (sectorsNo : UInt32) (options : Options) (files : Files) (source : δ) :
    Dumper × Option (Except DumperAbort Bool) :=
  let dmp := dumperSetFlushing (dumperSetHashing dumperNew options.hashing) options.flushing
  match dumperSetRawOutputFile dmp (if options.raw then some files.raw else none) true with
  | (dmp, false) => (dmp, none)
  | (dmp, true) =>
      match dumperSetIsoOutputFile dmp (if options.iso then some files.iso else none) true with
      | (dmp, false) => (dmp, none)
      | (dmp, true) => prepareAndDump readSector host sectorsNo dmp source

end Dump

def discDump {σ : Type} (env : Env σ) (host : Host) (options : Options) (files : Files)
    (w : World σ) : Dumper × Option (Except DumperAbort Bool) :=
  dumperRun (fun i w => discReadSector env ⟨i, true, true⟩ w) host w.disc.sectorsNo options files w

end Friidump
