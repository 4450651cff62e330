import Friidump.DumpIntegrity

/-!
# The program

The passes of `friidump.c` over a drive: a single one, or with `-A` one for each command
and each read method, on one disc. What is printed is left out, and so is the title of
the disc, which gives the ISO file of `-a` its name.
-/

set_option autoImplicit false

namespace Friidump

/-! ## Settings of the drive -/

section Commands

variable {σ : Type} (env : Env σ) (drive : σ)

def dvdStopUnit (start : Bool) : Executed σ :=
  let cmd := [0x1B, 0, 0, 0, if start then 1 else 0, 0, 0, 0, 0, 0, 0, 0]
  dvdExecuteCmd env drive (dvdInitCommand cmd (env.stack drive 0) 0) true

def dvdSetSpeed (speed : UInt32) : Executed σ :=
  let cmd := [0xBB, 0] ++ (msbToLsb speed).drop 2 ++ [0, 0, 0, 0, 0, 0, 0, 0]
  dvdExecuteCmd env drive (dvdInitCommand cmd (env.stack drive 0) 0) true

/-- The 28 bytes are a performance descriptor, which is to go to the drive. -/
def dvdSetStreaming (speed : UInt32) : Executed σ :=
  let mmc := dvdInitCommand [0xB6, 0, 0, 0, 0, 0, 0, 0, 0, 0, 28, 0] (env.stack drive 0) 28
  let descriptor := [0, 0, 0, 0, 0, 0, 0, 0, 0xff, 0xff, 0xff, 0xff] ++ msbToLsb speed ++
    msbToLsb 1000 ++ msbToLsb speed ++ msbToLsb 1000
  dvdExecuteCmd env drive { mmc with buffer := mmc.buffer.memcpy 0 (.ofBytes descriptor) 28 } true

end Commands

section Settings

variable {σ : Type} (env : Env σ) (w : World σ)

def discStopUnit (start : Bool) : World σ × Bool :=
  let executed := dvdStopUnit env w.drive start
  (w.withDrive executed.drive, executed.out = 0)

def discSetSpeed (speed : UInt32) : World σ :=
  if speed ≠ notGiven then w.withDrive (dvdSetSpeed env w.drive speed).drive else w

def discSetStreamingSpeed (speed : UInt32) : World σ :=
  if speed ≠ notGiven then w.withDrive (dvdSetStreaming env w.drive speed).drive else w

end Settings

/-- The values of `disc_type`, which the unscrambler takes for its own. -/
def DiscType.value : DiscType → UInt8
  | .gamecube => 0
  | .wii => 1
  | .wiiDl => 2
  | .dvd => 3

def unscramblerSetDisctype {σ : Type} (w : World σ) (disctype : UInt8) : World σ :=
  { w with disctype := disctype }

/-! ## Passes -/

/-- The options that a pass looks at. For `rawOut` and `isoOut` they say whether there is a name. -/
structure ProgramOptions where
  autodump : Bool
  rawOut : Bool
  isoOut : Bool
  resume : Bool
  dumpMethod : Int
  sectorsNo : UInt32
  speed : UInt32
  disctype : UInt32
  secDisc : UInt32
  secMem : UInt32
  noHashing : Bool
  noUnscrambling : Bool
  noFlushing : Bool
  stopUnit : Bool
  allmethods : Bool

/-- What a pass leaves to `dumper_new` and the functions that set the dumper up. With `-a` the
title names the ISO file. -/
def ProgramOptions.outputs (options : ProgramOptions) : Options where
  raw := options.rawOut
  iso := options.isoOut || options.autodump
  hashing := !options.noHashing
  flushing := !options.noFlushing

/-- The ways a pass can end. Nothing sets `out` if there was nothing to dump to. -/
inductive PassEnd
  | exited
  | aborted (abort : DumperAbort)
  | returned (out : Option Bool)
deriving DecidableEq, Repr

structure Pass (σ : Type) where
  before : Files
  dmp : Option HashedDumper
  world : World σ
  ending : PassEnd

/-- A way to run `dumper_dump`. -/
abbrev DumpFunc (σ : Type) := Host → HashedDumper → World σ → HashedEnd σ

/-- The dump as the program has it. Where `current_sector` points to makes no difference. -/
def hashingDump {σ : Type} (env : Env σ) : DumpFunc σ := fun host dmp w => hashedDump env host dmp w 0

section Passes

variable {σ : Type} (env : Env σ) (dump : DumpFunc σ) (host : Host) (options : ProgramOptions)

/-- What happens to the drive and the disc before `disc_init`. -/
def beforeInit (w : World σ) : World σ :=
  let w := (discStopUnit env w true).1
  let w := w.withDisc (initRange w.disc options.secDisc options.secMem)
  let w := w.withDisc (discSetReadMethod w.disc options.dumpMethod)
  if options.speed ≠ notGiven then
    discSetStreamingSpeed env (discSetSpeed env w (options.speed * 177)) (options.speed * 177)
  else w

/-- What happens to them after it. -/
def afterInit (w : World σ) : World σ :=
  let w := w.withDisc (discSetUnscrambling w.disc (!options.noUnscrambling))
  let w := unscramblerSetDisctype w w.disc.type.value
  if options.speed ≠ notGiven then
    discSetSpeed env (discSetStreamingSpeed env w (options.speed * 177)) (options.speed * 177)
  else w

/-- The end of a pass that has dumped. After a success the drive is stopped. -/
def Pass.ofDump (files : Files) (dumped : HashedEnd σ) : Pass σ :=
  match dumped.out with
  | .error abort =>
      { before := files, dmp := some dumped.dmp, world := dumped.world, ending := .aborted abort }
  | .ok true =>
      { before := files, dmp := some dumped.dmp, world := (discStopUnit env dumped.world false).1
        ending := .returned (some true) }
  | .ok false =>
      { before := files, dmp := some dumped.dmp, world := dumped.world
        ending := .returned (some false) }

/-- The part of a pass that has a dumper. -/
def dumpOutputs (files : Files) (w : World σ) : Pass σ :=
  match dumperSetOutputFiles options.outputs files options.resume with
  | none => { before := files, dmp := none, world := w, ending := .returned none }
  | some dmp =>
      match hashedPrepare { files := dmp, rawSha1 := .zero, isoSha1 := .zero } host with
      | (dmp, .error abort) =>
          { before := files, dmp := some dmp, world := w, ending := .aborted abort }
      | (dmp, .ok false) =>
          { before := files, dmp := some dmp, world := w, ending := .returned none }
      | (dmp, .ok true) => Pass.ofDump env files (dump host dmp w)

def dologic (files : Files) (w : World σ) : Pass σ :=
  if options.stopUnit then
    { before := files, dmp := none, world := (discStopUnit env w false).1, ending := .exited }
  else
    match discInit env options.disctype options.sectorsNo (beforeInit env options w) with
    | .error abort =>
        { before := files, dmp := none, world := w, ending := .aborted (.reading abort) }
    | .ok (w, false) => { before := files, dmp := none, world := w, ending := .returned (some false) }
    | .ok (w, true) =>
        let w := afterInit env options w
        if options.rawOut || options.isoOut || options.autodump then
          dumpOutputs env dump host options files w
        else { before := files, dmp := none, world := w, ending := .returned none }

end Passes

/-! ## What a pass leaves -/

/-- The file of an output that was opened, or the one there was before. -/
def Output.fileAfter (o : Output) (before : File) : File :=
  match o.fp with
  | some fp => some fp.file
  | none => if o.outfile.isSome then some (before.getD []) else before

section Main

variable {σ : Type}

def Pass.after (pass : Pass σ) : Files :=
  match pass.dmp with
  | none => pass.before
  | some dmp =>
      { raw := dmp.files.raw.fileAfter pass.before.raw
        iso := dmp.files.iso.fileAfter pass.before.iso }

/-- The value of `out` that `main` goes by. `stack` is what it is where nothing sets it. -/
def Pass.out (pass : Pass σ) (stack : Bool) : Option Bool :=
  match pass.ending with
  | .returned out => some (out.getD stack)
  | _ => none

/-- What the program cannot know of a pass: how the calls on the files end, and whether the
place of `out` on the stack holds `true`. -/
structure Surroundings where
  host : Host
  stack : Bool

variable (env : Env σ) (dump : DumpFunc σ) (options : ProgramOptions)
  (surroundings : Nat → Surroundings)

/-- The loops over commands and methods, with the methods left. The command is not passed on. -/
def passesFrom : List Int → Nat → Files → World σ → List (Pass σ)
  | [], _, _, _ => []
  | method :: methods, n, files, w =>
      let pass := dologic env dump (surroundings n).host { options with dumpMethod := method } files w
      pass :: match pass.out (surroundings n).stack with
        | some false => passesFrom methods (n + 1) pass.after pass.world
        | _ => []

/-- The methods in the order that `main` comes to them. -/
def ProgramOptions.methods (options : ProgramOptions) : List Int :=
  if options.allmethods then
    (List.range 5).flatMap fun _ => (List.range 10).map fun method => (method : Int)
  else [options.dumpMethod]

/-- The passes that `main` makes over the disc it has opened. -/
def dumpPasses (files : Files) (w : World σ) : List (Pass σ) :=
  passesFrom env dump options surroundings options.methods 0 files w

end Main

/-- What `optparse` makes of `-T`, with the value that the unscrambler has if it is not given. -/
def forcedDisctype (disctype : UInt32) : UInt8 :=
  if disctype = notGiven then 0 else disctype.toUInt8

end Friidump
