import Friidump.CheckedFiles
import Friidump.Program

/-!
# What a pass does to the disc

Between the detection of the disc type and the end of a pass the disc is only read, and
set to another mode. The detection does not touch the cache.
-/

set_option autoImplicit false

namespace Friidump

open Relation (ReflTransGen)

section Steps

variable {σ : Type} {env : Env σ} {w w' : World σ}

/-- A computation that comes to a result has come to one in each part. -/
theorem Except.bind_ok {ε α β : Type} {first : Except ε α} {rest : α → Except ε β} {result : β}
    (succeeded : first >>= rest = .ok result) : ∃ value, first = .ok value ∧ rest value = .ok result := by
  cases first with
  | error => cases succeeded
  | ok value => exact ⟨value, rfl, succeeded⟩

/-- The steps of `DiscStep` that leave the steps of a read in range. -/
inductive ReadingStep (env : Env σ) : World σ → World σ → Prop
  | read {w w' : World σ} {request : Request} {read : SectorRead}
      (returned : discReadSector env request w = .ok (w', read)) : ReadingStep env w w'
  | setUnscrambling (w : World σ) (unscramble : Bool) :
      ReadingStep env w (w.withDisc (discSetUnscrambling w.disc unscramble))
  | setBruteforce (w : World σ) (b : Bool) :
      ReadingStep env w (w.withDisc { w.disc with u := unscramblerSetBruteforce w.disc.u b })

theorem ReadingStep.discStep (step : ReadingStep env w w') : DiscStep env w w' := by
  cases step with
  | read returned => exact .read returned
  | setUnscrambling => exact .setUnscrambling _ _
  | setBruteforce => exact .setBruteforce _ _

theorem crackSeedsLoop_steps {left : Nat} {i : UInt32} (cracked : crackSeedsLoop env left i w = .ok w') :
    ReflTransGen (ReadingStep env) w w' := by
  induction left generalizing i w with
  | zero =>
      cases cracked
      exact .refl
  | succ left ih =>
      obtain ⟨⟨w₁, read⟩, returned, rest⟩ := Except.bind_ok cracked
      exact .head (.read returned) (ih rest)

theorem readUnscrambled_steps {sectorNo : UInt32} {read : SectorRead}
    (returned : readUnscrambled env sectorNo w = .ok (w', read)) : ReflTransGen (ReadingStep env) w w' := by
  obtain ⟨⟨w₁, read₁⟩, inner, rest⟩ := Except.bind_ok returned
  cases rest
  exact .head (.setUnscrambling w true) (.head (.read inner) (.single (.setUnscrambling _ _)))

theorem discAnalyze_steps {out : Bool} (analyzed : discAnalyze env w = .ok (w', out)) :
    ReflTransGen (ReadingStep env) w w' := by
  obtain ⟨⟨w₁, read⟩, returned, rest⟩ := Except.bind_ok analyzed
  cases rest
  exact readUnscrambled_steps returned

theorem discCheckUpdate_steps (checked : discCheckUpdate env w = .ok w') :
    ReflTransGen (ReadingStep env) w w' := by
  unfold discCheckUpdate at checked
  split at checked
  · obtain ⟨⟨w₁, read⟩, returned, rest⟩ := Except.bind_ok checked
    cases rest
    exact readUnscrambled_steps returned
  · cases checked
    exact .refl

/-- The disc as `disc_init` has it before it reads any sector. -/
def discDetected (env : Env σ) (disctype sectorsNo : UInt32) (w : World σ) : World σ :=
  discDetectType env disctype sectorsNo (w.withDisc { w.disc with sectorsNo := 1000 })

theorem discInit_steps {disctype sectorsNo : UInt32} {out : Bool}
    (initialized : discInit env disctype sectorsNo w = .ok (w', out)) :
    ReflTransGen (ReadingStep env) (discDetected env disctype sectorsNo w) w' := by
  obtain ⟨w₁, cracked, rest⟩ := Except.bind_ok initialized
  have start := (crackSeedsLoop_steps cracked).tail (.setBruteforce w₁ true)
  dsimp only at rest
  split at rest
  · cases rest
    exact start
  · obtain ⟨⟨w₂, analyzed⟩, returned, rest⟩ := Except.bind_ok rest
    have read := start.trans (discAnalyze_steps returned)
    cases analyzed with
    | false =>
        cases rest
        exact read
    | true =>
        obtain ⟨w₃, checked, rest⟩ := Except.bind_ok rest
        cases rest
        exact read.trans (discCheckUpdate_steps checked)

theorem dumpLoop_steps {host : Host} {currentSector i : UInt32} {left : Nat} {dmp : Dumper} :
    ReflTransGen (DiscStep env) w
      (dumpLoop (fun i w => discReadSector env ⟨i, true, true⟩ w) host currentSector left i dmp
        w).source := by
  induction left generalizing i dmp w with
  | zero => exact .refl
  | succ left ih =>
      cases ok : discReadSector env ⟨i, true, true⟩ w with
      | error abort =>
          rw [dumpLoop, ok]
      | ok result =>
          rw [dumpLoop, ok]
          dsimp only
          split
          · exact .head (.read ok) ih
          · exact .single (.read ok)

/-! ## The mode -/

/-- The mode of the unscrambler, the type of the disc, and the drive stay as they are. -/
structure SameMode (w w' : World σ) : Prop where
  disctype : w'.disctype = w.disctype
  type : w'.disc.type = w.disc.type
  dvd : w'.disc.dvd = w.disc.dvd
  sectorsNo : w'.disc.sectorsNo = w.disc.sectorsNo

theorem DiscStep.sameMode (step : DiscStep env w w') (formed : SeedsWellFormed w.disc.u) :
    SameMode w w' := by
  cases step with
  | read returned =>
      have kept := discReadSector_extends formed returned
      exact ⟨kept.disctype, by rw [kept.disc], by rw [kept.disc], by rw [kept.disc]⟩
  | initRange | setReadMethod | setUnscrambling | setBruteforce => exact ⟨rfl, rfl, rfl, rfl⟩

theorem run_sameMode (sound : CacheSound w) (run : ReflTransGen (DiscStep env) w w') :
    SameMode w w' := by
  induction run with
  | refl => exact ⟨rfl, rfl, rfl, rfl⟩
  | tail before step ih =>
      have last := step.sameMode (run_sound sound before).formed
      exact ⟨last.disctype.trans ih.disctype, last.type.trans ih.type, last.dvd.trans ih.dvd,
        last.sectorsNo.trans ih.sectorsNo⟩

/-- The type of the disc has been settled. Only the drive has been asked for it. -/
structure Detected (disctype : UInt32) (w w' : World σ) : Prop where
  outcome : ∃ drive type sectorsNo layerbreak, w' = (w.withDrive drive).withDisc
    { w.disc with type := type, sectorsNo := sectorsNo, layerbreak := layerbreak }
  dvd : w'.disc.type = .dvd ↔ disctype = 3

theorem discDetected_outcome (env : Env σ) (disctype sectorsNo : UInt32) (w : World σ) :
    Detected disctype w (discDetected env disctype sectorsNo w) := by
  have sized : ∀ w', Detected disctype w w' → Detected disctype w
      (if sectorsNo ≠ notGiven then w'.withDisc { w'.disc with sectorsNo := sectorsNo } else w') := by
    rintro _ ⟨⟨drive, type, before, layerbreak, rfl⟩, dvd⟩
    split
    · exact ⟨⟨drive, type, sectorsNo, layerbreak, rfl⟩, dvd⟩
    · exact ⟨⟨drive, type, before, layerbreak, rfl⟩, dvd⟩
  refine sized _ ?_
  by_cases gamecube : disctype = 0
  · subst gamecube
    exact ⟨⟨_, .gamecube, _, _, rfl⟩, iff_of_false nofun (by decide)⟩
  by_cases wii : disctype = 1
  · subst wii
    exact ⟨⟨_, .wii, _, _, rfl⟩, iff_of_false nofun (by decide)⟩
  by_cases wiiDl : disctype = 2
  · subst wiiDl
    exact ⟨⟨_, .wiiDl, _, _, rfl⟩, iff_of_false nofun (by decide)⟩
  by_cases dvd : disctype = 3
  · subst dvd
    by_cases given : sectorsNo = notGiven
    · subst given
      exact ⟨⟨_, .dvd, _, _, rfl⟩, iff_of_true rfl rfl⟩
    · simp only [given, if_false]
      exact ⟨⟨_, .dvd, _, _, rfl⟩, iff_of_true rfl rfl⟩
  · rw [if_neg gamecube, if_neg wii, if_neg wiiDl, if_neg dvd]
    dsimp only
    split
    · exact ⟨⟨_, .gamecube, _, _, rfl⟩, iff_of_false nofun dvd⟩
    · split
      · exact ⟨⟨_, .wii, _, _, rfl⟩, iff_of_false nofun dvd⟩
      · exact ⟨⟨_, .wiiDl, _, _, rfl⟩, iff_of_false nofun dvd⟩

end Steps

end Friidump
