import Friidump.MemoryBounds
import Friidump.CacheAssertion

/-!
# The arrays of methods 7 to 9

Five blocks as they are on the disc, five unscrambled ones, the user data of one, and the 16
bytes of a check field and the header behind it.
-/

set_option autoImplicit false

namespace Friidump

open Relation (ReflTransGen)

section Reading

variable {σ : Type} {env : Env σ} {w w' : World σ} {arrays arrays' arrays'' : Locals}

/-- The memory behind the arrays is as it was. -/
structure Locals.Within (arrays arrays' : Locals) : Prop where
  buf : arrays.buf.SameFrom (5 * 33024) arrays'.buf
  bufUnscrambled : arrays.bufUnscrambled.SameFrom (5 * 32768) arrays'.bufUnscrambled
  readbuf : arrays.readbuf.SameFrom 32768 arrays'.readbuf
  tmp : arrays.tmp.SameFrom 16 arrays'.tmp

theorem Locals.Within.refl (arrays : Locals) : arrays.Within arrays :=
  ⟨.refl _ _, .refl _ _, .refl _ _, .refl _ _⟩

theorem Locals.Within.trans (first : arrays.Within arrays') (second : arrays'.Within arrays'') :
    arrays.Within arrays'' where
  buf := first.buf.trans second.buf
  bufUnscrambled := first.bufUnscrambled.trans second.bufUnscrambled
  readbuf := first.readbuf.trans second.readbuf
  tmp := first.tmp.trans second.tmp

theorem Locals.Within.withBuf {buf : Buffer} (same : arrays.buf.SameFrom (5 * 33024) buf) :
    arrays.Within { arrays with buf := buf } :=
  { Locals.Within.refl arrays with buf := same }

theorem Locals.Within.withReadbuf {readbuf : Buffer} (same : arrays.readbuf.SameFrom 32768 readbuf) :
    arrays.Within { arrays with readbuf := readbuf } :=
  { Locals.Within.refl arrays with readbuf := same }

theorem Locals.Within.withTmp {tmp : Buffer} (same : arrays.tmp.SameFrom 16 tmp) :
    arrays.Within { arrays with tmp := tmp } :=
  { Locals.Within.refl arrays with tmp := same }

/-- The same as `Confines`, with the automatic arrays beside the state. -/
def ConfinesLocals (env : Env σ) (state state' : World σ × Locals) : Prop :=
  Confines env state.1 state'.1 ∧ (Sized state.1 → state.2.Within state'.2)

theorem ConfinesLocals.refl (state : World σ × Locals) : ConfinesLocals env state state :=
  ⟨.refl _, fun _ => .refl _⟩

theorem ConfinesLocals.trans {state state' state'' : World σ × Locals}
    (first : ConfinesLocals env state state') (second : ConfinesLocals env state' state'') :
    ConfinesLocals env state state'' :=
  ⟨first.1.trans second.1, fun sized => (first.2 sized).trans (second.2 (first.1 sized).2)⟩

theorem ConfinesLocals.ofWorld (confines : Confines env w w') (arrays : Locals) :
    ConfinesLocals env (w, arrays) (w', arrays) :=
  ⟨confines, fun _ => .refl arrays⟩

theorem ConfinesLocals.ofArrays (w : World σ) (within : arrays.Within arrays') :
    ConfinesLocals env (w, arrays) (w, arrays') :=
  ⟨.refl w, fun _ => within⟩

/-! ## One block -/

theorem dumpLocal_confines (offset : UInt32) {size : UInt32} (whole : WholeOrPart size) {sect : Nat}
    (inside : sect + size.toNat ≤ 5 * 33024) (w : World σ) (arrays : Locals) :
    let dumped := dvdMemdump env w.disc.dvd.memdump w.drive offset 1 size (arrays.buf.advance sect)
    ConfinesLocals env (w, arrays)
      (w.withDrive dumped.drive, { arrays with buf := arrays.buf.splice sect dumped.buf }) := by
  intro dumped
  have within : DumpedWithin env w.disc.dvd.memdump size.toNat w.drive (arrays.buf.advance sect) dumped :=
    dvdMemdump_within _ _ whole _
  exact ⟨.withDrive within.commands, fun _ => .withBuf (within.buf.splice inside)⟩

theorem unscrambleLocal_confines (sectorNo : UInt32) {j : Nat} (early : j < 5) (w : World σ)
    (arrays : Locals) :
    ConfinesLocals env (w, arrays)
      ((unscrambleLocal sectorNo j w arrays).1, (unscrambleLocal sectorNo j w arrays).2.1) := by
  refine ⟨unscrambleAt_confines w _ _ _ _, fun sized => ?_⟩
  have written := @unscrambleAt_sameFrom _ w (sectorNo + j.toUInt32 * 16) j arrays.buf
    arrays.bufUnscrambled sized.formed
  exact { Locals.Within.refl arrays with
    buf := written.1.mono (Nat.mul_le_mul_right _ early)
    bufUnscrambled := written.2.mono (Nat.mul_le_mul_right _ early) }

theorem cacheLocals_confines (sectorNo : UInt32) {left j : Nat} (few : j + left ≤ 5) (w : World σ)
    (arrays : Locals) : ConfinesLocals env (w, arrays) (cacheLocals sectorNo left j w arrays) := by
  induction left generalizing j w arrays with
  | zero => exact .refl _
  | succ left ih =>
      rw [cacheLocals]
      split
      · have written : arrays.buf.SameFrom ((j + 1) * 33024)
            (w.cacheBlockAt (sectorNo / 16 + j.toUInt32) j arrays.buf arrays.bufUnscrambled).2 :=
          fun _ behind => cacheBlockAt_beyond w _ j _ _ behind
        have cached : ConfinesLocals env (w, arrays) _ :=
          (ConfinesLocals.ofWorld (cacheBlock_confines w (sectorNo / 16 + j.toUInt32)
            (arrays.bufUnscrambled.advance (j * 32768)) (arrays.buf.advance (j * 33024))) arrays).trans
              (.ofArrays _ (.withBuf (written.mono (Nat.mul_le_mul_right _ (by omega)))))
        exact cached.trans (ih (by omega) _ _)
      · exact .refl _

/-! ## Method 7 -/

theorem dumpBlocks_confines (sectorNo : UInt32) {left j : Nat} (few : j + left ≤ 5) (w : World σ)
    (arrays : Locals) : ConfinesLocals env (w, arrays) (dumpBlocks env sectorNo left j w arrays).1 := by
  induction left generalizing j w arrays with
  | zero => exact .refl _
  | succ left ih =>
      have inside : j * 33024 + (33024 : UInt32).toNat ≤ 5 * 33024 := by
        simp only [UInt32.reduceToNat]
        omega
      have dumped : ConfinesLocals env (w, arrays) _ :=
        dumpLocal_confines (j * 33024).toUInt32 (.inl ⟨16, rfl⟩) inside w arrays
      rw [dumpBlocks]
      split
      · extract_lets block driven spliced
        have here : ConfinesLocals env (w, arrays) (driven, spliced) := dumped
        split
        · exact here
        · have unscrambled : ConfinesLocals env (driven, spliced) _ :=
            unscrambleLocal_confines sectorNo (by omega : j < 5) driven spliced
          rcases result : unscrambleLocal sectorNo j driven spliced with ⟨w₁, arrays₁, success⟩
          rw [result] at unscrambled
          cases success with
          | true => exact (here.trans unscrambled).trans (ih (by omega) _ _)
          | false => exact here.trans unscrambled
      · exact .refl _

theorem retried_confines (w : World σ) (sectorNo : UInt32) (retry : Nat) :
    Confines env w (if 0 < retry then readDistant env w sectorNo else w) := by
  split
  · exact readDistant_confines w sectorNo
  · exact .refl w

theorem attempt7_confines (sectorNo : UInt32) (retry : Nat) (state : World σ × Locals) :
    ConfinesLocals env state (attempt7 env sectorNo retry state).1 := by
  obtain ⟨w, arrays⟩ := state
  have retried : Confines env w _ := retried_confines w sectorNo retry
  unfold attempt7
  extract_lets distant executed driven
  have read : Confines env w driven :=
    retried.trans (.withDrive (dvdReadSectorStreaming_issued _ none nofun))
  have before : ConfinesLocals env (w, arrays) (driven, arrays) := .ofWorld read arrays
  split
  · have dumped : ConfinesLocals env (driven, arrays) _ :=
      dumpBlocks_confines sectorNo (by decide : 0 + 5 ≤ 5) driven arrays
    rcases result : dumpBlocks env sectorNo 5 0 driven arrays with ⟨⟨w₁, arrays₁⟩, success, stop⟩
    rw [result] at dumped
    cases success with
    | true => exact (before.trans dumped).trans (cacheLocals_confines sectorNo (by decide) w₁ arrays₁)
    | false => exact before.trans dumped
  · exact before

/-! ## Methods 8 and 9 -/

theorem sector_inside {j k : Nat} (early : j < 5) (earlier : k < 16) :
    j * 33024 + k * 2064 + 2064 ≤ 5 * 33024 := by omega

theorem check_inside {j k : Nat} (early : j < 5) (earlier : k < 16) :
    j * 33024 + k * 2064 + 2060 + 4 ≤ 5 * 33024 :=
  Nat.le_trans (Nat.le_of_eq (Nat.add_assoc _ 2060 4)) (sector_inside early earlier)

theorem header_inside {j k : Nat} (early : j < 5) (earlier : k < 16) :
    j * 33024 + k * 2064 + 12 ≤ 5 * 33024 :=
  Nat.le_trans (Nat.add_le_add_left (by decide) _) (sector_inside early earlier)

theorem dumpHeaders8_confines {j left k : Nat} (early : j < 5) (few : k + left ≤ 16) (w : World σ)
    (arrays : Locals) (out stop : Bool) :
    ConfinesLocals env (w, arrays) (dumpHeaders8 env j left k w arrays out stop).1 := by
  induction left generalizing k w arrays out stop with
  | zero => exact .refl _
  | succ left ih =>
      have earlier : k < 16 := by omega
      have first := @dumpLocal_confines _ env (j * 33024 + k * 2064).toUInt32 12 (.inr (by decide)) _
        (header_inside early earlier) w arrays
      rw [dumpHeaders8]
      dsimp only
      split
      · exact first.trans (ih (by omega) _ _ _ _)
      · have second := @dumpLocal_confines _ env ((j * 33024 + k * 2064).toUInt32 + 2060) 4
          (.inr (by decide)) _ (check_inside early earlier)
        exact (first.trans (second _ _)).trans (ih (by omega) _ _ _ _)

theorem dumpHeader9_confines {j k : Nat} (early : j < 5) (earlier : k < 16) (w : World σ)
    (arrays : Locals) (out stop : Bool) :
    ConfinesLocals env (w, arrays)
      ((dumpHeader9 env j k w arrays out stop).1, (dumpHeader9 env j k w arrays out stop).2.1) := by
  have dumped := @dumpLocal_confines _ env (j * 33024 + k * 2064).toUInt32 12 (.inr (by decide)) _
    (header_inside early earlier) w arrays
  unfold dumpHeader9
  dsimp only
  split
  · split <;> exact dumped
  · exact .ofArrays w (.withBuf (.memcpy _ _ (header_inside early earlier)))

theorem dumpHeaders9_confines {j left k : Nat} (early : j < 5) (few : k + left ≤ 16) (w : World σ)
    (arrays : Locals) (out stop : Bool) :
    ConfinesLocals env (w, arrays) (dumpHeaders9 env j left k w arrays out stop).1 := by
  induction left generalizing k w arrays out stop with
  | zero => exact .refl _
  | succ left ih =>
      have earlier : k < 16 := by omega
      have check : ∀ arrays : Locals, arrays.Within
          { arrays with buf := arrays.buf.memcpy (j * 33024 + k * 2064 + 2060) arrays.tmp 4 } :=
        fun arrays => .withBuf (.memcpy _ _ (check_inside early earlier))
      have header : ConfinesLocals env (w, arrays) _ :=
        dumpHeader9_confines early earlier w arrays out stop
      rw [dumpHeaders9]
      rcases read : dumpHeader9 env j k w arrays out stop with ⟨w₁, arrays₁, out₁, stop₁⟩
      rw [read] at header
      dsimp only
      split
      · have within := @dvdMemdump_within _ env w₁.drive w₁.disc.dvd.memdump
          ((j * 33024 + k * 2064).toUInt32 + 2060) 16 (.inr (by decide)) arrays₁.tmp
        have dumped : ConfinesLocals env (w, arrays) _ :=
          header.trans ((ConfinesLocals.ofWorld (.withDrive within.commands) arrays₁).trans
            (.ofArrays _ (.withTmp within.buf)))
        split
        · exact dumped.trans (ih (by omega) _ _ _ _)
        · exact (dumped.trans (.ofArrays _ (check _))).trans (ih (by omega) _ _ _ _)
      · exact (header.trans (.ofArrays _ (check _))).trans (ih (by omega) _ _ _ _)

theorem reconstructBlocks_confines
    {headers : Nat → World σ → Locals → (World σ × Locals) × Bool × Bool}
    (header : ∀ j w arrays, j < 5 → ConfinesLocals env (w, arrays) (headers j w arrays).1)
    (sectorNo : UInt32) {left j : Nat} (few : j + left ≤ 5) (w : World σ) (arrays : Locals) :
    ConfinesLocals env (w, arrays) (reconstructBlocks headers sectorNo left j w arrays).1 := by
  induction left generalizing j w arrays with
  | zero => exact .refl _
  | succ left ih =>
      rw [reconstructBlocks]
      split
      · have read := header j w arrays (by omega)
        rcases result : headers j w arrays with ⟨⟨w₁, arrays₁⟩, success, stop⟩
        rw [result] at read
        cases success with
        | true => exact read.trans (ih (by omega) _ _)
        | false => exact read
      · exact .refl _

theorem readBlock_confines (sectorNo : UInt32) (j : Nat) (w : World σ) (arrays : Locals) :
    ConfinesLocals env (w, arrays)
      ((readBlock env sectorNo j w arrays).1, (readBlock env sectorNo j w arrays).2.1) := by
  unfold readBlock
  split
  · exact .refl _
  · refine (ConfinesLocals.ofWorld (.withDrive (dvdReadSectorStreaming_issued _ _ ?_)) arrays).trans
      (.ofArrays _ (.withReadbuf (dvdExecuteCmd_sameFrom env _ _ _ _ _)))
    intro given is
    cases Option.mem_some.mp is
    exact (by decide : 32768 ≤ 100 * 2064)

theorem Locals.fill_within (arrays : Locals) {j : Nat} (early : j < 5) : arrays.Within (arrays.fill j) := by
  have copied : (arrays.buf.advance (j * 33024)).SameFrom 33024
      (copyUserData (arrays.buf.advance (j * 33024)) arrays.readbuf 12) :=
    fun _ behind => copyUserData_beyond _ _ (by decide) behind
  exact .withBuf (copied.splice (by omega))

theorem fillBlocks_confines (sectorNo : UInt32) {left j : Nat} (few : j + left ≤ 5) (w : World σ)
    (arrays : Locals) : ConfinesLocals env (w, arrays) (fillBlocks env sectorNo left j w arrays).1 := by
  induction left generalizing j w arrays with
  | zero => exact .refl _
  | succ left ih =>
      rw [fillBlocks]
      split
      · have read : ConfinesLocals env (w, arrays) _ := readBlock_confines sectorNo j w arrays
        rcases executed : readBlock env sectorNo j w arrays with ⟨w₀, arrays₀, ret⟩
        rw [executed] at read
        dsimp only
        split
        · have filled := read.trans (.ofArrays w₀ (arrays₀.fill_within (by omega : j < 5)))
          have unscrambled := filled.trans
            (unscrambleLocal_confines sectorNo (by omega : j < 5) w₀ (arrays₀.fill j))
          rcases result : unscrambleLocal sectorNo j w₀ (arrays₀.fill j) with ⟨w₁, arrays₁, success⟩
          rw [result] at unscrambled
          cases success with
          | true => exact unscrambled.trans (ih (by omega) _ _)
          | false => exact unscrambled
        · exact read
      · exact .refl _

theorem attempt89_confines {headers : Nat → World σ → Locals → (World σ × Locals) × Bool × Bool}
    (header : ∀ j w arrays, j < 5 → ConfinesLocals env (w, arrays) (headers j w arrays).1)
    (sectorNo : UInt32) (retry : Nat) (state : World σ × Locals) :
    ConfinesLocals env state (attempt89 env headers sectorNo retry state).1 := by
  obtain ⟨w, arrays⟩ := state
  have retried : Confines env w _ := retried_confines w sectorNo retry
  unfold attempt89
  extract_lets distant ahead driven executed driven₁ source arrays₁
  have short : ∀ given ∈ some (arrays.readbuf, 32768), given.2 ≤ 100 * 2064 := by
    intro given is
    cases Option.mem_some.mp is
    exact (by decide : 32768 ≤ 100 * 2064)
  have displaced : Confines env w driven :=
    retried.trans (.withDrive (dvdReadSectorStreaming_issued _ none nofun))
  have read : Confines env w driven₁ :=
    displaced.trans (.withDrive (dvdReadSectorStreaming_issued _ _ short))
  have before : ConfinesLocals env (w, arrays) (driven₁, arrays₁) :=
    (ConfinesLocals.ofWorld read arrays).trans
      (.ofArrays _ (.withReadbuf (dvdExecuteCmd_sameFrom env _ _ _ _ _)))
  split
  · have reconstructed := before.trans
      (reconstructBlocks_confines header sectorNo (by decide : 0 + 5 ≤ 5) driven₁ arrays₁)
    rcases result : reconstructBlocks headers sectorNo 5 0 driven₁ arrays₁ with
      ⟨⟨w₂, arrays₂⟩, success, stop⟩
    rw [result] at reconstructed
    cases success with
    | false => exact reconstructed
    | true =>
        have filled := reconstructed.trans
          (fillBlocks_confines sectorNo (by decide : 0 + 5 ≤ 5) w₂ arrays₂)
        dsimp only
        rcases result : fillBlocks env sectorNo 5 0 w₂ arrays₂ with ⟨⟨w₃, arrays₃⟩, success⟩
        rw [result] at filled
        cases success with
        | true => exact filled.trans (cacheLocals_confines sectorNo (by decide) w₃ arrays₃)
        | false => exact filled
  · exact before

/-! ## A read -/

theorem tries7_confine (sectorNo : UInt32) (state : World σ × Locals) :
    ConfinesLocals env state (retryLoop (attempt7 env sectorNo) 5 0 state).1 :=
  retryLoop_frame .refl .trans (attempt7_confines sectorNo) state

theorem tries8_confine (sectorNo : UInt32) (state : World σ × Locals) :
    ConfinesLocals env state (retryLoop (attempt89 env
      (fun j w arrays => dumpHeaders8 env j 16 0 w arrays true false) sectorNo) 5 0 state).1 :=
  retryLoop_frame .refl .trans (attempt89_confines
    (fun _ w arrays early => dumpHeaders8_confines early (by decide) w arrays true false) sectorNo) state

theorem tries9_confine (sectorNo : UInt32) (state : World σ × Locals) :
    ConfinesLocals env state (retryLoop (attempt89 env
      (fun j w arrays => dumpHeaders9 env j 16 0 w arrays true false) sectorNo) 5 0 state).1 :=
  retryLoop_frame .refl .trans (attempt89_confines
    (fun _ w arrays early => dumpHeaders9_confines early (by decide) w arrays true false) sectorNo) state

theorem readSector_confines (sectorNo : UInt32) (w : World σ) :
    Confines env w (readSector env sectorNo w).1 := by
  unfold readSector
  split
  · exact (tries7_confine sectorNo (w, .ofStack env w.drive)).1
  · exact (tries8_confine sectorNo (w, .ofStack env w.drive)).1
  · exact (tries9_confine sectorNo (w, .ofStack env w.drive)).1
  · exact discReadSectorGeneric_confines _ sectorNo w

theorem discReadSector_confines {request : Request} {read : SectorRead}
    (returned : discReadSector env request w = .ok (w', read)) : Confines env w w' := by
  have whole : Confines env w _ := readSector_confines request.sectorNo w
  have came := discReadSector_returned env w request
  rw [returned] at came
  cases came with
  | cached => exact .refl w
  | read _ success _ =>
      rw [success] at whole
      exact whole
  | failed _ failure =>
      rw [failure] at whole
      exact whole

/-- Whatever the tries of a method read and wherever they stop, they stay in its arrays. -/
theorem localArrays_within (sized : Sized w) (sectorNo : UInt32) (arrays : Locals) :
    arrays.Within (retryLoop (attempt7 env sectorNo) 5 0 (w, arrays)).1.2 ∧
      arrays.Within (retryLoop (attempt89 env
        (fun j w arrays => dumpHeaders8 env j 16 0 w arrays true false) sectorNo) 5 0 (w, arrays)).1.2 ∧
      arrays.Within (retryLoop (attempt89 env
        (fun j w arrays => dumpHeaders9 env j 16 0 w arrays true false) sectorNo) 5 0 (w, arrays)).1.2 :=
  ⟨(tries7_confine sectorNo (w, arrays)).2 sized, (tries8_confine sectorNo (w, arrays)).2 sized,
    (tries9_confine sectorNo (w, arrays)).2 sized⟩

end Reading

/-- A read with method 8 that succeeds. -/
theorem localArrays_within_headers :
    ∃ d, discNew ⟨.vanilla2064, 2, 0, true⟩ (fun _ _ => 0) (fun _ _ => 0)
        ⟨fun _ => ⟨0, fun _ => 0⟩, false⟩ = some d ∧
      (discReadSector8 headerEnv 16 (World.headers d)).2 = true ∧
      (Locals.ofStack headerEnv 0).Within (retryLoop (attempt89 headerEnv
        (fun j w arrays => dumpHeaders8 headerEnv j 16 0 w arrays true false) 16) 5 0
        (World.headers d, Locals.ofStack headerEnv 0)).1.2 := by
  obtain ⟨d, created⟩ : ∃ d, discNew ⟨.vanilla2064, 2, 0, true⟩ (fun _ _ => 0) (fun _ _ => 0)
      ⟨fun _ => ⟨0, fun _ => 0⟩, false⟩ = some d := ⟨_, rfl⟩
  obtain ⟨start, vanilla, seedless, -⟩ := counting_setUp created
  have ranged := discSetReadMethod_ranged d notGiven notGiven 8
  have sized : Sized (World.headers d) :=
    ⟨⟨ranged.lower, ranged.upper, ranged.rounds, ranged.positive, ranged.blocks⟩, start.sound.formed,
      start.sound.positive⟩
  have before : ∀ j < 5, (16 : UInt32) + j.toUInt32 * 16 < 96 := by decide
  refine ⟨d, created, ?_, (localArrays_within sized 16 _).2.1⟩
  exact headerEnv_drive.read8 vanilla (fun j block => decide_eq_true (before j block)) seedless

end Friidump
