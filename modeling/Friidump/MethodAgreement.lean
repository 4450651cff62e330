import Friidump.CacheAddressing
import Friidump.CountingDrive

/-!
# Methods 8 and 9

On a drive whose cache can be addressed byte by byte the header that method 9
carries over from the last dump is the one that method 8 dumps.
-/

set_option autoImplicit false

namespace Friidump

/-! ## A record of the READ commands -/

/-- The environment with a list of all READ commands issued, the last one first. -/
def Env.recording {σ : Type} (env : Env σ) : Env (σ × List (List UInt8)) where
  ioctl state mmc :=
    let (drive, reply) := env.ioctl state.1 mmc
    ((drive, if mmc.cmd.head? = some 0xA8 then mmc.cmd :: state.2 else state.2), reply)
  stack state := env.stack state.1
  rsDecode := env.rsDecode

theorem MemdumpFunc.command_head (f : MemdumpFunc) (offset size : UInt32) :
    (f.command offset size).head? ≠ some 0xA8 := by
  cases f <;> exact fun same => absurd (Option.some.inj same) (by decide)

theorem Serves.recording {σ : Type} {env : Env σ} {f : MemdumpFunc} {memory : σ → Buffer}
    (serves : Serves env f memory) :
    Serves env.recording f fun state : σ × List (List UInt8) => memory state.1 where
  drive state offset size buffer inside := by
    have kept := serves.drive state.1 offset size buffer inside
    have skipped : (if (f.command offset size).head? = some 0xA8 then
        f.command offset size :: state.2 else state.2) = state.2 := if_neg (f.command_head offset size)
    exact Prod.ext kept skipped
  succeeded state := serves.succeeded state.1
  whole state := serves.whole state.1
  data state := serves.data state.1

/-! ## Sector headers and check fields -/

/-- The fields of a sector that the READ does not return, as the cache has them. -/
def headed (memory buf : Buffer) (sect : Nat) : Buffer :=
  (buf.memcpy sect (memory.advance sect) 12).memcpy (sect + 2060) (memory.advance (sect + 2060)) 4

/-- Behind the check field `tmp` holds the header of the sector that comes next. -/
def Carried (memory tmp : Buffer) (j k : Nat) : Prop :=
  (j = 0 ∧ k = 0) ∨ ∀ i < 12, tmp (4 + i) = memory (j * 33024 + k * 2064 + i)

private theorem memcpy_congr {src src' : Buffer} {length : Nat} (same : ∀ i < length, src i = src' i)
    (dst : Buffer) (offset : Nat) : dst.memcpy offset src length = dst.memcpy offset src' length := by
  funext i
  rw [Buffer.memcpy, Buffer.memcpy]
  split
  · exact same _ (by omega)
  · rfl

private theorem splice_memcpy (buf src : Buffer) (offset length : Nat) :
    buf.splice offset ((buf.advance offset).memcpy 0 src length) = buf.memcpy offset src length := by
  funext i
  rw [Buffer.splice]
  by_cases before : i < offset
  · rw [if_pos before, Buffer.memcpy_outside _ _ (.inl before)]
  · have place : offset + (i - offset) = i := Nat.add_sub_cancel' (Nat.not_lt.mp before)
    rw [if_neg before, Buffer.memcpy, Buffer.memcpy, Buffer.advance_apply, place, Nat.sub_zero]
    exact if_congr (by omega) rfl rfl

section Headers

variable {σ : Type} {env : Env σ} {memory : σ → Buffer} {w : World σ} {arrays : Locals}
  {tmp : Buffer} {j k left : Nat}

/-- The dump function of the disc reads this memory. -/
structure ServedMemory (env : Env σ) (memory : σ → Buffer) (w : World σ) : Prop where
  serves : Serves env w.disc.dvd.memdump memory
  bytewise : w.disc.dvd.memdump.Bytewise

theorem ServedMemory.dump (served : ServedMemory env memory w) {offset length : Nat} {size : UInt32}
    (value : size.toNat = length) (inside : offset + length ≤ 2 ^ 24) (positive : 0 < length)
    (short : length ≤ 2064) (buf : Buffer) :
    dvdMemdump env w.disc.dvd.memdump w.drive offset.toUInt32 1 size buf =
      { drive := w.drive, out := 0, buf := buf.memcpy 0 ((memory w.drive).advance offset) length } := by
  have place : offset.toUInt32.toNat = offset := Nat.mod_eq_of_lt (by omega)
  have reach : 2 ^ 24 ≤ w.disc.dvd.memdump.reach := by
    cases w.disc.dvd.memdump <;> decide
  have within : offset.toUInt32.toNat + size.toNat ≤ w.disc.dvd.memdump.reach := by
    rw [place, value]
    exact Nat.le_trans inside reach
  have dumped := @Serves.memdump_short _ _ _ _ w.drive _ _ served.serves served.bytewise within
    (value ▸ positive) (value ▸ short) buf
  rwa [place, value] at dumped

private theorem sect_inside (block : j < 5) (sector : k < 16) : j * 33024 + k * 2064 + 2076 ≤ 2 ^ 24 := by
  have blocks : j * 33024 ≤ 4 * 33024 := Nat.mul_le_mul_right _ (Nat.le_of_lt_succ block)
  have sectors : k * 2064 ≤ 15 * 2064 := Nat.mul_le_mul_right _ (Nat.le_of_lt_succ sector)
  exact Nat.le_trans (Nat.add_le_add_right (Nat.add_le_add blocks sectors) 2076) (by decide)

theorem ServedMemory.header (served : ServedMemory env memory w) (block : j < 5) (sector : k < 16)
    (buf : Buffer) :
    dvdMemdump env w.disc.dvd.memdump w.drive (j * 33024 + k * 2064).toUInt32 1 12 buf =
      { drive := w.drive, out := 0
        buf := buf.memcpy 0 ((memory w.drive).advance (j * 33024 + k * 2064)) 12 } :=
  have inside := Nat.le_trans (Nat.add_le_add_left (by decide : 12 ≤ 2076) _) (sect_inside block sector)
  served.dump (by decide) inside (by decide) (by decide) buf

theorem ServedMemory.check (served : ServedMemory env memory w) (block : j < 5) (sector : k < 16)
    {length : Nat} {size : UInt32} (value : size.toNat = length) (positive : 0 < length)
    (short : length ≤ 16) (buf : Buffer) :
    dvdMemdump env w.disc.dvd.memdump w.drive ((j * 33024 + k * 2064).toUInt32 + 2060) 1 size buf =
      { drive := w.drive, out := 0
        buf := buf.memcpy 0 ((memory w.drive).advance (j * 33024 + k * 2064 + 2060)) length } := by
  have offset : (j * 33024 + k * 2064).toUInt32 + 2060 = (j * 33024 + k * 2064 + 2060).toUInt32 :=
    (UInt32.ofNat_add (j * 33024 + k * 2064) 2060).symm
  have inside := sect_inside block sector
  rw [offset]
  refine served.dump value ?_ positive (Nat.le_trans short (by decide)) buf
  exact Nat.le_trans (Nat.add_le_add_left short _) inside

theorem dumpHeaders8_round (served : ServedMemory env memory w) (block : j < 5) (sector : k < 16)
    (arrays : Locals) (out stop : Bool) :
    dumpHeaders8 env j (left + 1) k w arrays out stop =
      dumpHeaders8 env j left (k + 1) w
        { arrays with buf := headed (memory w.drive) arrays.buf (j * 33024 + k * 2064) } out stop := by
  have header := served.header block sector
  have check := @ServedMemory.check _ _ _ _ _ _ served block sector 4 4 (by decide) (by decide)
    (by decide)
  have still : w.withDrive w.drive = w := rfl
  have going : ¬ (0 : Int) < 0 := by decide
  rw [dumpHeaders8]
  dsimp only
  rw [header]
  dsimp only
  rw [if_neg going, still, check]
  dsimp only
  rw [if_neg going, still, splice_memcpy, splice_memcpy, headed]

/-- Method 9 puts the same header in the same place. -/
theorem dumpHeader9_carried (served : ServedMemory env memory w) (block : j < 5) (sector : k < 16)
    (arrays : Locals) (carried : Carried (memory w.drive) arrays.tmp j k) (out stop : Bool) :
    dumpHeader9 env j k w arrays out stop =
      (w, { arrays with
        buf := arrays.buf.memcpy (j * 33024 + k * 2064)
          ((memory w.drive).advance (j * 33024 + k * 2064)) 12 }, out, stop) := by
  have header := served.header block sector
  have still : w.withDrive w.drive = w := rfl
  have going : ¬ (0 : Int) < 0 := by decide
  rw [dumpHeader9]
  dsimp only
  by_cases start : j = 0 ∧ k = 0
  · rw [if_pos start, header]
    dsimp only
    rw [if_neg going, still, splice_memcpy]
  · have behind : ∀ i < 12, arrays.tmp.advance 4 i =
        (memory w.drive).advance (j * 33024 + k * 2064) i := carried.resolve_left start
    rw [if_neg start, memcpy_congr behind]

/-- The dump of the check field brings the header of the next sector along. -/
theorem dumpHeaders9_round (served : ServedMemory env memory w) (block : j < 5) (sector : k < 16)
    (arrays : Locals) (carried : Carried (memory w.drive) arrays.tmp j k) (stop : Bool) :
    ∃ tmp, Carried (memory w.drive) tmp j (k + 1) ∧
      dumpHeaders9 env j (left + 1) k w arrays true stop =
        dumpHeaders9 env j left (k + 1) w
          { arrays with
            buf := headed (memory w.drive) arrays.buf (j * 33024 + k * 2064)
            tmp := tmp } true stop := by
  have header := dumpHeader9_carried served block sector arrays carried true stop
  have check := @ServedMemory.check _ _ _ _ _ _ served block sector 16 16 (by decide) (by decide)
    (by decide)
  have still : w.withDrive w.drive = w := rfl
  have going : ¬ (0 : Int) < 0 := by decide
  obtain ⟨sect, start⟩ : ∃ sect, j * 33024 + k * 2064 = sect := ⟨_, rfl⟩
  have next : j * 33024 + (k + 1) * 2064 = sect + 2064 := by
    rw [Nat.succ_mul, ← Nat.add_assoc, start]
  rw [dumpHeaders9]
  dsimp only
  rw [header]
  dsimp only
  rw [if_pos rfl, check]
  dsimp only
  rw [if_neg going, still, headed, start]
  have fetched : ∀ i < 16, arrays.tmp.memcpy 0 ((memory w.drive).advance (sect + 2060)) 16 i =
      (memory w.drive).advance (sect + 2060) i :=
    fun i below => Buffer.memcpy_inside _ _ (Nat.zero_le i) ((Nat.zero_add 16).symm ▸ below)
  have tail : ∀ i < 4, arrays.tmp.memcpy 0 ((memory w.drive).advance (sect + 2060)) 16 i =
      (memory w.drive).advance (sect + 2060) i :=
    fun i below => fetched i (Nat.lt_trans below (by decide))
  refine ⟨arrays.tmp.memcpy 0 ((memory w.drive).advance (sect + 2060)) 16, .inr fun i below => ?_, ?_⟩
  · have place : sect + 2060 + (4 + i) = sect + 2064 + i := by omega
    rw [fetched (4 + i) (Nat.add_lt_add_left below 4), next, Buffer.advance_apply, place]
  · rw [memcpy_congr tail]

theorem Carried.next (carried : Carried (memory w.drive) tmp j 16) :
    Carried (memory w.drive) tmp (j + 1) 0 := by
  refine .inr fun i below => ?_
  obtain ⟨-, zero⟩ | behind := carried
  · exact absurd zero (by decide)
  · have place : (j + 1) * 33024 + 0 * 2064 = j * 33024 + 16 * 2064 := by
      rw [Nat.succ_mul, Nat.zero_mul, Nat.add_zero]
    rw [place]
    exact behind i below

def Locals.withTmp (arrays : Locals) (tmp : Buffer) : Locals := { arrays with tmp := tmp }

@[simp] theorem Locals.withTmp_buf (arrays : Locals) (tmp : Buffer) :
    (arrays.withTmp tmp).buf = arrays.buf := rfl

/-- Both loops over the sectors of a block fill the same arrays. -/
theorem dumpHeaders_agree (served : ServedMemory env memory w) (block : j < 5) (left k : Nat)
    (rounds : k + left = 16) (arrays : Locals) (tmp : Buffer)
    (carried : Carried (memory w.drive) tmp j k) :
    ∃ arrays' tmp', Carried (memory w.drive) tmp' j 16 ∧
      dumpHeaders8 env j left k w arrays true false = ((w, arrays'), true, false) ∧
      dumpHeaders9 env j left k w (arrays.withTmp tmp) true false =
        ((w, arrays'.withTmp tmp'), true, false) := by
  induction left generalizing k arrays tmp with
  | zero =>
      obtain rfl : k = 16 := rounds
      exact ⟨arrays, tmp, carried, rfl, rfl⟩
  | succ left ih =>
      have sector : k < 16 := rounds ▸ Nat.lt_add_of_pos_right (Nat.succ_pos left)
      have rest : k + 1 + left = 16 := (Nat.succ_add_eq_add_succ k left).trans rounds
      have step8 := @dumpHeaders8_round _ _ _ _ _ _ left served block sector arrays true false
      obtain ⟨tmp₁, carried₁, step9⟩ := @dumpHeaders9_round _ _ _ _ _ _ left served block sector
        (arrays.withTmp tmp) carried false
      obtain ⟨arrays', tmp', carried', agree8, agree9⟩ := ih (k + 1) rest
        { arrays with buf := headed (memory w.drive) arrays.buf (j * 33024 + k * 2064) } tmp₁ carried₁
      exact ⟨arrays', tmp', carried', step8.trans agree8, step9.trans agree9⟩

theorem reconstructBlocks_agree (served : ServedMemory env memory w) (sectorNo : UInt32)
    (left j : Nat) (rounds : j + left = 5) (arrays : Locals) (tmp : Buffer)
    (carried : Carried (memory w.drive) tmp j 0) :
    ∃ arrays' tmp',
      reconstructBlocks (fun j w arrays => dumpHeaders8 env j 16 0 w arrays true false) sectorNo left
        j w arrays = ((w, arrays'), true, false) ∧
      reconstructBlocks (fun j w arrays => dumpHeaders9 env j 16 0 w arrays true false) sectorNo left
        j w (arrays.withTmp tmp) = ((w, arrays'.withTmp tmp'), true, false) := by
  induction left generalizing j arrays tmp with
  | zero => exact ⟨arrays, tmp, rfl, rfl⟩
  | succ left ih =>
      have block : j < 5 := rounds ▸ Nat.lt_add_of_pos_right (Nat.succ_pos left)
      have rest : j + 1 + left = 5 := (Nat.succ_add_eq_add_succ j left).trans rounds
      by_cases before : beforeEnd w sectorNo j = true
      · obtain ⟨arrays₁, tmp₁, carried₁, here8, here9⟩ :=
          dumpHeaders_agree served block 16 0 rfl arrays tmp carried
        obtain ⟨arrays', tmp', agree8, agree9⟩ := ih (j + 1) rest arrays₁ tmp₁ carried₁.next
        refine ⟨arrays', tmp', ?_, ?_⟩
        · rw [reconstructBlocks, if_pos before, here8]
          exact agree8
        · rw [reconstructBlocks, if_pos before, here9]
          exact agree9
      · refine ⟨arrays, tmp, ?_, ?_⟩
        · rw [reconstructBlocks, if_neg before]
        · rw [reconstructBlocks, if_neg before]

/-! ## Behind the headers -/

theorem fillBlocks_withTmp (sectorNo : UInt32) (left j : Nat) (w : World σ) (arrays : Locals)
    (tmp : Buffer) :
    fillBlocks env sectorNo left j w (arrays.withTmp tmp) =
      (((fillBlocks env sectorNo left j w arrays).1.1,
        (fillBlocks env sectorNo left j w arrays).1.2.withTmp tmp),
        (fillBlocks env sectorNo left j w arrays).2) := by
  induction left generalizing j w arrays with
  | zero => rfl
  | succ left ih =>
      have reading : readBlock env sectorNo j w (arrays.withTmp tmp) =
          ((readBlock env sectorNo j w arrays).1, (readBlock env sectorNo j w arrays).2.1.withTmp tmp,
            (readBlock env sectorNo j w arrays).2.2) := by
        unfold readBlock
        split <;> rfl
      rw [fillBlocks, fillBlocks, reading]
      rcases readBlock env sectorNo j w arrays with ⟨w₀, arrays₀, ret⟩
      have unscrambling : unscrambleLocal sectorNo j w₀ ((arrays₀.withTmp tmp).fill j) =
          ((unscrambleLocal sectorNo j w₀ (arrays₀.fill j)).1,
            (unscrambleLocal sectorNo j w₀ (arrays₀.fill j)).2.1.withTmp tmp,
            (unscrambleLocal sectorNo j w₀ (arrays₀.fill j)).2.2) := rfl
      dsimp only
      rw [unscrambling]
      rcases unscrambleLocal sectorNo j w₀ (arrays₀.fill j) with ⟨w₁, arrays₁, success⟩
      split
      · split
        · cases success with
          | true => exact ih (j + 1) w₁ arrays₁
          | false => rfl
        · rfl
      · rfl

theorem cacheLocals_withTmp (sectorNo : UInt32) (left j : Nat) (w : World σ) (arrays : Locals)
    (tmp : Buffer) :
    cacheLocals sectorNo left j w (arrays.withTmp tmp) =
      ((cacheLocals sectorNo left j w arrays).1,
        (cacheLocals sectorNo left j w arrays).2.withTmp tmp) := by
  induction left generalizing j w arrays with
  | zero => rfl
  | succ left ih =>
      rw [cacheLocals, cacheLocals]
      split
      · dsimp only [Locals.withTmp]
        rcases w.cacheBlockAt (sectorNo / 16 + j.toUInt32) j arrays.buf arrays.bufUnscrambled with
          ⟨w₁, buf⟩
        exact ih (j + 1) w₁ { arrays with buf := buf }
      · rfl

theorem Quiet.dvd {w w' : World σ} (quiet : Quiet w w') : w'.disc.dvd = w.disc.dvd := by
  rw [quiet.disc]

theorem cacheLocals_dvd (sectorNo : UInt32) (left j : Nat) (w : World σ) (arrays : Locals) :
    (cacheLocals sectorNo left j w arrays).1.disc.dvd = w.disc.dvd := by
  induction left generalizing j w arrays with
  | zero => rfl
  | succ left ih =>
      rw [cacheLocals]
      split
      · exact ih (j + 1) _ _
      · rfl

/-! ## A whole read -/

theorem retryLoop_agree {α : Type} {attempt attempt' : Nat → α → α × Bool × Bool} (R : α → α → Prop)
    (step : ∀ retry state state', R state state' →
      R (attempt retry state).1 (attempt' retry state').1 ∧
        (attempt' retry state').2 = (attempt retry state).2)
    (left retry : Nat) (state state' : α) (start : R state state') :
    R (retryLoop attempt left retry state).1 (retryLoop attempt' left retry state').1 ∧
      (retryLoop attempt' left retry state').2 = (retryLoop attempt left retry state).2 := by
  induction left generalizing retry state state' with
  | zero => exact ⟨start, rfl⟩
  | succ left ih =>
      obtain ⟨related, same⟩ := step retry state state' start
      rw [retryLoop, retryLoop]
      rcases tried : attempt retry state with ⟨state₁, out, stop⟩
      rcases tried' : attempt' retry state' with ⟨state₁', result'⟩
      rw [tried, tried'] at related same
      obtain rfl : result' = (out, stop) := same
      cases out with
      | true => exact ⟨related, rfl⟩
      | false =>
          cases stop with
          | true => exact ⟨related, rfl⟩
          | false => exact ih (retry + 1) state₁ state₁' related

/-- The same disc and arrays except for `tmp`, and the dump function is still `f`. -/
structure Alike (f : MemdumpFunc) (state state' : World σ × Locals) : Prop where
  world : state'.1 = state.1
  arrays : ∃ tmp, state'.2 = state.2.withTmp tmp
  memdump : state.1.disc.dvd.memdump = f

/-- What a try does before it looks at headers. -/
def firstRead (env : Env σ) (sectorNo : UInt32) (retry : Nat) (w : World σ) (readbuf : Buffer) :
    World σ × Buffer × Int :=
  let w := if 0 < retry then readDistant env w sectorNo else w
  let ahead :=
    if w.disc.sectorsNo - 1000 < sectorNo then sectorNo - 16 * 5 * 2 else sectorNo + 16 * 5
  let w := w.withDrive (dvdReadSectorStreaming env w.drive ahead none).drive
  let executed := dvdReadSectorStreaming env w.drive sectorNo (some (readbuf, 32768))
  (w.withDrive executed.drive, executed.buffer, executed.out)

theorem firstRead_dvd (sectorNo : UInt32) (retry : Nat) (w : World σ) (readbuf : Buffer) :
    (firstRead env sectorNo retry w readbuf).1.disc.dvd = w.disc.dvd :=
  ((Quiet.frame env).retried w sectorNo retry).dvd

theorem attempt89_firstRead {headers : Nat → World σ → Locals → (World σ × Locals) × Bool × Bool}
    (sectorNo : UInt32) (retry : Nat) (w : World σ) (arrays : Locals) :
    attempt89 env headers sectorNo retry (w, arrays) =
      match firstRead env sectorNo retry w arrays.readbuf with
      | (w, readbuf, ret) =>
          if 0 ≤ ret then
            match reconstructBlocks headers sectorNo 5 0 w { arrays with readbuf := readbuf } with
            | ((w, arrays), true, stop) =>
                match fillBlocks env sectorNo 5 0 w arrays with
                | ((w, arrays), true) => (cacheLocals sectorNo 5 0 w arrays, true, stop)
                | (state, false) => (state, false, stop)
            | (state, false, stop) => (state, false, stop)
          else ((w, { arrays with readbuf := readbuf }), false, false) := rfl

theorem attempt89_agree {f : MemdumpFunc} (serves : Serves env f memory) (bytewise : f.Bytewise)
    (sectorNo : UInt32) (retry : Nat) (state state' : World σ × Locals) (alike : Alike f state state') :
    let headers8 := fun j w arrays => dumpHeaders8 env j 16 0 w arrays true false
    let headers9 := fun j w arrays => dumpHeaders9 env j 16 0 w arrays true false
    Alike f (attempt89 env headers8 sectorNo retry state).1
        (attempt89 env headers9 sectorNo retry state').1 ∧
      (attempt89 env headers9 sectorNo retry state').2 =
        (attempt89 env headers8 sectorNo retry state).2 := by
  obtain ⟨w, arrays⟩ := state
  obtain ⟨w', arrays'⟩ := state'
  obtain ⟨world, ⟨tmp, same⟩, memdump⟩ := alike
  obtain rfl : w' = w := world
  obtain rfl : arrays' = arrays.withTmp tmp := same
  intro headers8 headers9
  have read := @firstRead_dvd _ env sectorNo retry w' arrays.readbuf
  rw [attempt89_firstRead, attempt89_firstRead]
  dsimp only [Locals.withTmp]
  rcases reads : firstRead env sectorNo retry w' arrays.readbuf with ⟨w₂, readbuf, ret⟩
  rw [reads] at read
  have kept : w₂.disc.dvd.memdump = f := (congrArg DvdDrive.memdump read).trans memdump
  dsimp only
  split
  · have served : ServedMemory env memory w₂ := ⟨kept ▸ serves, kept ▸ bytewise⟩
    obtain ⟨arrays₂, tmp₂, blocks8, blocks9⟩ := reconstructBlocks_agree served sectorNo 5 0 rfl
      { arrays with readbuf := readbuf } tmp (.inl ⟨rfl, rfl⟩)
    have filled := @fillBlocks_withTmp _ env sectorNo 5 0 w₂ arrays₂ tmp₂
    have filledDvd := ((Quiet.frame env).fillBlocks sectorNo 5 0 w₂ arrays₂).dvd
    dsimp only [Locals.withTmp] at blocks9
    rw [blocks8, blocks9]
    rcases result : fillBlocks env sectorNo 5 0 w₂ arrays₂ with ⟨⟨w₃, arrays₃⟩, success⟩
    rw [result] at filled filledDvd
    dsimp only [Locals.withTmp] at filled ⊢
    rw [filled, result]
    have still : w₃.disc.dvd.memdump = f := (congrArg DvdDrive.memdump filledDvd).trans kept
    cases success with
    | true =>
        have cached := cacheLocals_withTmp sectorNo 5 0 w₃ arrays₃ tmp₂
        have cachedDvd := cacheLocals_dvd sectorNo 5 0 w₃ arrays₃
        dsimp only [Locals.withTmp] at cached ⊢
        rw [cached]
        refine ⟨⟨rfl, ⟨tmp₂, rfl⟩, ?_⟩, rfl⟩
        exact (congrArg DvdDrive.memdump cachedDvd).trans still
    | false => exact ⟨⟨rfl, ⟨tmp₂, rfl⟩, still⟩, rfl⟩
  · exact ⟨⟨rfl, ⟨tmp, rfl⟩, kept⟩, rfl⟩

/-- The arrays and the disc after some tries of method 8. -/
def tries8 (env : Env σ) (sectorNo : UInt32) (tries : Nat) (w : World σ) : (World σ × Locals) × Bool :=
  let headers := fun j w arrays => dumpHeaders8 env j 16 0 w arrays true false
  retryLoop (attempt89 env headers sectorNo) tries 0 (w, .ofStack env w.drive)

/-- The same with method 9. -/
def tries9 (env : Env σ) (sectorNo : UInt32) (tries : Nat) (w : World σ) : (World σ × Locals) × Bool :=
  let headers := fun j w arrays => dumpHeaders9 env j 16 0 w arrays true false
  retryLoop (attempt89 env headers sectorNo) tries 0 (w, .ofStack env w.drive)

theorem tries_agree (serves : Serves env w.disc.dvd.memdump memory)
    (bytewise : w.disc.dvd.memdump.Bytewise) (sectorNo : UInt32) (tries : Nat) :
    Alike w.disc.dvd.memdump (tries8 env sectorNo tries w).1 (tries9 env sectorNo tries w).1 ∧
      (tries9 env sectorNo tries w).2 = (tries8 env sectorNo tries w).2 := by
  have step := fun retry state state' => attempt89_agree serves bytewise sectorNo retry state state'
  have start : Alike w.disc.dvd.memdump (w, .ofStack env w.drive) (w, .ofStack env w.drive) :=
    ⟨rfl, ⟨(Locals.ofStack env w.drive).tmp, rfl⟩, rfl⟩
  exact retryLoop_agree (Alike w.disc.dvd.memdump) step tries 0 _ _ start

end Headers

/-! ## A drive with numbered headers

Its READs bring zeros, and its memory holds numbered sectors from the last address on. -/

def headerMemory (lba : UInt32) : Buffer := fun a =>
  numberedSector (0x30000 + lba + (a / 2064).toUInt32) (a % 2064)

structure HeaderDrive {σ : Type} (env : Env σ) (lba : σ → UInt32) : Prop where
  seeks : Seeks env lba id
  whole : ∀ drive mmc, mmc.cmd.head? = some 0xA8 → (env.ioctl drive mmc).2.transferred = mmc.buflen
  zeros : ∀ drive mmc, mmc.cmd.head? = some 0xA8 → ∀ i, (env.ioctl drive mmc).2.data i = 0
  serves : Serves env .vanilla2064 fun drive => headerMemory (lba drive)

/-- The state is the address of the last READ. -/
def headerEnv : Env UInt32 where
  ioctl lba mmc :=
    if mmc.cmd.head? = some 0xA8 then
      (wordOf ((mmc.cmd.drop 2).take 4),
        { failed := false, transferred := mmc.buflen, data := fun _ => 0, sense := ⟨0, 0, 0⟩ })
    else
      (lba,
        { failed := false
          transferred := mmc.buflen
          data := (headerMemory lba).advance (wordOf ((mmc.cmd.drop 3).take 3)).toNat
          sense := ⟨0, 0, 0⟩ })
  stack _ _ := fun _ => 0
  rsDecode := id

private theorem headerEnv_command (lba offset size : UInt32) (buffer : Buffer) :
    headerEnv.ioctl lba ⟨MemdumpFunc.vanilla2064.command offset size, buffer, size.toNat⟩ =
      (lba,
        { failed := false
          transferred := size.toNat
          data := (headerMemory lba).advance (wordOf ((msbToLsb offset).drop 1)).toNat
          sense := ⟨0, 0, 0⟩ }) := by
  unfold headerEnv
  dsimp only
  rw [if_neg (MemdumpFunc.vanilla2064.command_head offset size)]
  rfl

theorem headerEnv_drive : HeaderDrive headerEnv id where
  seeks drive mmc sector read address := by
    unfold headerEnv
    dsimp only
    rw [if_pos read, address]
    exact wordOf_msbToLsb sector
  whole drive mmc read := by
    unfold headerEnv
    dsimp only
    rw [if_pos read]
  zeros drive mmc read i := by
    unfold headerEnv
    dsimp only
    rw [if_pos read]
  serves := by
    constructor
    · intro drive offset size buffer _
      rw [headerEnv_command]
    · intro drive offset size buffer _
      rw [headerEnv_command]
    · intro drive offset size buffer _
      rw [headerEnv_command]
    · intro drive offset size buffer inside i below
      have named : offset.toNat + size.toNat ≤ 2 ^ 24 := inside
      rw [headerEnv_command, wordOf_msbToLsb_drop (by omega)]
      rfl

theorem HeaderDrive.recording {σ : Type} {env : Env σ} {lba : σ → UInt32} (drive : HeaderDrive env lba) :
    HeaderDrive env.recording fun state : σ × List (List UInt8) => lba state.1 where
  seeks state := drive.seeks state.1
  whole state := drive.whole state.1
  zeros state := drive.zeros state.1
  serves := drive.serves.recording

section HeaderReads

variable {σ : Type} {env : Env σ} {lba : σ → UInt32} {w : World σ} {sectorNo first : UInt32}
  {buf : Buffer} {j : Nat}

theorem HeaderDrive.read (drive : HeaderDrive env lba) (state : σ) (sector : UInt32) (buf : Buffer) :
    lba (dvdReadSectorStreaming env state sector (some (buf, 32768))).drive = sector ∧
      ∀ i < 32768, (dvdReadSectorStreaming env state sector (some (buf, 32768))).buffer i = 0 := by
  refine ⟨drive.seeks _ _ sector rfl rfl, fun i below => ?_⟩
  rw [dvdReadSectorStreaming]
  dsimp only [Option.getD_some]
  rw [dvdExecuteCmd]
  dsimp only
  rw [drive.whole _ _ rfl]
  dsimp only [dvdInitCommand]
  rw [Buffer.memcpy_inside _ _ (Nat.zero_le i) (by omega)]
  exact drive.zeros _ _ rfl _

/-- The sectors in this range have the headers and check fields of the memory. -/
def HeadedTo (memory buf : Buffer) (start stop : Nat) : Prop :=
  ∀ q, start ≤ q → q < stop → ∀ i < 2064, i < 12 ∨ 2060 ≤ i → buf (2064 * q + i) = memory (2064 * q + i)

theorem HeadedTo.next {memory : Buffer} {q : Nat} (filled : HeadedTo memory buf 0 q) :
    HeadedTo memory (headed memory buf (2064 * q)) 0 (q + 1) := by
  intro q' _ before i inside field
  by_cases earlier : q' < q
  · rw [headed, Buffer.memcpy_outside _ _ (.inl (by omega)), Buffer.memcpy_outside _ _ (.inl (by omega))]
    exact filled q' (Nat.zero_le _) earlier i inside field
  · obtain rfl : q' = q := by omega
    rcases field with header | check
    · rw [headed, Buffer.memcpy_outside _ _ (.inl (by omega)),
        Buffer.memcpy_inside _ _ (by omega) (by omega), Buffer.advance_apply]
      exact congrArg memory (by omega)
    · rw [headed, Buffer.memcpy_inside _ _ (by omega) (by omega), Buffer.advance_apply]
      exact congrArg memory (by omega)

theorem dumpHeaders8_headed {memory : σ → Buffer} (served : ServedMemory env memory w) (block : j < 5)
    (left k : Nat) (rounds : k + left = 16) (arrays : Locals)
    (filled : HeadedTo (memory w.drive) arrays.buf 0 (16 * j + k)) :
    ∃ buf, dumpHeaders8 env j left k w arrays true false = ((w, { arrays with buf := buf }), true, false) ∧
      HeadedTo (memory w.drive) buf 0 (16 * j + 16) := by
  induction left generalizing k arrays with
  | zero =>
      obtain rfl : k = 16 := rounds
      exact ⟨arrays.buf, rfl, filled⟩
  | succ left ih =>
      have sector : k < 16 := by omega
      have place : j * 33024 + k * 2064 = 2064 * (16 * j + k) := by omega
      rw [dumpHeaders8_round served block sector, place]
      exact ih (k + 1) (by omega) _ filled.next

/-- All five blocks get their headers. -/
theorem reconstructBlocks_headed {memory : σ → Buffer} (served : ServedMemory env memory w)
    (before : ∀ j < 5, beforeEnd w sectorNo j = true) (left j : Nat) (rounds : j + left = 5)
    (arrays : Locals) (filled : HeadedTo (memory w.drive) arrays.buf 0 (16 * j)) :
    ∃ buf, reconstructBlocks (fun j w arrays => dumpHeaders8 env j 16 0 w arrays true false) sectorNo
        left j w arrays = ((w, { arrays with buf := buf }), true, false) ∧
      HeadedTo (memory w.drive) buf 0 80 := by
  induction left generalizing j arrays with
  | zero =>
      obtain rfl : j = 5 := rounds
      exact ⟨arrays.buf, rfl, filled⟩
  | succ left ih =>
      have block : j < 5 := by omega
      obtain ⟨buf, dumped, further⟩ := dumpHeaders8_headed served block 16 0 rfl arrays filled
      rw [reconstructBlocks, if_pos (before j block), dumped]
      exact ih (j + 1) (by omega) { arrays with buf := buf } further

/-! ### Its blocks pass -/

theorem numberedSector_empty (number : UInt32) {i : Nat} (behind : 4 ≤ i) (inside : i < 2060) :
    numberedSector number i = 0 := by
  rw [numberedSector, plainSector_apply _ inside, numberedHeader, if_neg (by omega), if_neg (by omega),
    if_neg (by omega)]

/-- Empty sectors with these headers are whole. -/
theorem Locals.fill_passes {arrays : Locals} {stop : Nat} (block : 16 * j + 16 ≤ stop)
    (zeros : ∀ i < 32768, arrays.readbuf i = 0)
    (filled : HeadedTo (headerMemory first) arrays.buf (16 * j) stop) :
    Passes ((arrays.fill j).buf.advance (j * 33024)) := by
  intro k inside
  rw [← sectorSyndrome_numberedSector (0x30000 + first + (16 * j + k).toUInt32)]
  refine sectorSyndrome_congr fun i below => ?_
  have place : j * 33024 + (2064 * k + i) = 2064 * (16 * j + k) + i := by omega
  have sector : (2064 * (16 * j + k) + i) / 2064 = 16 * j + k := by omega
  have column : (2064 * (16 * j + k) + i) % 2064 = i := by omega
  rw [Locals.fill, Buffer.splice_advance, Buffer.advance_apply,
    copyUserData_apply _ _ (by decide) inside below]
  by_cases user : 12 ≤ i ∧ i < 12 + 2048
  · rw [if_pos user, zeros _ (by omega), numberedSector_empty _ (by omega) (by omega)]
  · rw [if_neg user, Buffer.advance_apply, place, filled _ (by omega) (by omega) i below (by omega),
      headerMemory, sector, column]

theorem Locals.fill_behind (arrays : Locals) {a : Nat} (beyond : (j + 1) * 33024 ≤ a) :
    (arrays.fill j).buf a = arrays.buf a := by
  have filled : (arrays.fill j).buf a = arrays.buf.splice (j * 33024)
      (copyUserData (arrays.buf.advance (j * 33024)) arrays.readbuf 12) a := rfl
  rw [Nat.succ_mul] at beyond
  have above : j * 33024 ≤ a := Nat.le_trans (Nat.le_add_right _ _) beyond
  have behind : 33024 ≤ a - j * 33024 := Nat.le_sub_of_add_le' beyond
  rw [filled, Buffer.splice_above _ _ above, copyUserData_beyond _ _ (by decide) behind,
    Buffer.advance_apply, Nat.add_sub_cancel' above]

theorem unscrambleLocal_passes {arrays : Locals} (seedless : Seedless w.disc.u)
    (passes : Passes (arrays.buf.advance (j * 33024))) :
    (unscrambleLocal sectorNo j w arrays).2.2 = true ∧
      Seedless (unscrambleLocal sectorNo j w arrays).1.disc.u := by
  obtain ⟨shown, seedless'⟩ := seedless.unscramble ⟨w.disctype, sectorNo + j.toUInt32 * 16,
    arrays.buf.advance (j * 33024), arrays.bufUnscrambled.advance (j * 32768)⟩ passes.accepts
  exact ⟨(congrArg Frame.out shown).trans (passes.out _ _), seedless'⟩

theorem HeaderDrive.filled (drive : HeaderDrive env lba) (left j : Nat) (rounds : j + left = 5)
    (w : World σ) (arrays : Locals) (before : ∀ j < 5, beforeEnd w sectorNo j = true)
    (seedless : Seedless w.disc.u) (zeros : j = 0 → ∀ i < 32768, arrays.readbuf i = 0)
    (filled : HeadedTo (headerMemory first) arrays.buf (16 * j) 80) :
    (fillBlocks env sectorNo left j w arrays).2 = true := by
  induction left generalizing j w arrays with
  | zero => rfl
  | succ left ih =>
      have block : j < 5 := by omega
      obtain ⟨w₁, readbuf, reads, same, empty⟩ : ∃ w₁ readbuf,
          readBlock env sectorNo j w arrays = (w₁, { arrays with readbuf := readbuf }, 0) ∧
            w₁.disc = w.disc ∧ ∀ i < 32768, readbuf i = 0 := by
        by_cases start : j = 0
        · exact ⟨w, arrays.readbuf, if_pos start, rfl, zeros start⟩
        · have empty := (drive.read w.drive (sectorNo + j.toUInt32 * 16) arrays.readbuf).2
          refine ⟨w.withDrive (dvdReadSectorStreaming env w.drive (sectorNo + j.toUInt32 * 16)
            (some (arrays.readbuf, 32768))).drive, _, ?_, rfl, empty⟩
          rw [readBlock, if_neg start]
          dsimp only
          rw [dvdReadSectorStreaming_out]
      have seedless₁ : Seedless w₁.disc.u := same.symm ▸ seedless
      have passes := @Locals.fill_passes first j { arrays with readbuf := readbuf } 80 (by omega) empty
        filled
      obtain ⟨success, seedless₂⟩ := @unscrambleLocal_passes _ w₁ sectorNo j _ seedless₁ passes
      have outside : ∀ a, (j + 1) * 33024 ≤ a →
          (unscrambleLocal sectorNo j w₁ (Locals.fill { arrays with readbuf := readbuf } j)).2.1.buf a =
            arrays.buf a := by
        intro a beyond
        exact (unscrambleAt_buf_outside seedless₁.formed (.inr beyond)).trans
          (Locals.fill_behind _ beyond)
      have quiet : Quiet w₁ (unscrambleLocal sectorNo j w₁
          (Locals.fill { arrays with readbuf := readbuf } j)).1 := .unscrambleAt w₁ _ _ _ _
      rw [fillBlocks, if_pos (before j block), reads]
      dsimp only
      rw [if_pos (Int.le_refl 0)]
      rcases unscrambled : unscrambleLocal sectorNo j w₁
        (Locals.fill { arrays with readbuf := readbuf } j) with ⟨w₂, arrays₂, out⟩
      rw [unscrambled] at success seedless₂ outside quiet
      cases success
      refine ih (j + 1) (by omega) w₂ arrays₂ (fun i inside => ?_) seedless₂
        (fun start => absurd start j.succ_ne_zero) fun q later within i below field => ?_
      · have still : beforeEnd w₁ sectorNo i = beforeEnd w sectorNo i := by
          rw [beforeEnd, beforeEnd, same]
        exact (quiet.beforeEnd sectorNo i).trans (still.trans (before i inside))
      · rw [outside _ (by omega)]
        exact filled q (by omega) within i below field

theorem HeaderDrive.attempt (drive : HeaderDrive env lba) (vanilla : w.disc.dvd.memdump = .vanilla2064)
    (before : ∀ j < 5, beforeEnd w sectorNo j = true) (seedless : Seedless w.disc.u) (arrays : Locals) :
    (attempt89 env (fun j w arrays => dumpHeaders8 env j 16 0 w arrays true false) sectorNo 0
      (w, arrays)).2.1 = true := by
  obtain ⟨w₁, readbuf, reads, same, address, zeros⟩ : ∃ w₁ readbuf,
      firstRead env sectorNo 0 w arrays.readbuf = (w₁, readbuf, 0) ∧ w₁.disc = w.disc ∧
        lba w₁.drive = sectorNo ∧ ∀ i < 32768, readbuf i = 0 := by
    refine ⟨(firstRead env sectorNo 0 w arrays.readbuf).1,
      (firstRead env sectorNo 0 w arrays.readbuf).2.1, Prod.ext rfl (Prod.ext rfl ?_), rfl, ?_, ?_⟩
    · exact dvdReadSectorStreaming_out env _ sectorNo (some (arrays.readbuf, 32768))
    · exact (drive.read _ sectorNo arrays.readbuf).1
    · exact (drive.read _ sectorNo arrays.readbuf).2
  have served : ServedMemory env (fun state => headerMemory (lba state)) w₁ := by
    refine ⟨?_, ?_⟩
    · rw [same, vanilla]
      exact drive.serves
    · rw [same, vanilla]
      exact .inl rfl
  have ahead : ∀ j < 5, beforeEnd w₁ sectorNo j = true := by
    intro j block
    rw [beforeEnd, same]
    exact before j block
  obtain ⟨buf, rebuilt, headers⟩ := reconstructBlocks_headed served ahead 5 0 rfl
    { arrays with readbuf := readbuf } (fun q _ none => absurd none (Nat.not_lt_zero q))
  have filled := drive.filled 5 0 rfl w₁ { arrays with readbuf := readbuf, buf := buf } ahead
    (same.symm ▸ seedless) (fun _ => zeros) headers
  rw [attempt89_firstRead, reads]
  dsimp only
  rw [if_pos (Int.le_refl 0), rebuilt]
  dsimp only
  rcases ended : fillBlocks env sectorNo 5 0 w₁ { arrays with readbuf := readbuf, buf := buf } with
    ⟨⟨w₂, arrays₂⟩, out⟩
  rw [ended] at filled
  cases filled
  rfl

/-- Method 8 reads the headers of this drive, and the blocks pass their check. -/
theorem HeaderDrive.read8 (drive : HeaderDrive env lba) (vanilla : w.disc.dvd.memdump = .vanilla2064)
    (before : ∀ j < 5, beforeEnd w sectorNo j = true) (seedless : Seedless w.disc.u) :
    (discReadSector8 env sectorNo w).2 = true := by
  have success := drive.attempt vanilla before seedless (.ofStack env w.drive)
  rcases first : attempt89 env (fun j w arrays => dumpHeaders8 env j 16 0 w arrays true false) sectorNo 0
    (w, .ofStack env w.drive) with ⟨state, out, stop⟩
  rw [first] at success
  cases success
  rw [discReadSector8]
  dsimp only
  rw [retryLoop_first first]

end HeaderReads

/-- The two methods read alike, READ by READ and try by try. -/
theorem methods_agree {σ : Type} {env : Env σ} {memory : σ → Buffer}
    (w : World (σ × List (List UInt8)))
    (addressable : w.disc.dvd.memdump = .hitachi ∨ w.disc.dvd.memdump = .vanilla2064)
    (serves : Serves env w.disc.dvd.memdump memory) (sectorNo : UInt32) :
    discReadSector9 env.recording sectorNo w = discReadSector8 env.recording sectorNo w ∧
      ∀ tries,
        (tries9 env.recording sectorNo tries w).1.1 = (tries8 env.recording sectorNo tries w).1.1 ∧
        (tries9 env.recording sectorNo tries w).1.2.buf =
          (tries8 env.recording sectorNo tries w).1.2.buf ∧
        (tries9 env.recording sectorNo tries w).2 = (tries8 env.recording sectorNo tries w).2 := by
  have bytewise : w.disc.dvd.memdump.Bytewise := by
    obtain hitachi | vanilla := addressable
    · exact .inr (.inl hitachi)
    · exact .inl vanilla
  have agree := tries_agree serves.recording bytewise sectorNo
  refine ⟨?_, fun tries => ?_⟩
  · obtain ⟨alike, same⟩ := agree 5
    exact Prod.ext alike.world same
  · obtain ⟨⟨world, ⟨tmp, arrays⟩, -⟩, same⟩ := agree tries
    exact ⟨world, by rw [arrays, Locals.withTmp_buf], same⟩

/-- Five blocks with a number in each header come through their checks with both methods. -/
theorem methods_agree_numbered :
    ∃ d, discNew ⟨.vanilla2064, 0, 2, true⟩ (fun _ _ => 0) (fun _ _ => 0)
        ⟨fun _ => ⟨0, fun _ => 0⟩, false⟩ = some d ∧
      discReadSector9 headerEnv.recording 16 (World.created (0, []) { d with sectorsNo := 96 } 0) =
        discReadSector8 headerEnv.recording 16 (World.created (0, []) { d with sectorsNo := 96 } 0) ∧
      (discReadSector9 headerEnv.recording 16
        (World.created (0, []) { d with sectorsNo := 96 } 0)).2 = true := by
  obtain ⟨d, created⟩ : ∃ d, discNew ⟨.vanilla2064, 0, 2, true⟩ (fun _ _ => 0) (fun _ _ => 0)
      ⟨fun _ => ⟨0, fun _ => 0⟩, false⟩ = some d := ⟨_, rfl⟩
  have opened : d.dvd.memdump = .vanilla2064 ∧ Seedless d.u := by
    cases created
    exact ⟨rfl, unscramblerNew_seedless _⟩
  have serves := headerEnv_drive.serves
  rw [← opened.1] at serves
  have agree := (methods_agree (World.created (0, []) { d with sectorsNo := 96 } 0) (.inr opened.1)
    serves 16).1
  refine ⟨d, created, agree, ?_⟩
  rw [agree]
  have before : ∀ j < 5, (16 : UInt32) + j.toUInt32 * 16 < 96 := by decide
  exact headerEnv_drive.recording.read8 opened.1 (fun j block => decide_eq_true (before j block)) opened.2

end Friidump
