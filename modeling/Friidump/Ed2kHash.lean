import Friidump.Md4

/-!
# The ed2k hash

`edonkey.c` over an incremental hash, which `md4.c` is one of.
-/

set_option autoImplicit false

namespace Friidump

open Theory (fullChunks partialChunk)

/-- `md4_starts`, `md4_update` and `md4_finish` on contexts of some type. -/
structure Md4Functions (Ctx : Type) where
  starts : Ctx → Ctx
  update : Ctx → List UInt8 → Ctx
  finish : Ctx → Ctx × List UInt8

/-- The context of the ed2k hash. Between two rounds its chunk is never full. -/
structure Ed2kContext (Ctx : Type) where
  bytesProcessed : Nat
  within : bytesProcessed < 9728000
  chunks : UInt32
  md4cur : Ctx
  md4final : Ctx
  lastmd4 : List UInt8

section Code

variable {Ctx : Type} (m : Md4Functions Ctx)

/-- The two inner contexts and the last digest are what the memory held before. -/
def ed2khashStarts (md4cur md4final : Ctx) (lastmd4 : List UInt8) : Ed2kContext Ctx where
  bytesProcessed := 0
  within := by decide
  chunks := 0
  md4cur := m.starts md4cur
  md4final := m.starts md4final
  lastmd4 := lastmd4

/-- `x`, the bytes of the input that go to the chunk begun. -/
def Ed2kContext.share (ctx : Ed2kContext Ctx) (ilen : Nat) : Nat :=
  if 9728000 ≤ ctx.bytesProcessed + ilen then 9728000 - ctx.bytesProcessed else ilen

theorem Ed2kContext.share_le (ctx : Ed2kContext Ctx) (ilen : Nat) :
    ctx.bytesProcessed + ctx.share ilen ≤ 9728000 ∧ ctx.share ilen ≤ ilen ∧
      (0 < ilen → 0 < ctx.share ilen) := by
  have within := ctx.within
  unfold Ed2kContext.share
  split <;> omega

/-- A round of the loop of `ed2khash_update`. -/
def Ed2kContext.round (ctx : Ed2kContext Ctx) (input : List UInt8) : Ed2kContext Ctx :=
  let x := ctx.share input.length
  let md4cur := m.update ctx.md4cur (input.take x)
  if boundary : (ctx.bytesProcessed + x) % 9728000 = 0 then
    let (md4cur, lastmd4) := m.finish md4cur
    { bytesProcessed := 0
      within := by decide
      chunks := ctx.chunks + 1
      md4cur := m.starts md4cur
      md4final := m.update ctx.md4final lastmd4
      lastmd4 := lastmd4 }
  else
    { ctx with
      bytesProcessed := ctx.bytesProcessed + x
      within := by
        have upper := (ctx.share_le input.length).1
        omega
      md4cur := md4cur }

def ed2khashUpdate (ctx : Ed2kContext Ctx) (input : List UInt8) : Ed2kContext Ctx :=
  if 0 < input.length then
    ed2khashUpdate (ctx.round m input) (input.drop (ctx.share input.length))
  else ctx
termination_by input.length
decreasing_by
  have positive := (ctx.share_le input.length).2.2 ‹_›
  rw [List.length_drop]
  omega

/-- The output of `ed2khash_finish`. -/
def ed2khashFinish (ctx : Ed2kContext Ctx) : List UInt8 :=
  if 0 < ctx.chunks then (m.finish (m.update ctx.md4final (m.finish ctx.md4cur).2)).2
  else (m.finish ctx.md4cur).2

/-- A whole run, with the data in the given pieces. -/
def ed2khash (md4cur md4final : Ctx) (lastmd4 : List UInt8) (pieces : List (List UInt8)) : List UInt8 :=
  ed2khashFinish m (pieces.foldl (ed2khashUpdate m) (ed2khashStarts m md4cur md4final lastmd4))

end Code

/-! ## The two hashes -/

/-- Whatever pieces the data come in, the digest is the hash of the data. A piece is
shorter than 2 GiB, its length being an `int`. -/
structure Incremental {Ctx : Type} (m : Md4Functions Ctx) (hash : List UInt8 → List UInt8) : Prop where
  digest : ∀ ctx (pieces : List (List UInt8)), (∀ piece ∈ pieces, piece.length < 2 ^ 31) →
    (m.finish (pieces.foldl m.update (m.starts ctx))).2 = hash pieces.flatten
  size : ∀ data, (hash data).length = 16

/-- The hash list of the full chunks and the rest is hashed, if there is a full chunk. -/
def ed2kHash (hash : List UInt8 → List UInt8) (data : List UInt8) : List UInt8 :=
  if data.length < 9728000 then hash data
  else hash ((fullChunks 9728000 data).flatMap hash ++ hash (partialChunk 9728000 data))

/-- `md4.c`. -/
def md4Functions : Md4Functions Md4Context := ⟨md4Starts, md4Update, md4Finish⟩

theorem md4Functions_incremental : Incremental md4Functions md4 where
  digest ctx pieces small := by
    have absorbed : ∀ {data} {ctx : Md4Context}, ctx.Absorbed data →
        (pieces.foldl md4Update ctx).Absorbed (data ++ pieces.flatten) := by
      induction pieces with
      | nil =>
          intro data ctx absorbed
          rw [List.flatten_nil, List.append_nil]
          exact absorbed
      | cons piece pieces ih =>
          intro data ctx absorbed
          have first := absorbed.update (small piece List.mem_cons_self)
          rw [List.flatten_cons, ← List.append_assoc]
          exact ih (fun piece member => small piece (List.mem_cons_of_mem _ member)) first
    exact md4Finish_digest (absorbed (md4Starts_absorbed ctx))
  size := length_md4

/-! ## Runs -/

section Runs

variable {Ctx : Type} {m : Md4Functions Ctx} {hash : List UInt8 → List UInt8} {data : List UInt8}

/-- The inner context has been fed these data since its start. -/
def Md4Functions.Fed (m : Md4Functions Ctx) (ctx : Ctx) (data : List UInt8) : Prop :=
  ∃ (memory : Ctx) (pieces : List (List UInt8)),
    ctx = pieces.foldl m.update (m.starts memory) ∧ pieces.flatten = data ∧
      ∀ piece ∈ pieces, piece.length < 2 ^ 31

theorem Md4Functions.fed_starts (m : Md4Functions Ctx) (memory : Ctx) : m.Fed (m.starts memory) [] :=
  ⟨memory, [], rfl, rfl, nofun⟩

theorem Md4Functions.Fed.update {ctx : Ctx} (fed : m.Fed ctx data) {input : List UInt8}
    (small : input.length < 2 ^ 31) : m.Fed (m.update ctx input) (data ++ input) := by
  obtain ⟨memory, pieces, rfl, rfl, bounded⟩ := fed
  refine ⟨memory, pieces ++ [input], by simp, by simp, fun piece member => ?_⟩
  rcases List.mem_append.mp member with earlier | last
  · exact bounded piece earlier
  · obtain rfl := List.mem_singleton.mp last
    exact small

theorem Incremental.finish (incremental : Incremental m hash) {ctx : Ctx} (fed : m.Fed ctx data) :
    (m.finish ctx).2 = hash data := by
  obtain ⟨memory, pieces, rfl, rfl, bounded⟩ := fed
  exact incremental.digest memory pieces bounded

/-- What the context says of the data so far. -/
structure Ed2kContext.Absorbed (m : Md4Functions Ctx) (hash : List UInt8 → List UInt8)
    (ctx : Ed2kContext Ctx) (data : List UInt8) : Prop where
  chunks : ctx.chunks = (data.length / 9728000).toUInt32
  bytesProcessed : ctx.bytesProcessed = data.length % 9728000
  md4cur : m.Fed ctx.md4cur (partialChunk 9728000 data)
  md4final : m.Fed ctx.md4final ((fullChunks 9728000 data).flatMap hash)

theorem ed2khashStarts_absorbed (m : Md4Functions Ctx) (hash : List UInt8 → List UInt8)
    (md4cur md4final : Ctx) (lastmd4 : List UInt8) :
    (ed2khashStarts m md4cur md4final lastmd4).Absorbed m hash [] where
  chunks := rfl
  bytesProcessed := rfl
  md4cur := m.fed_starts md4cur
  md4final := m.fed_starts md4final

theorem Ed2kContext.Absorbed.round (incremental : Incremental m hash) {ctx : Ed2kContext Ctx}
    (absorbed : ctx.Absorbed m hash data) {input : List UInt8} (some : 0 < input.length) :
    (ctx.round m input).Absorbed m hash (data ++ input.take (ctx.share input.length)) := by
  obtain ⟨upper, enough, positive⟩ := ctx.share_le input.length
  have least := positive some
  have taken : (input.take (ctx.share input.length)).length = ctx.share input.length :=
    List.length_take_of_le enough
  have small : (input.take (ctx.share input.length)).length < 2 ^ 31 := by omega
  have waiting : (partialChunk 9728000 data).length = ctx.bytesProcessed :=
    (Theory.length_partialChunk 9728000 data).trans absorbed.bytesProcessed.symm
  have fed := absorbed.md4cur.update small
  unfold Ed2kContext.round
  dsimp only
  split
  · rename_i boundary
    generalize input.take (ctx.share input.length) = x at taken fed ⊢
    have full : (partialChunk 9728000 data).length + x.length = 9728000 := by omega
    obtain ⟨chunks, none⟩ := Theory.chunks_append_full (by decide) full
    have count : (data ++ x).length / 9728000 = data.length / 9728000 + 1 := by
      rw [← Theory.length_fullChunks, chunks, List.length_append, Theory.length_fullChunks]
      rfl
    have digest := incremental.finish fed
    have short : (hash (partialChunk 9728000 data ++ x)).length < 2 ^ 31 := by
      rw [incremental.size]
      decide
    refine ⟨?_, ?_, ?_, ?_⟩
    · rw [count, absorbed.chunks]
      exact (UInt32.ofNat_add _ 1).symm
    · rw [← Theory.length_partialChunk, none]
      rfl
    · rw [none]
      exact m.fed_starts _
    · rw [chunks, List.flatMap_append, digest, List.flatMap_singleton]
      exact absorbed.md4final.update short
  · rename_i inside
    generalize input.take (ctx.share input.length) = x at taken fed ⊢
    have short : (partialChunk 9728000 data).length + x.length < 9728000 := by omega
    obtain ⟨chunks, behind⟩ := Theory.chunks_append_short short
    refine ⟨?_, ?_, ?_, ?_⟩
    · rw [← Theory.length_fullChunks, chunks, Theory.length_fullChunks]
      exact absorbed.chunks
    · rw [← Theory.length_partialChunk, behind, List.length_append, waiting, taken]
    · rw [behind]
      exact fed
    · rw [chunks]
      exact absorbed.md4final

theorem Ed2kContext.Absorbed.update (incremental : Incremental m hash) {ctx : Ed2kContext Ctx}
    (absorbed : ctx.Absorbed m hash data) (input : List UInt8) :
    (ed2khashUpdate m ctx input).Absorbed m hash (data ++ input) := by
  induction ctx, input using ed2khashUpdate.induct m generalizing data with
  | case1 ctx input some ih =>
      have next := ih (absorbed.round incremental some)
      rw [List.append_assoc, List.take_append_drop] at next
      rw [ed2khashUpdate, if_pos some]
      exact next
  | case2 ctx input none =>
      have empty : input = [] := List.eq_nil_of_length_eq_zero (by omega)
      rw [ed2khashUpdate, if_neg none, empty, List.append_nil]
      exact absorbed

theorem Ed2kContext.Absorbed.updates (incremental : Incremental m hash) {ctx : Ed2kContext Ctx}
    (absorbed : ctx.Absorbed m hash data) (pieces : List (List UInt8)) :
    (pieces.foldl (ed2khashUpdate m) ctx).Absorbed m hash (data ++ pieces.flatten) := by
  induction pieces generalizing ctx data with
  | nil => simpa using absorbed
  | cons piece pieces ih =>
      have next := ih (absorbed.update incremental piece)
      rwa [List.append_assoc] at next

/-- With the number of chunks at zero, `ed2khash_finish` hashes the rest alone. -/
theorem Ed2kContext.Absorbed.finish (incremental : Incremental m hash) {ctx : Ed2kContext Ctx}
    (absorbed : ctx.Absorbed m hash data) :
    ed2khashFinish m ctx =
      if data.length / 9728000 % 2 ^ 32 = 0 then hash (partialChunk 9728000 data)
      else hash ((fullChunks 9728000 data).flatMap hash ++ hash (partialChunk 9728000 data)) := by
  have counted : 0 < ctx.chunks ↔ ¬ data.length / 9728000 % 2 ^ 32 = 0 := by
    rw [UInt32.lt_iff_toNat_lt, absorbed.chunks]
    exact Nat.pos_iff_ne_zero
  have rest := incremental.finish absorbed.md4cur
  have short : (hash (partialChunk 9728000 data)).length < 2 ^ 31 := by
    rw [incremental.size]
    decide
  unfold ed2khashFinish
  rw [rest]
  by_cases zero : data.length / 9728000 % 2 ^ 32 = 0
  · rw [if_neg fun some => counted.mp some zero, if_pos zero]
  · rw [if_pos (counted.mpr zero), if_neg zero]
    exact incremental.finish (absorbed.md4final.update short)

/-- What a run returns, whatever pieces the data come in. -/
theorem ed2khash_eq (incremental : Incremental m hash) (md4cur md4final : Ctx) (lastmd4 : List UInt8)
    (pieces : List (List UInt8)) :
    ed2khash m md4cur md4final lastmd4 pieces =
      if pieces.flatten.length / 9728000 % 2 ^ 32 = 0 then hash (partialChunk 9728000 pieces.flatten)
      else hash ((fullChunks 9728000 pieces.flatten).flatMap hash ++
        hash (partialChunk 9728000 pieces.flatten)) :=
  ((ed2khashStarts_absorbed m hash md4cur md4final lastmd4).updates incremental pieces).finish incremental

theorem Incremental.ed2khash (incremental : Incremental m hash) (md4cur md4final : Ctx)
    (lastmd4 : List UInt8) {pieces : List (List UInt8)}
    (counted : pieces.flatten.length < 9728000 ∨ pieces.flatten.length / 9728000 % 2 ^ 32 ≠ 0) :
    ed2khash m md4cur md4final lastmd4 pieces = ed2kHash hash pieces.flatten := by
  rw [ed2khash_eq incremental, ed2kHash]
  by_cases short : pieces.flatten.length < 9728000
  · have none : pieces.flatten.length / 9728000 % 2 ^ 32 = 0 := by omega
    rw [if_pos none, if_pos short, Theory.partialChunk_of_lt short]
  · rw [if_neg (counted.resolve_left short), if_neg short]

end Runs

/-- With the functions of `md4.c`. -/
theorem ed2khash_md4 (md4cur md4final : Md4Context) (lastmd4 : List UInt8) {pieces : List (List UInt8)}
    (few : pieces.flatten.length / 9728000 < 2 ^ 32) :
    ed2khash md4Functions md4cur md4final lastmd4 pieces = ed2kHash md4 pieces.flatten :=
  md4Functions_incremental.ed2khash md4cur md4final lastmd4 (by omega)

/-! ## When it is the ed2k hash -/

/-- Over every incremental hash and in whatever pieces the data come, the result is
their ed2k hash. -/
def HashesRightly (data : List UInt8) : Prop :=
  ∀ (Ctx : Type) (m : Md4Functions Ctx) (hash : List UInt8 → List UInt8), Incremental m hash →
    ∀ (md4cur md4final : Ctx) (lastmd4 : List UInt8) (pieces : List (List UInt8)),
      pieces.flatten = data → (∀ piece ∈ pieces, piece.length < 2 ^ 31) →
        ed2khash m md4cur md4final lastmd4 pieces = ed2kHash hash data

/-- A hash that keeps all its data until the end. -/
private def recorder (hash : List UInt8 → List UInt8) : Md4Functions (List UInt8) where
  starts _ := []
  update ctx input := ctx ++ input
  finish ctx := (ctx, hash ctx)

private theorem recorder_foldl (hash : List UInt8 → List UInt8) (pieces : List (List UInt8))
    (data : List UInt8) : pieces.foldl (recorder hash).update data = data ++ pieces.flatten := by
  induction pieces generalizing data with
  | nil => simp
  | cons piece pieces ih => exact (ih (data ++ piece)).trans (List.append_assoc ..)

private theorem recorder_incremental {hash : List UInt8 → List UInt8}
    (size : ∀ data, (hash data).length = 16) : Incremental (recorder hash) hash where
  digest _ pieces _ := congrArg hash (recorder_foldl hash pieces [])
  size := size

private theorem length_digests {hash : List UInt8 → List UInt8} (size : ∀ data, (hash data).length = 16)
    (chunks : List (List UInt8)) : (chunks.flatMap hash).length = 16 * chunks.length := by
  induction chunks with
  | nil => rfl
  | cons chunk chunks ih =>
      rw [List.flatMap_cons, List.length_append, size, ih, List.length_cons]
      omega

/-- A hash that tells some bytes from all others. -/
private def marking (rest bytes : List UInt8) : List UInt8 :=
  List.replicate 16 (if bytes = rest then 1 else 0)

private theorem length_marking (rest bytes : List UInt8) : (marking rest bytes).length = 16 :=
  List.length_replicate

private theorem eq_of_marking_eq {rest bytes : List UInt8} (same : marking rest rest = marking rest bytes) :
    bytes = rest := by
  by_contra other
  simp [marking, other] at same

/-- The number of full chunks is kept in 32 bits, and a multiple of `2 ^ 32` of them is
taken for none. -/
theorem hashesRightly_iff (data : List UInt8) :
    HashesRightly data ↔ data.length < 9728000 ∨ data.length / 9728000 % 2 ^ 32 ≠ 0 := by
  constructor
  · intro rightly
    by_contra neither
    obtain ⟨long, zero⟩ := not_or.mp neither
    have wraps : data.length / 9728000 % 2 ^ 32 = 0 := not_not.mp zero
    have size := length_marking (partialChunk 9728000 data)
    have cut : (data.map fun byte => [byte]).flatten = data := List.flatMap_singleton' data
    have same := rightly _ (recorder (marking (partialChunk 9728000 data))) _ (recorder_incremental size)
      [] [] [] (data.map fun byte => [byte]) cut (by simp)
    rw [ed2khash_eq (recorder_incremental size), cut, if_pos wraps, ed2kHash, if_neg long] at same
    -- The digests of so many chunks are longer than a chunk.
    have lengths := congrArg List.length (eq_of_marking_eq same)
    rw [List.length_append, length_digests size, Theory.length_fullChunks, size,
      Theory.length_partialChunk] at lengths
    omega
  · rintro counted Ctx m hash incremental md4cur md4final lastmd4 pieces rfl _
    exact incremental.ed2khash md4cur md4final lastmd4 counted

private theorem not_hashesRightly_of_length {data : List UInt8} (length : data.length = 41781441855488000) :
    ¬ HashesRightly data := by
  rw [hashesRightly_iff, length]
  decide

/-- As many chunks of zeros as bring the count back to zero. -/
theorem hashesRightly_fails_wrapped : ¬ HashesRightly (List.replicate 41781441855488000 0) :=
  not_hashesRightly_of_length List.length_replicate

end Friidump
