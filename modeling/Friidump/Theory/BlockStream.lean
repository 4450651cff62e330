import Friidump.Theory.Chunks
import Mathlib.Data.List.Induction

/-!
# Streams that are taken in block by block

A chaining value takes in a block as soon as the block is complete. However the data
are cut into pieces, the value is that of their full chunks.
-/

set_option autoImplicit false

namespace Friidump.Theory

variable {S α : Type*} {size : Nat}

/-- What has been taken in, and what waits for the rest of its block. -/
@[ext]
structure BlockStream (S α : Type*) (size : Nat) where
  state : S
  waiting : List α
  short : waiting.length < size

namespace BlockStream

variable (compress : S → List α → S)

def start (init : S) (positive : 0 < size) : BlockStream S α size := ⟨init, [], positive⟩

def push (s : BlockStream S α size) (a : α) : BlockStream S α size :=
  if full : s.waiting.length + 1 = size then
    ⟨compress s.state (s.waiting ++ [a]), [], Nat.lt_of_le_of_lt (Nat.zero_le _) s.short⟩
  else
    ⟨s.state, s.waiting ++ [a], by
      have short := s.short
      rw [List.length_append, List.length_singleton]
      omega⟩

def feed (s : BlockStream S α size) (input : List α) : BlockStream S α size :=
  input.foldl (push compress) s

@[simp] theorem feed_nil (s : BlockStream S α size) : s.feed compress [] = s := rfl

@[simp] theorem feed_cons (s : BlockStream S α size) (a : α) (rest : List α) :
    s.feed compress (a :: rest) = (s.push compress a).feed compress rest := rfl

theorem feed_append (s : BlockStream S α size) (first second : List α) :
    s.feed compress (first ++ second) = (s.feed compress first).feed compress second :=
  List.foldl_append

/-! ## One element -/

theorem push_short (s : BlockStream S α size) (a : α) (fits : s.waiting.length + 1 < size) :
    (s.push compress a).state = s.state ∧ (s.push compress a).waiting = s.waiting ++ [a] := by
  rw [push, dif_neg (Nat.ne_of_lt fits)]
  exact ⟨rfl, rfl⟩

theorem push_full (s : BlockStream S α size) (a : α) (full : s.waiting.length + 1 = size) :
    (s.push compress a).state = compress s.state (s.waiting ++ [a]) ∧
      (s.push compress a).waiting = [] := by
  rw [push, dif_pos full]
  exact ⟨rfl, rfl⟩

/-! ## Pieces -/

/-- What does not complete the block waits. -/
theorem feed_short (s : BlockStream S α size) (input : List α)
    (fits : s.waiting.length + input.length < size) :
    (s.feed compress input).state = s.state ∧ (s.feed compress input).waiting = s.waiting ++ input := by
  induction input using List.reverseRecOn with
  | nil => exact ⟨rfl, (List.append_nil _).symm⟩
  | append_singleton front last ih =>
      rw [List.length_append, List.length_singleton] at fits
      obtain ⟨state, waiting⟩ := ih (by omega)
      have next : (s.feed compress front).waiting.length + 1 < size := by
        rw [waiting, List.length_append]
        omega
      obtain ⟨state', waiting'⟩ := push_short compress _ last next
      rw [feed_append, feed_cons, feed_nil, state', state, waiting', waiting, List.append_assoc]
      exact ⟨rfl, rfl⟩

/-- What completes it is taken in with what has waited. -/
theorem feed_full (s : BlockStream S α size) (input : List α)
    (fits : s.waiting.length + input.length = size) :
    (s.feed compress input).state = compress s.state (s.waiting ++ input) ∧
      (s.feed compress input).waiting = [] := by
  cases input using List.reverseRecOn with
  | nil => exact absurd fits (Nat.ne_of_lt s.short)
  | append_singleton front last =>
      rw [List.length_append, List.length_singleton] at fits
      obtain ⟨state, waiting⟩ := feed_short compress s front (by omega)
      have complete : (s.feed compress front).waiting.length + 1 = size := by
        rw [waiting, List.length_append]
        omega
      obtain ⟨state', waiting'⟩ := push_full compress _ last complete
      rw [feed_append, feed_cons, feed_nil, state', state, waiting', waiting, List.append_assoc]
      exact ⟨rfl, rfl⟩

/-- The state has taken in the full chunks of the data, and the rest waits. -/
theorem feed_start (init : S) (positive : 0 < size) (data : List α) :
    ((start init positive).feed compress data).state = (fullChunks size data).foldl compress init ∧
      ((start init positive).feed compress data).waiting = partialChunk size data := by
  induction data using List.reverseRecOn with
  | nil => simp [start, fullChunks, partialChunk]
  | append_singleton data a ih =>
      obtain ⟨state, waiting⟩ := ih
      have begun := ((start init positive).feed compress data).short
      rw [waiting] at begun
      rw [feed_append, feed_cons, feed_nil]
      by_cases full : (partialChunk size data).length + 1 = size
      · obtain ⟨chunks, rest⟩ := @chunks_append_full _ size data [a] positive full
        obtain ⟨state', waiting'⟩ := push_full compress ((start init positive).feed compress data) a
          (waiting ▸ full)
        rw [state', waiting', state, waiting, chunks, rest, List.foldl_append]
        exact ⟨rfl, rfl⟩
      · have fits : (partialChunk size data).length + 1 < size := by omega
        obtain ⟨chunks, rest⟩ := @chunks_append_short _ size data [a] fits
        obtain ⟨state', waiting'⟩ := push_short compress ((start init positive).feed compress data) a
          (waiting ▸ fits)
        rw [state', waiting', state, waiting, chunks, rest]
        exact ⟨rfl, rfl⟩

end BlockStream

end Friidump.Theory
