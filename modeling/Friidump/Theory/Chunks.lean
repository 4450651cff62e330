import Mathlib.Data.List.Basic

/-!
# Cutting a list into chunks

A stream that is cut into chunks of one size: the full chunks so far, and the
part of the next one that is there already.
-/

set_option autoImplicit false

namespace Friidump.Theory

variable {α : Type*} {size : Nat} {data more : List α}

def fullChunks (size : Nat) (data : List α) : List (List α) :=
  (List.range (data.length / size)).map fun i => (data.drop (i * size)).take size

def partialChunk (size : Nat) (data : List α) : List α := data.drop (data.length / size * size)

@[simp] theorem length_fullChunks (size : Nat) (data : List α) :
    (fullChunks size data).length = data.length / size := by
  simp [fullChunks]

@[simp] theorem length_partialChunk (size : Nat) (data : List α) :
    (partialChunk size data).length = data.length % size := by
  rw [partialChunk, List.length_drop, Nat.mod_eq_sub_div_mul]

theorem partialChunk_of_lt (short : data.length < size) : partialChunk size data = data := by
  simp [partialChunk, Nat.div_eq_of_lt short]

private theorem chunk_append {i : Nat} (inside : (i + 1) * size ≤ data.length) :
    ((data ++ more).drop (i * size)).take size = (data.drop (i * size)).take size := by
  rw [Nat.succ_mul] at inside
  rw [List.drop_append_of_le_length (by omega), List.take_append_of_le_length]
  rw [List.length_drop]
  omega

private theorem earlier_chunks (size : Nat) (data more : List α) :
    ((List.range (data.length / size)).map fun i => ((data ++ more).drop (i * size)).take size) =
      fullChunks size data := by
  refine List.map_congr_left fun i member => chunk_append ?_
  have before : i + 1 ≤ data.length / size := List.mem_range.mp member
  exact Nat.le_trans (Nat.mul_le_mul_right size before) (Nat.div_mul_le_self ..)

private theorem drop_append (size : Nat) (data more : List α) :
    (data ++ more).drop (data.length / size * size) = partialChunk size data ++ more :=
  List.drop_append_of_le_length (Nat.div_mul_le_self ..)

/-- What does not fill up the chunk begun goes behind it. -/
theorem chunks_append_short (short : (partialChunk size data).length + more.length < size) :
    fullChunks size (data ++ more) = fullChunks size data ∧
      partialChunk size (data ++ more) = partialChunk size data ++ more := by
  rw [length_partialChunk] at short
  have count : (data ++ more).length / size = data.length / size := by
    rw [List.length_append]
    conv_lhs => rw [← Nat.div_add_mod data.length size, Nat.add_assoc]
    rw [Nat.mul_add_div (by omega), Nat.div_eq_of_lt short, Nat.add_zero]
  constructor
  · rw [fullChunks, count, earlier_chunks]
  · rw [partialChunk, count, drop_append]

/-- What fills it up makes one more chunk. -/
theorem chunks_append_full (positive : 0 < size)
    (full : (partialChunk size data).length + more.length = size) :
    fullChunks size (data ++ more) = fullChunks size data ++ [partialChunk size data ++ more] ∧
      partialChunk size (data ++ more) = [] := by
  have count : (data ++ more).length / size = data.length / size + 1 := by
    rw [length_partialChunk] at full
    rw [List.length_append]
    conv_lhs => rw [← Nat.div_add_mod data.length size, Nat.add_assoc, full]
    rw [Nat.mul_add_div positive, Nat.div_self positive]
  have whole : (partialChunk size data ++ more).length ≤ size :=
    Nat.le_of_eq (List.length_append.trans full)
  constructor
  · rw [fullChunks, count, List.range_succ, List.map_append, earlier_chunks, List.map_singleton,
      drop_append, List.take_of_length_le whole]
  · rw [partialChunk, count, Nat.succ_mul, ← List.drop_drop, drop_append, List.drop_of_length_le whole]

end Friidump.Theory
