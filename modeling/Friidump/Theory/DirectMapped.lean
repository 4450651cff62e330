import Mathlib.Data.List.Basic
import Mathlib.Logic.Function.Basic

/-!
# Direct-mapped memories

Every key has one place, and an entry replaces whatever was in its place. A
history of insertions has the latest one first.
-/

set_option autoImplicit false

namespace Friidump.Theory

variable {K V P : Type*} [DecidableEq P]

/-- The cells after the insertions of a history. -/
def insertAll (place : K → P) (cells : P → K × V) : List (K × V) → P → K × V
  | [] => cells
  | entry :: earlier => Function.update (insertAll place cells earlier) (place entry.1) entry

theorem insertAll_apply (place : K → P) (cells : P → K × V) (history : List (K × V)) (p : P) :
    insertAll place cells history p =
      (history.find? fun entry => place entry.1 = p).getD (cells p) := by
  induction history with
  | nil => rfl
  | cons entry earlier ih =>
      rw [insertAll]
      by_cases here : place entry.1 = p
      · simp [here, Function.update]
      · rw [Function.update_of_ne (Ne.symm here), ih]
        simp [here]

theorem insertAll_append (place : K → P) (cells : P → K × V) (later earlier : List (K × V)) :
    insertAll place cells (later ++ earlier) =
      insertAll place (insertAll place cells earlier) later := by
  induction later with
  | nil => rfl
  | cons entry later ih => simp [insertAll, ih]

variable [DecidableEq K]

def fetch (place : K → P) (cells : P → K × V) (key : K) : Option V :=
  if (cells (place key)).1 = key then some (cells (place key)).2 else none

/-- The map that a direct-mapped memory stands for: of the insertions that share the place
of the key the latest one counts, if it was made for this key. -/
def lastWriter (place : K → P) (history : List (K × V)) (key : K) : Option V :=
  match history.find? fun entry => place entry.1 = place key with
  | none => none
  | some entry => if entry.1 = key then some entry.2 else none

/-- While the key itself does not stand in an untouched cell, the memory is the map. -/
theorem fetch_insertAll (place : K → P) {cells : P → K × V} {key : K}
    (absent : (cells (place key)).1 ≠ key) (history : List (K × V)) :
    fetch place (insertAll place cells history) key = lastWriter place history key := by
  rw [fetch, insertAll_apply, lastWriter]
  cases history.find? fun entry => place entry.1 = place key with
  | none => simp [absent]
  | some entry => simp

/-- An entry is found if none of the later ones falls on its place. -/
theorem fetch_of_last (place : K → P) (cells : P → K × V) {later earlier : List (K × V)}
    {entry : K × V} (apart : ∀ other ∈ later, place other.1 ≠ place entry.1) :
    fetch place (insertAll place cells (later ++ entry :: earlier)) entry.1 = some entry.2 := by
  have none_later : later.find? (fun other => place other.1 = place entry.1) = none := by
    simpa using apart
  simp [fetch, insertAll_apply, none_later]

/-- Entries with places of their own are all found. -/
theorem fetch_of_apart (place : K → P) (cells : P → K × V) {history : List (K × V)}
    (apart : history.Pairwise fun newer older => place newer.1 ≠ place older.1) :
    ∀ entry ∈ history, fetch place (insertAll place cells history) entry.1 = some entry.2 := by
  intro entry member
  obtain ⟨later, earlier, rfl⟩ := List.append_of_mem member
  exact fetch_of_last place cells fun other newer =>
    (List.pairwise_append.mp apart).2.2 other newer entry List.mem_cons_self

end Friidump.Theory
