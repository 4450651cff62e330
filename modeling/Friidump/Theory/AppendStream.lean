import Mathlib.Algebra.Group.Nat.Defs
import Mathlib.Data.List.Basic

/-!
# Buffered streams that append

A file, the items that wait in the buffer of its stream, and the ways a call can
end. The file is to be a prefix of a given list at every moment, of records of one
size for example.
-/

set_option autoImplicit false

namespace Friidump.Theory

/-! ## Records of one size -/

def records {α : Type} (record : Nat → List α) (n : Nat) : List α := (List.range n).flatMap record

section Records

variable {α : Type} {record : Nat → List α} {size m n : Nat}

theorem records_succ (record : Nat → List α) (n : Nat) :
    records record (n + 1) = records record n ++ record n := by
  rw [records, List.range_succ, List.flatMap_append, List.flatMap_singleton]
  rfl

theorem length_records (uniform : ∀ i, (record i).length = size) (n : Nat) :
    (records record n).length = n * size := by
  induction n with
  | zero => exact (Nat.zero_mul size).symm
  | succ n ih => rw [records_succ, List.length_append, ih, uniform, Nat.succ_mul]

theorem records_mono (record : Nat → List α) (le : m ≤ n) :
    records record m <+: records record n := by
  induction le with
  | refl => exact List.prefix_refl _
  | step _ ih =>
      rw [records_succ]
      exact ih.trans (List.prefix_append _ _)

/-- A file that is long enough begins with whole records. -/
theorem take_records (uniform : ∀ i, (record i).length = size) (positive : 0 < size)
    {file : List α} (start : file <+: records record n) (enough : m * size ≤ file.length) :
    file.take (m * size) = records record m := by
  have length := length_records uniform n
  have le : m ≤ n := by
    have total := Nat.le_trans enough start.length_le
    rw [length] at total
    exact Nat.le_of_mul_le_mul_right total positive
  have shorter : (records record m).length ≤ file.length := by
    rw [length_records uniform]
    exact enough
  have inside := List.prefix_of_prefix_length_le (records_mono record le) start shorter
  rw [List.prefix_iff_eq_take, length_records uniform] at inside
  exact inside.symm

end Records

/-! ## Streams -/

/-- How a write ends. So many of the waiting items go out; after an error the others
stay in the buffer or are dropped. -/
inductive WriteReply
  | accepted (out : Nat)
  | kept (out : Nat)
  | dropped (out : Nat)
deriving DecidableEq, Repr

/-- How a flush ends: all items go out, or only some and the others stay or are dropped. -/
inductive FlushReply
  | flushed
  | kept (out : Nat)
  | dropped (out : Nat)
deriving DecidableEq, Repr

/-- `history` holds the contents the file has had, the last one first. -/
structure AppendStream (α : Type) where
  file : List α
  pending : List α
  error : Bool
  history : List (List α)

namespace AppendStream

variable {α : Type}

def opened (file : List α) : AppendStream α :=
  { file := file, pending := [], error := false, history := [file] }

/-- `out` items of a buffer go to the file. -/
def deliver (stream : AppendStream α) (buffer : List α) (out : Nat) (keep error : Bool) :
    AppendStream α :=
  { file := stream.file ++ buffer.take out
    pending := if keep then buffer.drop out else []
    error := error
    history := (stream.file ++ buffer.take out) :: stream.history }

def write (stream : AppendStream α) (items : List α) : WriteReply → AppendStream α
  | .accepted out => stream.deliver (stream.pending ++ items) out true stream.error
  | .kept out => stream.deliver (stream.pending ++ items) out true true
  | .dropped out => stream.deliver (stream.pending ++ items) out false true

def flush (stream : AppendStream α) : FlushReply → AppendStream α
  | .flushed => stream.deliver stream.pending stream.pending.length true stream.error
  | .kept out => stream.deliver stream.pending out true true
  | .dropped out => stream.deliver stream.pending out false true

def close (stream : AppendStream α) (reply : FlushReply) : AppendStream α :=
  { stream.flush reply with pending := [] }

def clearError (stream : AppendStream α) : AppendStream α := { stream with error := false }

def resize (stream : AppendStream α) (file : List α) : AppendStream α :=
  { stream with file := file, history := file :: stream.history }

/-- What the file will hold if nothing is dropped. -/
def content (stream : AppendStream α) : List α := stream.file ++ stream.pending

/-! ## Nothing dropped -/

theorem deliver_content (stream : AppendStream α) (buffer : List α) (out : Nat) (error : Bool) :
    (stream.deliver buffer out true error).content = stream.file ++ buffer := by
  simp only [deliver, content, if_true, List.append_assoc, List.take_append_drop]

theorem write_content (stream : AppendStream α) (items : List α) {reply : WriteReply}
    (whole : ∀ out, reply ≠ .dropped out) :
    (stream.write items reply).content = stream.content ++ items := by
  cases reply with
  | accepted out => exact (deliver_content ..).trans (List.append_assoc ..).symm
  | kept out => exact (deliver_content ..).trans (List.append_assoc ..).symm
  | dropped out => exact absurd rfl (whole out)

theorem write_accepted (stream : AppendStream α) (items : List α) {reply : WriteReply}
    (fine : (stream.write items reply).error = false) :
    (stream.write items reply).content = stream.content ++ items := by
  refine write_content stream items ?_
  rintro out rfl
  cases fine

theorem flush_content (stream : AppendStream α) {reply : FlushReply}
    (whole : ∀ out, reply ≠ .dropped out) : (stream.flush reply).content = stream.content := by
  cases reply with
  | flushed => exact deliver_content ..
  | kept out => exact deliver_content ..
  | dropped out => exact absurd rfl (whole out)

theorem close_file (stream : AppendStream α) : (stream.close .flushed).file = stream.content := by
  simp only [close, flush, deliver, content, List.take_length]

/-! ## Prefixes of a list -/

/-- The file has never held anything but a prefix of the list, nor will the buffer change that. -/
structure Within (full : List α) (stream : AppendStream α) : Prop where
  content : stream.content <+: full
  history : ∀ file ∈ stream.history, file <+: full

variable {full : List α} {stream : AppendStream α}

theorem within_opened {file : List α} (start : file <+: full) : Within full (opened file) where
  content := by
    rw [content, opened, List.append_nil]
    exact start
  history _ member := by
    cases List.mem_singleton.mp member
    exact start

theorem Within.clearError (within : Within full stream) : Within full stream.clearError :=
  ⟨within.content, within.history⟩

theorem Within.deliver (within : Within full stream) {buffer : List α}
    (next : stream.file ++ buffer <+: full) (out : Nat) (keep error : Bool) :
    Within full (stream.deliver buffer out keep error) := by
  have out_within : stream.file ++ buffer.take out <+: full :=
    ((List.prefix_append_right_inj _).mpr (List.take_prefix out buffer)).trans next
  constructor
  · cases keep with
    | true =>
        rw [deliver_content]
        exact next
    | false =>
        rw [AppendStream.content, AppendStream.deliver, if_neg Bool.false_ne_true, List.append_nil]
        exact out_within
  · intro file member
    cases List.mem_cons.mp member with
    | inl last => exact last ▸ out_within
    | inr earlier => exact within.history file earlier

theorem Within.write (within : Within full stream) {items : List α}
    (next : stream.content ++ items <+: full) (reply : WriteReply) :
    Within full (stream.write items reply) := by
  rw [AppendStream.content, List.append_assoc] at next
  cases reply with
  | accepted out => exact within.deliver next ..
  | kept out => exact within.deliver next ..
  | dropped out => exact within.deliver next ..

theorem Within.flush (within : Within full stream) (reply : FlushReply) :
    Within full (stream.flush reply) := by
  cases reply with
  | flushed => exact within.deliver within.content ..
  | kept out => exact within.deliver within.content ..
  | dropped out => exact within.deliver within.content ..

theorem Within.close (within : Within full stream) (reply : FlushReply) :
    Within full (stream.close reply) where
  content := by
    have flushed := (within.flush reply).content
    rw [AppendStream.content] at flushed
    rw [AppendStream.content, AppendStream.close, List.append_nil]
    exact (List.prefix_append _ _).trans flushed
  history := (within.flush reply).history

theorem Within.resize (within : Within full stream) {file : List α} (start : file <+: full)
    (empty : stream.pending = []) : Within full (stream.resize file) where
  content := by
    rw [AppendStream.content, AppendStream.resize, empty, List.append_nil]
    exact start
  history content member := by
    cases List.mem_cons.mp member with
    | inl last => exact last ▸ start
    | inr earlier => exact within.history content earlier

/-! ## Properties that pass to prefixes -/

/-- The file has only held lists with the property, and the buffer will not change that. -/
structure Keeps (P : List α → Prop) (stream : AppendStream α) : Prop where
  content : P stream.content
  history : ∀ file ∈ stream.history, P file

section Keeps

variable {P : List α → Prop}

theorem keeps_opened {file : List α} (start : P file) : Keeps P (opened file) where
  content := by
    rw [content, opened, List.append_nil]
    exact start
  history _ member := by
    cases List.mem_singleton.mp member
    exact start

theorem Keeps.clearError (keeps : Keeps P stream) : Keeps P stream.clearError :=
  ⟨keeps.content, keeps.history⟩

theorem Keeps.resize (keeps : Keeps P stream) {file : List α} (start : P file)
    (empty : stream.pending = []) : Keeps P (stream.resize file) where
  content := by
    rw [AppendStream.content, AppendStream.resize, empty, List.append_nil]
    exact start
  history content member := by
    cases List.mem_cons.mp member with
    | inl last => exact last ▸ start
    | inr earlier => exact keeps.history content earlier

variable (closed : ∀ short long, short <+: long → P long → P short)

include closed

theorem Keeps.deliver (keeps : Keeps P stream) {buffer : List α} (next : P (stream.file ++ buffer))
    (out : Nat) (keep error : Bool) : Keeps P (stream.deliver buffer out keep error) := by
  have written : P (stream.file ++ buffer.take out) :=
    closed _ _ ((List.prefix_append_right_inj _).mpr (List.take_prefix out buffer)) next
  constructor
  · cases keep with
    | true =>
        rw [deliver_content]
        exact next
    | false =>
        rw [AppendStream.content, AppendStream.deliver, if_neg Bool.false_ne_true, List.append_nil]
        exact written
  · intro file member
    cases List.mem_cons.mp member with
    | inl last => exact last ▸ written
    | inr earlier => exact keeps.history file earlier

theorem Keeps.write (keeps : Keeps P stream) {items : List α} (next : P (stream.content ++ items))
    (reply : WriteReply) : Keeps P (stream.write items reply) := by
  rw [AppendStream.content, List.append_assoc] at next
  cases reply with
  | accepted out => exact keeps.deliver closed next ..
  | kept out => exact keeps.deliver closed next ..
  | dropped out => exact keeps.deliver closed next ..

theorem Keeps.flush (keeps : Keeps P stream) (reply : FlushReply) : Keeps P (stream.flush reply) := by
  cases reply with
  | flushed => exact keeps.deliver closed keeps.content ..
  | kept out => exact keeps.deliver closed keeps.content ..
  | dropped out => exact keeps.deliver closed keeps.content ..

theorem Keeps.close (keeps : Keeps P stream) (reply : FlushReply) : Keeps P (stream.close reply) where
  content := by
    have flushed := (keeps.flush closed reply).content
    rw [AppendStream.content] at flushed
    rw [AppendStream.content, AppendStream.close, List.append_nil]
    exact closed _ _ (List.prefix_append _ _) flushed
  history := (keeps.flush closed reply).history

end Keeps

end AppendStream

end Friidump.Theory
