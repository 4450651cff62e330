import Friidump.Crc32
import Friidump.Ed2kHash
import Friidump.Md5
import Friidump.Sha1Digest

/-!
# Several hashes at once

`multihash.c` over the functions of an MD4. The updates of two of the five hashes are
commented out there. The digests are bytes here; the texts that `sprintf` makes of them,
with one string as both its source and its target, are left out.
-/

set_option autoImplicit false

namespace Friidump

structure Multihash (Ctx : Type) where
  crc32 : UInt32
  md4 : Ctx
  md5 : Md5Ctx
  ed2k : Ed2kContext Ctx
  sha1 : Sha1Ctx

structure Digests where
  crc32 : UInt32
  md4 : List UInt8
  md5 : List UInt8
  ed2k : List UInt8
  sha1 : List UInt8

section Code

variable {Ctx : Type} (m : Md4Functions Ctx)

def multihashInit (mh : Multihash Ctx) : Multihash Ctx where
  crc32 := 0xffffffff
  md4 := m.starts mh.md4
  md5 := md5Init mh.md5
  ed2k := ed2khashStarts m mh.ed2k.md4cur mh.ed2k.md4final mh.ed2k.lastmd4
  sha1 := sha1Init mh.sha1.buffer

/-- The hashes, and what the data have become. -/
def multihashUpdate (mh : Multihash Ctx) (data : Buffer) (bytes : Nat) : Multihash Ctx × Buffer :=
  let crc32 := crcUpdate mh.crc32 (data.bytes bytes)
  let md5 := md5Update mh.md5 (data.bytes bytes)
  let (sha1, data) := sha1Update mh.sha1 data bytes
  ({ mh with crc32 := crc32, md5 := md5, sha1 := sha1 }, data)

def multihashFinish (mh : Multihash Ctx) : Digests where
  crc32 := mh.crc32 ^^^ 0xffffffff
  md4 := (m.finish mh.md4).2
  md5 := (md5Final mh.md5).digest
  ed2k := ed2khashFinish m mh.ed2k
  sha1 := sha1Final mh.sha1

/-- The loop over `fread`, with what is left of the file. One array holds every piece, and
what `SHA1Update` has left there of the one before. -/
def multihashRead (rest : List UInt8) (mh : Multihash Ctx) (data : Buffer) : Multihash Ctx :=
  let read := rest.take 8192
  if read.length = 0 then mh
  else
    let (mh, data) := multihashUpdate mh (data.memcpy 0 (.ofBytes read) read.length) read.length
    multihashRead (rest.drop 8192) mh data
termination_by rest.length
decreasing_by
  have some : ¬ (rest.take 8192).length = 0 := ‹_›
  rw [List.length_take] at some
  rw [List.length_drop]
  omega

/-- The digests, if the file can be opened. -/
def multihashFile (mh : Multihash Ctx) (data : Buffer) (file : Option (List UInt8)) :
    Option Digests :=
  match file with
  | some bytes => some (multihashFinish m (multihashRead bytes (multihashInit m mh) data))
  | none => none

end Code

/-! ## What the digests are -/

section Digests

variable {Ctx : Type} {m : Md4Functions Ctx} {hash : List UInt8 → List UInt8} {data : List UInt8}
  {mh : Multihash Ctx}

/-- The digests of some data, two of them always of no data at all. -/
def digestsOf (hash : List UInt8 → List UInt8) (data : List UInt8) : Digests where
  crc32 := crcUpdate 0xffffffff data ^^^ 0xffffffff
  md4 := hash []
  md5 := md5 data
  ed2k := ed2kHash hash []
  sha1 := sha1 data

/-- What the hashes say of the data since `multihash_init`. -/
structure Multihash.Absorbed (m : Md4Functions Ctx) (hash : List UInt8 → List UInt8)
    (mh : Multihash Ctx) (data : List UInt8) : Prop where
  crc32 : mh.crc32 = crcUpdate 0xffffffff data
  md4 : m.Fed mh.md4 []
  md5 : mh.md5.Absorbed data
  ed2k : mh.ed2k.Absorbed m hash []
  sha1 : mh.sha1.Absorbed data

theorem multihashInit_absorbed (mh : Multihash Ctx) : (multihashInit m mh).Absorbed m hash [] where
  crc32 := rfl
  md4 := m.fed_starts _
  md5 := md5Init_absorbed _
  ed2k := ed2khashStarts_absorbed m hash _ _ _
  sha1 := sha1Init_absorbed _

theorem Multihash.Absorbed.update (absorbed : mh.Absorbed m hash data) (piece : Buffer) {bytes : Nat}
    (small : bytes < 2 ^ 32) :
    (multihashUpdate mh piece bytes).1.Absorbed m hash (data ++ piece.bytes bytes) where
  crc32 := by
    rw [crcUpdate_append, ← absorbed.crc32]
    rfl
  md4 := absorbed.md4
  md5 := absorbed.md5.update (by rwa [Buffer.length_bytes])
  ed2k := absorbed.ed2k
  sha1 := absorbed.sha1.update piece small

theorem Multihash.Absorbed.finish (incremental : Incremental m hash) (absorbed : mh.Absorbed m hash data) :
    multihashFinish m mh = digestsOf hash data := by
  have ed2k := absorbed.ed2k.finish incremental
  rw [if_pos (by decide)] at ed2k
  unfold multihashFinish digestsOf
  rw [absorbed.crc32, incremental.finish absorbed.md4, md5Final_digest absorbed.md5, ed2k,
    sha1Final_digest absorbed.sha1]
  rfl

theorem multihash_pieces (incremental : Incremental m hash) (mh : Multihash Ctx)
    (pieces : List (Buffer × Nat)) (small : ∀ piece ∈ pieces, piece.2 < 2 ^ 31) :
    multihashFinish m (pieces.foldl (fun mh piece => (multihashUpdate mh piece.1 piece.2).1)
        (multihashInit m mh)) =
      digestsOf hash (pieces.flatMap fun piece => piece.1.bytes piece.2) := by
  have absorbed : ∀ data mh, Multihash.Absorbed m hash mh data →
      (pieces.foldl (fun mh piece => (multihashUpdate mh piece.1 piece.2).1) mh).Absorbed m hash
        (data ++ pieces.flatMap fun piece => piece.1.bytes piece.2) := by
    induction pieces with
    | nil =>
        intro data mh absorbed
        rw [List.flatMap_nil, List.append_nil]
        exact absorbed
    | cons piece pieces ih =>
        intro data mh absorbed
        have bound := small piece List.mem_cons_self
        rw [List.flatMap_cons, ← List.append_assoc]
        exact ih (fun piece member => small piece (List.mem_cons_of_mem _ member)) _ _
          (absorbed.update piece.1 (by omega))
  exact (absorbed [] _ (multihashInit_absorbed mh)).finish incremental

theorem bytes_memcpy_ofBytes (dst : Buffer) (bytes : List UInt8) :
    (dst.memcpy 0 (.ofBytes bytes) bytes.length).bytes bytes.length = bytes := by
  have copied := Buffer.bytes_memcpy_append dst (.ofBytes bytes) 0 bytes.length
  rw [Nat.zero_add] at copied
  exact copied.trans (Buffer.bytes_ofBytes bytes)

theorem multihashRead_absorbed (rest : List UInt8) (mh : Multihash Ctx) (array : Buffer)
    (absorbed : mh.Absorbed m hash data) :
    (multihashRead rest mh array).Absorbed m hash (data ++ rest) := by
  induction rest, mh, array using multihashRead.induct generalizing data with
  | case1 rest mh array =>
      rename_i ended
      have few : (rest.take 8192).length = 0 := ended
      rw [List.length_take] at few
      have empty : rest = [] := List.eq_nil_of_length_eq_zero (by omega)
      rw [multihashRead]
      dsimp only
      rw [if_pos ended, empty, List.append_nil]
      exact absorbed
  | case2 rest mh array read nonempty mh' array' updated =>
      rename_i ih
      have small : (rest.take 8192).length < 2 ^ 32 := by
        rw [List.length_take]
        omega
      have taken := absorbed.update (array.memcpy 0 (.ofBytes (rest.take 8192)) (rest.take 8192).length)
        small
      rw [bytes_memcpy_ofBytes] at taken
      have result := congrArg Prod.fst updated
      rw [multihashRead]
      dsimp only
      rw [if_neg nonempty, updated]
      have later := ih (result ▸ taken)
      rwa [List.append_assoc, List.take_append_drop] at later

theorem multihashFile_digests (incremental : Incremental m hash) (mh : Multihash Ctx) (array : Buffer)
    (file : Option (List UInt8)) :
    multihashFile m mh array file = file.map (digestsOf hash) := by
  cases file with
  | none => rfl
  | some bytes =>
      have started : (multihashInit m mh).Absorbed m hash [] := multihashInit_absorbed mh
      exact congrArg some ((multihashRead_absorbed bytes _ array started).finish incremental)

end Digests

/-! ## With the functions of `md4.c` -/

/-- In whatever pieces the data come, and although each update spoils its piece, the digests
are those of the data. -/
theorem multihash_md4 (mh : Multihash Md4Context) (pieces : List (Buffer × Nat))
    (small : ∀ piece ∈ pieces, piece.2 < 2 ^ 31) :
    multihashFinish md4Functions (pieces.foldl (fun mh piece => (multihashUpdate mh piece.1 piece.2).1)
        (multihashInit md4Functions mh)) =
      digestsOf md4 (pieces.flatMap fun piece => piece.1.bytes piece.2) :=
  multihash_pieces md4Functions_incremental mh pieces small

theorem multihash_md4_two :
    let md4cur : Md4Context := ⟨0, 0, md4Initial, []⟩
    let mh : Multihash Md4Context :=
      ⟨0, md4cur, ⟨0, 0, md5Initial, fun _ => 0, []⟩, ed2khashStarts md4Functions md4cur md4cur [],
        sha1Init fun _ => 0⟩
    let pieces : List (Buffer × Nat) := [(.ofBytes [0x61], 1), (.ofBytes [0x62, 0x63], 2)]
    multihashFinish md4Functions (pieces.foldl (fun mh piece => (multihashUpdate mh piece.1 piece.2).1)
        (multihashInit md4Functions mh)) =
      digestsOf md4 (pieces.flatMap fun piece => piece.1.bytes piece.2) := by
  intro md4cur mh pieces
  exact multihash_md4 mh pieces (by simp [pieces])

end Friidump
