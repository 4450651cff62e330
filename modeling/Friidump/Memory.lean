import Mathlib.Algebra.Group.Nat.Defs
import Mathlib.Data.List.Basic
import Mathlib.Logic.Function.Iterate

/-!
# Byte memory

Buffers, block copies and word accesses as the C sources use them, for a
little-endian host.
-/

set_option autoImplicit false

namespace Friidump

/-- The bytes found from a C pointer on. Lengths are kept by the code that
reads and writes through the pointer, as in the source. -/
abbrev Buffer := Nat → UInt8

namespace Buffer

def advance (pointer : Buffer) (offset : Nat) : Buffer := fun i => pointer (offset + i)

def bytes (pointer : Buffer) (length : Nat) : List UInt8 := (List.range length).map pointer

def xor (first second : Buffer) : Buffer := fun i => first i ^^^ second i

def ofBytes (data : List UInt8) : Buffer := fun i => data.getD i 0

def memcpy (dst : Buffer) (offset : Nat) (src : Buffer) (length : Nat) : Buffer :=
  fun i => if offset ≤ i ∧ i < offset + length then src (i - offset) else dst i

def memset (dst : Buffer) (offset : Nat) (value : UInt8) (length : Nat) : Buffer :=
  fun i => if offset ≤ i ∧ i < offset + length then value else dst i

/-- `*((u_int32_t *) pointer)`. -/
def loadWord (pointer : Buffer) : UInt32 :=
  ⟨(pointer 3).toBitVec ++ (pointer 2).toBitVec ++ (pointer 1).toBitVec ++ (pointer 0).toBitVec⟩

/-- `*((u_int32_t *) (pointer + offset)) = word`. -/
def storeWord (pointer : Buffer) (offset : Nat) (word : UInt32) : Buffer := fun i =>
  if offset ≤ i ∧ i < offset + 4 then
    ⟨(word.toBitVec >>> (8 * (i - offset))).setWidth 8⟩
  else pointer i

def loadWordBig (pointer : Buffer) : UInt32 :=
  ⟨(pointer 0).toBitVec ++ (pointer 1).toBitVec ++ (pointer 2).toBitVec ++ (pointer 3).toBitVec⟩

end Buffer

/-- `bo_my2big_32`, which `my_ntohl` stands for. -/
def myNtohl (a : UInt32) : UInt32 :=
  ((a &&& 0x000000FF) <<< 24) + ((a &&& 0x0000FF00) <<< 8) +
    ((a &&& 0x00FF0000) >>> 8) + (a >>> 24)

namespace Buffer

@[simp] theorem advance_apply (pointer : Buffer) (offset i : Nat) :
    pointer.advance offset i = pointer (offset + i) := rfl

@[simp] theorem advance_zero (pointer : Buffer) : pointer.advance 0 = pointer := by
  funext i
  simp

theorem advance_advance (pointer : Buffer) (first second : Nat) :
    (pointer.advance first).advance second = pointer.advance (first + second) := by
  funext i
  rw [advance_apply, advance_apply, advance_apply, Nat.add_assoc]

@[simp] theorem length_bytes (pointer : Buffer) (length : Nat) :
    (pointer.bytes length).length = length := by
  simp [bytes]

theorem bytes_inj {first second : Buffer} {length : Nat} :
    first.bytes length = second.bytes length ↔ ∀ i < length, first i = second i := by
  simp [bytes]

theorem bytes_congr {first second : Buffer} {length : Nat}
    (same : ∀ i < length, first i = second i) : first.bytes length = second.bytes length :=
  bytes_inj.mpr same

theorem bytes_add (pointer : Buffer) (first second : Nat) :
    pointer.bytes (first + second) =
      pointer.bytes first ++ (pointer.advance first).bytes second := by
  simp [bytes, List.range_add, Function.comp_def, advance]

theorem memcpy_inside (dst src : Buffer) {offset length i : Nat} (lower : offset ≤ i)
    (upper : i < offset + length) : dst.memcpy offset src length i = src (i - offset) :=
  if_pos ⟨lower, upper⟩

theorem memcpy_outside (dst src : Buffer) {offset length i : Nat}
    (outside : i < offset ∨ offset + length ≤ i) : dst.memcpy offset src length i = dst i := by
  apply if_neg
  omega

/-! ## Words -/

private theorem toNat_append4 (a b c d : BitVec 8) : (a ++ b ++ c ++ d).toNat =
    a.toNat * 16777216 + b.toNat * 65536 + c.toNat * 256 + d.toNat := by
  rw [BitVec.toNat_append, BitVec.toNat_append, BitVec.toNat_append,
    ← Nat.shiftLeft_add_eq_or_of_lt b.isLt, ← Nat.shiftLeft_add_eq_or_of_lt c.isLt,
    ← Nat.shiftLeft_add_eq_or_of_lt d.isLt]
  simp only [Nat.shiftLeft_eq]
  omega

theorem loadWord_byte (pointer : Buffer) {k : Nat} (inside : k < 4) :
    (pointer.loadWord.toBitVec >>> (8 * k)).setWidth 8 = (pointer k).toBitVec := by
  have spread : ∀ j, pointer.loadWord.toBitVec.getLsbD j =
      ((pointer 3).toBitVec ++ (pointer 2).toBitVec ++ (pointer 1).toBitVec ++
        (pointer 0).toBitVec : BitVec (8 + 8 + 8 + 8)).getLsbD j := fun _ => rfl
  apply BitVec.eq_of_getLsbD_eq
  intro i below
  simp only [BitVec.getLsbD_setWidth, BitVec.getLsbD_ushiftRight, below, decide_true,
    Bool.true_and, spread, BitVec.getLsbD_append]
  have cases : k = 0 ∨ k = 1 ∨ k = 2 ∨ k = 3 := by omega
  rcases cases with rfl | rfl | rfl | rfl
  · rw [if_pos (by omega), Nat.mul_zero, Nat.zero_add]
  · have place : 8 * 1 + i - 8 = i := by omega
    rw [if_neg (by omega), if_pos (by omega), place]
  · have place : 8 * 2 + i - 8 - 8 = i := by omega
    rw [if_neg (by omega), if_neg (by omega), if_pos (by omega), place]
  · have place : 8 * 3 + i - 8 - 8 - 8 = i := by omega
    rw [if_neg (by omega), if_neg (by omega), if_neg (by omega), place]

theorem storeWord_xor_loadWord (pointer first second : Buffer) (offset i : Nat) :
    pointer.storeWord offset (first.loadWord ^^^ second.loadWord) i =
      if offset ≤ i ∧ i < offset + 4 then first (i - offset) ^^^ second (i - offset)
      else pointer i := by
  unfold storeWord
  split
  · rename_i inside
    apply UInt8.toBitVec_inj.mp
    rw [UInt8.toBitVec_xor, UInt32.toBitVec_xor, BitVec.ushiftRight_xor_distrib,
      BitVec.setWidth_xor, loadWord_byte first (by omega), loadWord_byte second (by omega)]
  · rfl

theorem and_byte_mask (n k : Nat) : n &&& (255 <<< k) = (n >>> k % 256) <<< k := by
  apply Nat.eq_of_testBit_eq
  intro i
  have mask : (255 : Nat) = 2 ^ 8 - 1 := rfl
  have size : (256 : Nat) = 2 ^ 8 := rfl
  rw [mask, size]
  simp only [Nat.testBit_and, Nat.testBit_shiftLeft, Nat.testBit_two_pow_sub_one,
    Nat.testBit_mod_two_pow, Nat.testBit_shiftRight]
  by_cases above : k ≤ i
  · simp [above, Nat.add_sub_cancel' above, Bool.and_comm]
  · simp [above]

private theorem bytes_of_sum {n b0 b1 b2 b3 : Nat} (below0 : b0 < 256) (below1 : b1 < 256)
    (below2 : b2 < 256) (sum : n = b3 * 16777216 + b2 * 65536 + b1 * 256 + b0) :
    n / 1 % 256 = b0 ∧ n / 256 % 256 = b1 ∧ n / 65536 % 256 = b2 ∧ n >>> 24 = b3 := by
  have upper1 : n / 256 = b3 * 65536 + b2 * 256 + b1 := by omega
  have upper2 : n / 65536 = b3 * 256 + b2 := by omega
  have upper3 : n / 16777216 = b3 := by omega
  refine ⟨by omega, ?_, ?_, Nat.shiftRight_eq_div_pow n 24 ▸ upper3⟩
  · rw [upper1]
    clear sum upper1 upper2 upper3
    omega
  · rw [upper2]
    clear sum upper1 upper2 upper3
    omega

/-- On a little-endian host the byte swap yields the big-endian word. -/
theorem myNtohl_loadWord (pointer : Buffer) : myNtohl pointer.loadWord = pointer.loadWordBig := by
  have value := toNat_append4 (pointer 3).toBitVec (pointer 2).toBitVec (pointer 1).toBitVec
    (pointer 0).toBitVec
  have big := toNat_append4 (pointer 0).toBitVec (pointer 1).toBitVec (pointer 2).toBitVec
    (pointer 3).toBitVec
  change pointer.loadWord.toNat = _ at value
  change pointer.loadWordBig.toNat = _ at big
  have below0 := (pointer 0).toBitVec.isLt
  have below1 := (pointer 1).toBitVec.isLt
  have below2 := (pointer 2).toBitVec.isLt
  have below3 := (pointer 3).toBitVec.isLt
  obtain ⟨byte0, byte1, byte2, byte3⟩ := bytes_of_sum below0 below1 below2 value
  have low := and_byte_mask pointer.loadWord.toNat 0
  have second := and_byte_mask pointer.loadWord.toNat 8
  have third := and_byte_mask pointer.loadWord.toNat 16
  simp only [Nat.shiftLeft_eq, Nat.shiftRight_eq_div_pow, Nat.reduceMul, Nat.reducePow, byte0,
    byte1, byte2] at low second third
  apply UInt32.toNat_inj.mp
  rw [big]
  simp only [myNtohl, UInt32.toNat_add, UInt32.toNat_shiftLeft, UInt32.toNat_shiftRight,
    UInt32.toNat_and, UInt32.reduceToNat, low, second, third, Nat.reduceMod, byte3]
  simp only [Nat.shiftLeft_eq, Nat.shiftRight_eq_div_pow]
  clear value big low second third byte0 byte1 byte2 byte3
  omega

end Buffer

theorem toUInt32_succ (i : Nat) : (i + 1).toUInt32 = i.toUInt32 + 1 := UInt32.ofNat_add i 1

theorem toNat_add_one {i : UInt32} (room : i.toNat + 1 < 2 ^ 32) : (i + 1).toNat = i.toNat + 1 := by
  rw [UInt32.toNat_add]
  exact Nat.mod_eq_of_lt room

end Friidump
