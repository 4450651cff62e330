import Friidump.Memory
import Friidump.Theory.DivisionRegister

/-!
# CRC-32

The table-driven loop of `crc32.c`. Its register is the remainder of a polynomial
division with the bits in reverse order, so that the least significant bit of a byte
comes first.
-/

set_option autoImplicit false

namespace Friidump

open Theory

def crctable : Array UInt32 := #[
    0x00000000, 0x77073096, 0xee0e612c, 0x990951ba, 0x076dc419, 0x706af48f, 0xe963a535, 0x9e6495a3,
    0x0edb8832, 0x79dcb8a4, 0xe0d5e91e, 0x97d2d988, 0x09b64c2b, 0x7eb17cbd, 0xe7b82d07, 0x90bf1d91,
    0x1db71064, 0x6ab020f2, 0xf3b97148, 0x84be41de, 0x1adad47d, 0x6ddde4eb, 0xf4d4b551, 0x83d385c7,
    0x136c9856, 0x646ba8c0, 0xfd62f97a, 0x8a65c9ec, 0x14015c4f, 0x63066cd9, 0xfa0f3d63, 0x8d080df5,
    0x3b6e20c8, 0x4c69105e, 0xd56041e4, 0xa2677172, 0x3c03e4d1, 0x4b04d447, 0xd20d85fd, 0xa50ab56b,
    0x35b5a8fa, 0x42b2986c, 0xdbbbc9d6, 0xacbcf940, 0x32d86ce3, 0x45df5c75, 0xdcd60dcf, 0xabd13d59,
    0x26d930ac, 0x51de003a, 0xc8d75180, 0xbfd06116, 0x21b4f4b5, 0x56b3c423, 0xcfba9599, 0xb8bda50f,
    0x2802b89e, 0x5f058808, 0xc60cd9b2, 0xb10be924, 0x2f6f7c87, 0x58684c11, 0xc1611dab, 0xb6662d3d,
    0x76dc4190, 0x01db7106, 0x98d220bc, 0xefd5102a, 0x71b18589, 0x06b6b51f, 0x9fbfe4a5, 0xe8b8d433,
    0x7807c9a2, 0x0f00f934, 0x9609a88e, 0xe10e9818, 0x7f6a0dbb, 0x086d3d2d, 0x91646c97, 0xe6635c01,
    0x6b6b51f4, 0x1c6c6162, 0x856530d8, 0xf262004e, 0x6c0695ed, 0x1b01a57b, 0x8208f4c1, 0xf50fc457,
    0x65b0d9c6, 0x12b7e950, 0x8bbeb8ea, 0xfcb9887c, 0x62dd1ddf, 0x15da2d49, 0x8cd37cf3, 0xfbd44c65,
    0x4db26158, 0x3ab551ce, 0xa3bc0074, 0xd4bb30e2, 0x4adfa541, 0x3dd895d7, 0xa4d1c46d, 0xd3d6f4fb,
    0x4369e96a, 0x346ed9fc, 0xad678846, 0xda60b8d0, 0x44042d73, 0x33031de5, 0xaa0a4c5f, 0xdd0d7cc9,
    0x5005713c, 0x270241aa, 0xbe0b1010, 0xc90c2086, 0x5768b525, 0x206f85b3, 0xb966d409, 0xce61e49f,
    0x5edef90e, 0x29d9c998, 0xb0d09822, 0xc7d7a8b4, 0x59b33d17, 0x2eb40d81, 0xb7bd5c3b, 0xc0ba6cad,
    0xedb88320, 0x9abfb3b6, 0x03b6e20c, 0x74b1d29a, 0xead54739, 0x9dd277af, 0x04db2615, 0x73dc1683,
    0xe3630b12, 0x94643b84, 0x0d6d6a3e, 0x7a6a5aa8, 0xe40ecf0b, 0x9309ff9d, 0x0a00ae27, 0x7d079eb1,
    0xf00f9344, 0x8708a3d2, 0x1e01f268, 0x6906c2fe, 0xf762575d, 0x806567cb, 0x196c3671, 0x6e6b06e7,
    0xfed41b76, 0x89d32be0, 0x10da7a5a, 0x67dd4acc, 0xf9b9df6f, 0x8ebeeff9, 0x17b7be43, 0x60b08ed5,
    0xd6d6a3e8, 0xa1d1937e, 0x38d8c2c4, 0x4fdff252, 0xd1bb67f1, 0xa6bc5767, 0x3fb506dd, 0x48b2364b,
    0xd80d2bda, 0xaf0a1b4c, 0x36034af6, 0x41047a60, 0xdf60efc3, 0xa867df55, 0x316e8eef, 0x4669be79,
    0xcb61b38c, 0xbc66831a, 0x256fd2a0, 0x5268e236, 0xcc0c7795, 0xbb0b4703, 0x220216b9, 0x5505262f,
    0xc5ba3bbe, 0xb2bd0b28, 0x2bb45a92, 0x5cb36a04, 0xc2d7ffa7, 0xb5d0cf31, 0x2cd99e8b, 0x5bdeae1d,
    0x9b64c2b0, 0xec63f226, 0x756aa39c, 0x026d930a, 0x9c0906a9, 0xeb0e363f, 0x72076785, 0x05005713,
    0x95bf4a82, 0xe2b87a14, 0x7bb12bae, 0x0cb61b38, 0x92d28e9b, 0xe5d5be0d, 0x7cdcefb7, 0x0bdbdf21,
    0x86d3d2d4, 0xf1d4e242, 0x68ddb3f8, 0x1fda836e, 0x81be16cd, 0xf6b9265b, 0x6fb077e1, 0x18b74777,
    0x88085ae6, 0xff0f6a70, 0x66063bca, 0x11010b5c, 0x8f659eff, 0xf862ae69, 0x616bffd3, 0x166ccf45,
    0xa00ae278, 0xd70dd2ee, 0x4e048354, 0x3903b3c2, 0xa7672661, 0xd06016f7, 0x4969474d, 0x3e6e77db,
    0xaed16a4a, 0xd9d65adc, 0x40df0b66, 0x37d83bf0, 0xa9bcae53, 0xdebb9ec5, 0x47b2cf7f, 0x30b5ffe9,
    0xbdbdf21c, 0xcabac28a, 0x53b39330, 0x24b4a3a6, 0xbad03605, 0xcdd70693, 0x54de5729, 0x23d967bf,
    0xb3667a2e, 0xc4614ab8, 0x5d681b02, 0x2a6f2b94, 0xb40bbe37, 0xc30c8ea1, 0x5a05df1b, 0x2d02ef8d
  ]

/-- `CrcUpdate`. The upper half of an `unsigned long` of 64 bits would stay zero. -/
def crcUpdate (crc : UInt32) : List UInt8 → UInt32
  | [] => crc
  | byte :: rest => crcUpdate (crctable.getD (byte ^^^ crc.toUInt8).toNat 0 ^^^ (crc >>> 8)) rest

example : crcUpdate 0xffffffff [0x31, 0x32, 0x33, 0x34, 0x35, 0x36, 0x37, 0x38, 0x39] ^^^ 0xffffffff =
    0xCBF43926 := by
  decide +kernel

/-! ## The division -/

/-- Lower coefficients of `x^32 + x^26 + x^23 + x^22 + x^16 + x^12 + x^11 + x^10 + x^8 + x^7 +
x^5 + x^4 + x^2 + x + 1`. -/
def crcPoly : BitVec 32 := 0x04C11DB7#32

def reversedBits (byte : UInt8) : List Bool := msbBits byte.toBitVec.reverse

def reversedMessage (bytes : List UInt8) : List Bool := bytes.flatMap reversedBits

theorem crcPoly_constant : crcPoly.getLsbD 0 = true := by decide

@[simp] theorem length_reversedBits (byte : UInt8) : (reversedBits byte).length = 8 :=
  length_msbBits _

private theorem crctable_entry : ∀ i : Fin 256,
    (crctable.getD i.val 0).toBitVec.reverse =
      (shiftOut crcPoly)^[8] (BitVec.ofNat 32 i.val).reverse := by
  decide +kernel

private theorem reverse_xor {w : Nat} (x y : BitVec w) :
    (x ^^^ y).reverse = x.reverse ^^^ y.reverse := by
  apply BitVec.eq_of_getMsbD_eq
  intro i inside
  simp [BitVec.getMsbD_reverse]

private theorem pack_reversedBits (byte : UInt8) :
    (pack (reversedBits byte) : BitVec 32) = byte.toUInt32.toBitVec.reverse := by
  apply BitVec.eq_of_getMsbD_eq
  intro i inside
  rw [getMsbD_pack _ _ inside, BitVec.getMsbD_reverse, reversedBits, msbBits]
  by_cases first : i < 8
  · simp [first, inside, BitVec.getMsbD_reverse]
  · simp [first, BitVec.getLsbD_of_ge _ _ (Nat.not_lt.mp first)]

private theorem register_low (x : BitVec 32) :
    x = (x &&& 0xFF#32) ^^^ ((x >>> 8) <<< 8) := by
  apply BitVec.eq_of_getLsbD_eq
  intro i inside
  have ones : (0xFF#32 : BitVec 32) = BitVec.ofNat 32 (2 ^ 8 - 1) := rfl
  rw [BitVec.getLsbD_xor, BitVec.getLsbD_and, ones, BitVec.getLsbD_ofNat,
    Nat.testBit_two_pow_sub_one, BitVec.getLsbD_shiftLeft, BitVec.getLsbD_ushiftRight]
  by_cases low : i < 8
  · simp [low, inside]
  · simp [low, inside, Nat.add_sub_cancel' (Nat.not_lt.mp low)]

private theorem reverse_shiftLeft (x : BitVec 32) : (x <<< 8).reverse = x.reverse >>> 8 := by
  apply BitVec.eq_of_getMsbD_eq
  intro i inside
  rw [BitVec.getMsbD_reverse, BitVec.getLsbD_shiftLeft, BitVec.getMsbD_ushiftRight,
    BitVec.getMsbD_reverse]
  by_cases low : i < 8
  · simp [low]
  · simp [low, inside]

private theorem crcStep_remainder (crc : UInt32) (byte : UInt8) :
    (crctable.getD (byte ^^^ crc.toUInt8).toNat 0 ^^^ (crc >>> 8)).toBitVec.reverse =
      remainder crcPoly crc.toBitVec.reverse (reversedBits byte) := by
  have mixed : crc.toBitVec ^^^ byte.toUInt32.toBitVec =
      BitVec.ofNat 32 (byte ^^^ crc.toUInt8).toNat ^^^ ((crc.toBitVec >>> 8) <<< 8) := by
    have low : (crc.toBitVec ^^^ byte.toUInt32.toBitVec) &&& 0xFF#32 =
        BitVec.ofNat 32 (byte ^^^ crc.toUInt8).toNat := by
      have small := (byte ^^^ crc.toUInt8).toNat_lt
      have index : (BitVec.ofNat 32 (byte ^^^ crc.toUInt8).toNat).toNat = (byte ^^^ crc.toUInt8).toNat :=
        Nat.mod_eq_of_lt (by omega)
      have narrow : byte.toUInt32.toBitVec.toNat % 2 ^ 8 = byte.toNat := Nat.mod_eq_of_lt byte.toNat_lt
      apply BitVec.eq_of_toNat_eq
      rw [BitVec.toNat_and, BitVec.toNat_xor, index]
      refine (Nat.and_two_pow_sub_one_eq_mod _ 8).trans ?_
      rw [Nat.xor_mod_two_pow, narrow, Nat.xor_comm, UInt8.toNat_xor, UInt32.toNat_toUInt8]
      rfl
    have high : (crc.toBitVec ^^^ byte.toUInt32.toBitVec) >>> 8 = crc.toBitVec >>> 8 := by
      apply BitVec.eq_of_getLsbD_eq
      intro i inside
      simp
    rw [register_low (crc.toBitVec ^^^ byte.toUInt32.toBitVec), low, high]
  have entry := crctable_entry ⟨(byte ^^^ crc.toUInt8).toNat, (byte ^^^ crc.toUInt8).toNat_lt⟩
  have high : (shiftOut crcPoly)^[8] (((crc.toBitVec >>> 8).reverse) >>> 8) =
      (crc.toBitVec >>> 8).reverse := by
    refine shiftOut_iterate_ushiftRight crcPoly _ 8 fun i below => ?_
    simp [BitVec.getLsbD_reverse, below]
  rw [remainder_eq_iterate _ _ _ (by simp), pack_reversedBits, length_reversedBits, ← reverse_xor,
    mixed, reverse_xor, reverse_shiftLeft, ((shiftOut_xorLinear crcPoly).iterate 8).map_xor, high,
    ← entry, UInt32.toBitVec_xor, reverse_xor]
  rfl

/-- `CrcUpdate` divides the message by the polynomial that its comment names. -/
theorem crcUpdate_toBitVec (crc : UInt32) (bytes : List UInt8) :
    (crcUpdate crc bytes).toBitVec.reverse =
      remainder crcPoly crc.toBitVec.reverse (reversedMessage bytes) := by
  induction bytes generalizing crc with
  | nil => rfl
  | cons byte rest ih =>
      rw [crcUpdate, ih, crcStep_remainder]
      simp only [reversedMessage, List.flatMap_cons, remainder_append]

theorem crcUpdate_append (crc : UInt32) (first second : List UInt8) :
    crcUpdate crc (first ++ second) = crcUpdate (crcUpdate crc first) second := by
  induction first generalizing crc with
  | nil => rfl
  | cons byte rest ih => exact ih _

/-! ## Errors it detects -/

theorem reversedMessage_getElem? (bytes : List UInt8) (i : Nat) :
    (reversedMessage bytes)[i]? = bytes[i / 8]?.map fun byte => byte.toBitVec.getLsbD (i % 8) := by
  induction bytes generalizing i with
  | nil => simp [reversedMessage]
  | cons byte rest ih =>
      simp only [reversedMessage, List.flatMap_cons] at ih ⊢
      by_cases first : i < 8
      · rw [List.getElem?_append_left (by simpa using first), Nat.div_eq_of_lt first,
          Nat.mod_eq_of_lt first]
        simp [reversedBits, msbBits, first, BitVec.getMsbD_reverse]
      · rw [List.getElem?_append_right (by simpa using Nat.not_lt.mp first), length_reversedBits, ih]
        obtain ⟨j, rfl⟩ := Nat.exists_eq_add_of_le (Nat.not_lt.mp first)
        simp [Nat.add_div_left]

theorem length_reversedMessage (bytes : List UInt8) :
    (reversedMessage bytes).length = 8 * bytes.length := by
  simp [reversedMessage, List.length_flatMap, Nat.mul_comm]

theorem reversedMessage_injective : Function.Injective reversedMessage := by
  intro first second same
  have count : first.length = second.length := by
    have lengths := congrArg List.length same
    rw [length_reversedMessage, length_reversedMessage] at lengths
    omega
  refine List.ext_getElem count fun k inside inside' => UInt8.toBitVec_inj.mp ?_
  apply BitVec.eq_of_getLsbD_eq
  intro j below
  have place : (8 * k + j) / 8 = k ∧ (8 * k + j) % 8 = j := by omega
  have bit := congrArg (fun message => message[8 * k + j]?) same
  simp only [reversedMessage_getElem?, place] at bit
  simpa [inside, inside'] using bit

/-- Data of one length that differ within 32 consecutive bits only have different checksums. -/
theorem crcUpdate_burst (crc : UInt32) {first second : List UInt8} (start : Nat)
    (sameLength : first.length = second.length)
    (confined : ∀ i, (reversedMessage first)[i]? ≠ (reversedMessage second)[i]? →
      start ≤ i ∧ i < start + 32) :
    crcUpdate crc first = crcUpdate crc second ↔ first = second := by
  refine ⟨fun same => ?_, congrArg _⟩
  by_contra differ
  have lengths : (reversedMessage first).length = (reversedMessage second).length := by
    rw [length_reversedMessage, length_reversedMessage, sameLength]
  have zero := remainder_xor crcPoly crc.toBitVec.reverse crc.toBitVec.reverse _ _ lengths
  rw [← crcUpdate_toBitVec, ← crcUpdate_toBitVec, same, BitVec.xor_self, BitVec.xor_self] at zero
  have bits : ∀ i : Nat, (List.zipWith (fun a b => a ^^ b) (reversedMessage first)
      (reversedMessage second))[i]? = some true ↔
        (reversedMessage first)[i]? ≠ (reversedMessage second)[i]? := by
    intro i
    rw [List.getElem?_zipWith]
    by_cases inside : i < (reversedMessage first).length
    · rw [List.getElem?_eq_getElem inside, List.getElem?_eq_getElem (lengths ▸ inside)]
      simp
    · rw [List.getElem?_eq_none (Nat.not_lt.mp inside),
        List.getElem?_eq_none (lengths ▸ Nat.not_lt.mp inside)]
      simp
  refine remainder_burst_ne_zero crcPoly_constant _ start (fun i found => ?_) ?_ zero
  · exact confined i ((bits i).mp found)
  · by_contra none
    refine differ (reversedMessage_injective (List.ext_getElem? fun i => ?_))
    by_contra here
    exact none ⟨i, (bits i).mpr here⟩

theorem crcUpdate_burst_one :
    crcUpdate 0xffffffff [0x61] = crcUpdate 0xffffffff [0x62] ↔ ([0x61] : List UInt8) = [0x62] := by
  refine crcUpdate_burst 0xffffffff 0 rfl fun i differ => ⟨Nat.zero_le i, ?_⟩
  by_contra behind
  have short : ∀ byte, (reversedMessage [byte]).length ≤ i := by
    intro byte
    rw [length_reversedMessage, List.length_singleton]
    omega
  rw [List.getElem?_eq_none (short _), List.getElem?_eq_none (short _)] at differ
  exact differ rfl

end Friidump
