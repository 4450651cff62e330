import Friidump.DiscSetup
import Friidump.SeedCache

/-!
# Blocks on their way into the cache

A block is put together in two places: the unscrambler patches six bytes of
each sector, `disc_cache_add_block` the user data.
-/

set_option autoImplicit false

namespace Friidump

/-! ## Putting a block together -/

theorem Buffer.splice_above (dst src : Buffer) {offset i : Nat} (above : offset ≤ i) :
    dst.splice offset src i = src (i - offset) :=
  if_neg (Nat.not_lt.mpr above)

theorem Buffer.splice_below (dst src : Buffer) {offset i : Nat} (below : i < offset) :
    dst.splice offset src i = dst i :=
  if_pos below

@[simp] theorem Buffer.splice_advance (dst src : Buffer) (offset : Nat) :
    (dst.splice offset src).advance offset = src := by
  funext i
  rw [Buffer.advance_apply, Buffer.splice_above _ _ (Nat.le_add_right _ _), Nat.add_sub_cancel_left]

theorem Buffer.splice_self (buf : Buffer) (offset : Nat) : buf.splice offset (buf.advance offset) = buf := by
  funext i
  by_cases before : i < offset
  · exact Buffer.splice_below _ _ before
  · rw [Buffer.splice_above _ _ (Nat.not_lt.mp before), Buffer.advance_apply,
      Nat.add_sub_cancel' (Nat.not_lt.mp before)]

private theorem copyUserData_rounds (rawdata data : Buffer) {offset : Nat} (small : offset ≤ 16)
    (n a : Nat) :
    (List.range n).foldl (fun rawdata cnt =>
        rawdata.memcpy (cnt * 2064 + offset) (data.advance (cnt * 2048)) 2048) rawdata a =
      if a / 2064 < n ∧ offset ≤ a % 2064 ∧ a % 2064 < offset + 2048 then
        data (2048 * (a / 2064) + (a % 2064 - offset))
      else rawdata a := by
  induction n with
  | zero =>
      rw [if_neg (by omega)]
      rfl
  | succ n ih =>
      rw [List.range_succ, List.foldl_append, List.foldl_cons, List.foldl_nil, Buffer.memcpy, ih]
      have split := Nat.div_add_mod a 2064
      have inside := Nat.mod_lt a (by decide : 0 < 2064)
      by_cases here : a / 2064 = n
      · rw [here] at split ⊢
        by_cases written : offset ≤ a % 2064 ∧ a % 2064 < offset + 2048
        · rw [if_pos (by omega), if_pos ⟨Nat.lt_succ_self n, written⟩, Buffer.advance_apply]
          congr 1
          omega
        · rw [if_neg (by omega), if_neg fun hit => written hit.2, if_neg fun hit => written hit.2]
      · rw [if_neg (by omega)]
        by_cases earlier : a / 2064 < n
        · simp only [earlier, Nat.lt_succ_of_lt earlier]
        · rw [if_neg fun hit => earlier hit.1, if_neg (by omega)]

theorem copyUserData_apply (rawdata data : Buffer) {offset : Nat} (small : offset ≤ 16)
    {k i : Nat} (insideBlock : k < 16) (insideSector : i < 2064) :
    copyUserData rawdata data offset (2064 * k + i) =
      if offset ≤ i ∧ i < offset + 2048 then data (2048 * k + (i - offset))
      else rawdata (2064 * k + i) := by
  have quotient : (2064 * k + i) / 2064 = k := by omega
  have remainder : (2064 * k + i) % 2064 = i := by omega
  rw [copyUserData, copyUserData_rounds _ _ small, quotient, remainder]
  simp only [insideBlock, true_and]

theorem copyUserData_beyond (rawdata data : Buffer) {offset : Nat} (small : offset ≤ 16) {a : Nat}
    (beyond : 33024 ≤ a) : copyUserData rawdata data offset a = rawdata a := by
  rw [copyUserData, copyUserData_rounds _ _ small]
  exact if_neg (by omega)

theorem dataOffset_le (disctype : UInt8) : dataOffset disctype ≤ 12 := by
  rw [dataOffset]
  split <;> decide

theorem Disc.copyOffset_bounds (d : Disc) : 6 ≤ d.copyOffset ∧ d.copyOffset ≤ 16 := by
  unfold Disc.copyOffset
  split <;> decide

/-- The sectors of a block with their user data apart from the rest. -/
structure Separated (offset : Nat) (sector : Nat → Buffer) (raw data : Buffer) : Prop where
  outside : ∀ k < 16, ∀ i < 2064, i < offset ∨ offset + 2048 ≤ i → raw (2064 * k + i) = sector k i
  inside : ∀ k < 16, ∀ i < 2048, data (2048 * k + i) = sector k (offset + i)

theorem Separated.congr {offset : Nat} {sector sector' : Nat → Buffer} {raw raw' data data' : Buffer}
    (apart : Separated offset sector raw data) (small : offset ≤ 16)
    (sameSector : ∀ k < 16, ∀ i < 2064, sector' k i = sector k i)
    (sameRaw : ∀ a < 33024, raw' a = raw a) (sameData : ∀ a < 32768, data' a = data a) :
    Separated offset sector' raw' data' where
  outside k insideBlock i insideSector place := by
    rw [sameRaw _ (by omega), sameSector k insideBlock i insideSector]
    exact apart.outside k insideBlock i insideSector place
  inside k insideBlock i insideSector := by
    rw [sameData _ (by omega), sameSector k insideBlock _ (by omega)]
    exact apart.inside k insideBlock i insideSector

theorem Separated.whole {offset : Nat} {sector : Nat → Buffer} {raw data : Buffer}
    (apart : Separated offset sector raw data) (small : offset ≤ 16) {k i : Nat}
    (insideBlock : k < 16) (insideSector : i < 2064) :
    copyUserData raw data offset (2064 * k + i) = sector k i := by
  rw [copyUserData_apply raw data small insideBlock insideSector]
  split
  · rw [apart.inside k insideBlock _ (by omega)]
    congr 1
    omega
  · exact apart.outside k insideBlock i insideSector (by omega)

/-! ## What the unscrambler hands over -/

theorem decodedSector_congr {bin bin' : Buffer} (same : ∀ a < 33024, bin a = bin' a)
    (seed : UInt16) {k i : Nat} (insideBlock : k < 16) (insideSector : i < 2064) :
    decodedSector bin seed k i = decodedSector bin' seed k i := by
  simp only [decodedSector, Buffer.xor, Buffer.advance_apply]
  rw [same _ (by omega)]

theorem Accepts.congr {inbuf inbuf' : Buffer} (same : ∀ a < 33024, inbuf a = inbuf' a) {j : Nat}
    (accepted : Accepts inbuf j) : Accepts inbuf' j := by
  refine ⟨accepted.1, (testSeed_iff inbuf' j).mpr ?_⟩
  rw [← (testSeed_iff inbuf j).mp accepted.2]
  refine sectorSyndrome_congr fun i inside => ?_
  rw [Buffer.xor, Buffer.xor, same i (by omega)]

theorem decodedSector_outside (bin : Buffer) (seed : UInt16) (k : Nat) {i : Nat}
    (outside : i < 12 ∨ 2060 ≤ i) : decodedSector bin seed k i = bin (2064 * k + i) := by
  rw [decodedSector, Buffer.xor, cipherPad, if_neg (by omega), Buffer.advance_apply]
  exact UInt8.xor_zero

/-- One seed below `7FFFh` fits the whole block, and the sectors it gives are handed over. -/
structure Handed (disctype : UInt8) (inbuf raw data : Buffer) (j : Nat) : Prop where
  accepted : Accepts inbuf j
  passes : ∀ k < 16, sectorSyndrome (decodedSector inbuf j.toUInt16 k) = 0
  apart : Separated (dataOffset disctype) (decodedSector inbuf j.toUInt16) raw data

private theorem decodedFrame_separated (disctype : UInt8) (seed : UInt16) (bin bout : Buffer) :
    Separated (dataOffset disctype) (decodedSector bin seed)
      (decodedFrame disctype seed bin bout 16).bin
      (decodedFrame disctype seed bin bout 16).bout where
  outside k insideBlock i insideSector place := by
    rw [decodedFrame_bin _ _ _ _ insideBlock insideSector]
    split
    · rfl
    · rename_i kept
      refine (decodedSector_outside bin seed k ?_).symm
      by_cases regular : disctype = 3
      · rw [dataOffset, if_pos regular] at place
        exact place
      · rw [dataOffset, if_neg regular] at place
        have apart : ¬ (2054 ≤ i ∧ i < 2060) := fun patched => kept ⟨regular, patched⟩
        omega
  inside _ insideBlock _ insideSector := decodedFrame_bout _ _ _ _ insideBlock insideSector

section Unscramble

variable {disctype : UInt8} {u : Unscrambler} {sectorNo : UInt32} {inbuf outbuf : Buffer}

theorem unscramble_handed (formed : SeedsWellFormed u)
    (success : (unscramblerUnscramble16sectors disctype u sectorNo inbuf outbuf).out = true) :
    ∃ j, Handed disctype inbuf
      (unscramblerUnscramble16sectors disctype u sectorNo inbuf outbuf).inbuf
      (unscramblerUnscramble16sectors disctype u sectorNo inbuf outbuf).outbuf j := by
  obtain ⟨j, accepted, passes, shown⟩ := (outcome formed).accepts success
  refine ⟨j, accepted, passes, ?_⟩
  rw [← Unscrambled.frame_bin, ← Unscrambled.frame_bout, shown]
  exact decodedFrame_separated ..

private theorem unscramble_frames (formed : SeedsWellFormed u) :
    (unscramblerUnscramble16sectors disctype u sectorNo inbuf outbuf).frame =
        { out := false, bin := inbuf, bout := outbuf } ∨
      ∃ j : Nat, (unscramblerUnscramble16sectors disctype u sectorNo inbuf outbuf).frame =
        decodedFrame disctype j.toUInt16 inbuf outbuf 16 := by
  have ended : Outcome disctype u (seedZone sectorNo) inbuf outbuf
    (unscramblerUnscramble16sectors disctype u sectorNo inbuf outbuf) := outcome formed
  generalize unscramblerUnscramble16sectors disctype u sectorNo inbuf outbuf = result at ended
  cases ended with
  | @cached i j _ _ _ held _ => exact .inr ⟨j, unscrambleWith_frame held⟩
  | @added i j entry _ _ _ _ _ held _ => exact .inr ⟨j, unscrambleWith_frame held⟩
  | rejected => exact .inl rfl

theorem unscramble_inbuf_beyond (formed : SeedsWellFormed u) {a : Nat} (beyond : 33024 ≤ a) :
    (unscramblerUnscramble16sectors disctype u sectorNo inbuf outbuf).inbuf a = inbuf a := by
  rw [← Unscrambled.frame_bin]
  obtain same | ⟨j, same⟩ := unscramble_frames formed
  · rw [same]
  · rw [same]
    exact if_neg (by omega)

theorem unscramble_outbuf_beyond (formed : SeedsWellFormed u) {a : Nat} (beyond : 32768 ≤ a) :
    (unscramblerUnscramble16sectors disctype u sectorNo inbuf outbuf).outbuf a = outbuf a := by
  rw [← Unscrambled.frame_bout]
  obtain same | ⟨j, same⟩ := unscramble_frames formed
  · rw [same]
  · rw [same]
    exact if_neg (by omega)

theorem Handed.header {raw data : Buffer} {j k i : Nat} (handed : Handed disctype inbuf raw data j)
    (insideBlock : k < 16) (header : i < 6) : raw (2064 * k + i) = inbuf (2064 * k + i) := by
  have before : i < dataOffset disctype := by
    rw [dataOffset]
    split <;> omega
  rw [handed.apart.outside k insideBlock i (by omega) (.inl before)]
  exact decodedSector_outside inbuf _ k (.inl (by omega))

end Unscramble

theorem Handed.congr {disctype : UInt8} {inbuf inbuf' raw raw' data data' : Buffer} {j : Nat}
    (handed : Handed disctype inbuf raw data j) (sameIn : ∀ a < 33024, inbuf' a = inbuf a)
    (sameRaw : ∀ a < 33024, raw' a = raw a) (sameData : ∀ a < 32768, data' a = data a) :
    Handed disctype inbuf' raw' data' j where
  accepted := handed.accepted.congr fun a below => (sameIn a below).symm
  passes k inside := by
    rw [← handed.passes k inside]
    exact sectorSyndrome_congr fun i below => decodedSector_congr sameIn _ inside below
  apart := handed.apart.congr (Nat.le_trans (dataOffset_le disctype) (by decide))
    (fun _ inside _ below => decodedSector_congr sameIn _ inside below) sameRaw sameData

/-! ## Cached blocks -/

/-- Every sector passes its check as it stands, and the data are its user data. -/
structure BlockValid (offset : Nat) (data raw : Buffer) : Prop where
  checked : ∀ k < 16, edcCalc 0 ((raw.advance (2064 * k)).bytes 2060) =
    ((raw.advance (2064 * k)).advance 2060).loadWordBig
  agrees : ∀ k < 16, ∀ i < 2048, data (2048 * k + i) = raw (2064 * k + (offset + i))

theorem BlockValid.congr {offset : Nat} {data data' raw raw' : Buffer}
    (valid : BlockValid offset data raw) (small : offset ≤ 16)
    (sameData : ∀ a < 32768, data' a = data a) (sameRaw : ∀ a < 33024, raw' a = raw a) :
    BlockValid offset data' raw' where
  checked k inside := by
    rw [← sectorSyndrome_eq_zero_iff]
    have whole : ∀ i < 2064, raw'.advance (2064 * k) i = raw.advance (2064 * k) i :=
      fun i below => sameRaw _ (by omega)
    rw [sectorSyndrome_congr whole]
    exact (sectorSyndrome_eq_zero_iff _).mpr (valid.checked k inside)
  agrees k inside i below := by
    rw [sameData _ (by omega), sameRaw _ (by omega)]
    exact valid.agrees k inside i below

theorem Handed.blockValid {disctype : UInt8} {inbuf raw data : Buffer} {j : Nat}
    (handed : Handed disctype inbuf raw data j) :
    BlockValid (dataOffset disctype) data (copyUserData raw data (dataOffset disctype)) where
  checked k inside := by
    rw [← sectorSyndrome_eq_zero_iff, ← handed.passes k inside]
    refine sectorSyndrome_congr fun i below => ?_
    exact handed.apart.whole (Nat.le_trans (dataOffset_le disctype) (by decide)) inside below
  agrees k inside i below := by
    have offset := dataOffset_le disctype
    rw [handed.apart.inside k inside i below, handed.apart.whole (by omega) inside (by omega)]

end Friidump
