import NetworkProj.Model.Checksum
import NetworkProj.Transport.Checksum

set_option autoImplicit false

namespace NetworkProj.Checksums

open Delivery

def reverse8 (byte : UInt8) : UInt8 :=
  ⟨byte.toBitVec.reverse⟩

def reverse32 (word : UInt32) : UInt32 :=
  ⟨word.toBitVec.reverse⟩

theorem polynomial_reverse : (0x04C11DB7#32).reverse = polynomial := by decide +kernel

theorem deprecatedCrc32Bit_shiftUp (crc : UInt32) :
    (deprecatedCrc32Bit crc).toBitVec = Crc.shiftUp 0x04C11DB7#32 crc.toBitVec := by
  have highest : crc &&& 0x80000000 ≠ 0 ↔ crc.toBitVec.msb = true := by
    rw [ne_eq, ← UInt32.toBitVec_inj, UInt32.toBitVec_and,
      show (0x80000000 : UInt32).toBitVec = BitVec.twoPow 32 31 from rfl, BitVec.and_twoPow,
      BitVec.msb_eq_getLsbD_last]
    cases crc.toBitVec.getLsbD 31 <;> decide
  by_cases set : crc &&& 0x80000000 ≠ 0
  next =>
    rw [deprecatedCrc32Bit, if_pos set, Crc.shiftUp, if_pos (highest.mp set)]
    rfl
  next =>
    rw [deprecatedCrc32Bit, if_neg set, Crc.shiftUp, if_neg (fun msb => set (highest.mpr msb))]
    rfl

theorem deprecatedCrc32Bit_iterate (count : Nat) (crc : UInt32) :
    (deprecatedCrc32Bit^[count] crc).toBitVec = (Crc.shiftUp 0x04C11DB7#32)^[count] crc.toBitVec := by
  induction count generalizing crc with
  | zero => rfl
  | succ count ih =>
    rw [Function.iterate_succ_apply, Function.iterate_succ_apply, ih, deprecatedCrc32Bit_shiftUp]

theorem reverse_byte (byte : UInt8) :
    ((reverse8 byte).toUInt32 <<< 24).toBitVec.reverse = byte.toUInt32.toBitVec := by
  have shifted : ((reverse8 byte).toUInt32 <<< 24).toBitVec =
      (byte.toBitVec.reverse.setWidth 32) <<< 24 := rfl
  rw [shifted, Crc.reverse_shiftLeft]
  apply BitVec.eq_of_getLsbD_eq
  intro index inside
  rw [BitVec.getLsbD_ushiftRight, BitVec.getLsbD_reverse, BitVec.getMsbD_eq_getLsbD,
    BitVec.getLsbD_setWidth, BitVec.getLsbD_reverse, BitVec.getMsbD_eq_getLsbD]
  by_cases low : index < 8
  next =>
    have high : 24 + index < 32 := by omega
    have place : 31 - (24 + index) = 7 - index := by omega
    have back : 7 - (7 - index) = index := by omega
    have below : 7 - index < 32 ∧ 7 - index < 8 := by omega
    simp [inside, high, place, back, below]
  next =>
    have outside : ¬ 24 + index < 32 := by omega
    have high : byte.toBitVec.getLsbD index = false := BitVec.getLsbD_of_ge _ _ (by omega)
    simp [outside, high]

-- One byte: the deprecated register is the mirror image of the other.
theorem deprecatedCrc32Step_reverse (crc : UInt32) (byte : UInt8) :
    reverse32 (deprecatedCrc32Step crc (reverse8 byte)) = crc32Step (reverse32 crc) byte := by
  have length : (bitsOf byte).length = 8 := by simp [bitsOf]
  apply UInt32.toBitVec_inj.mp
  rw [crc32Step_feed, Crc.feed_word polynomial (length ▸ by decide), length, word_bitsOf,
    ← polynomial_reverse]
  have masked : deprecatedCrc32Step crc (reverse8 byte) =
      deprecatedCrc32Bit^[8] (crc ^^^ (reverse8 byte).toUInt32 <<< 24) :=
    UInt32.and_neg_one
  rw [masked, reverse32, deprecatedCrc32Bit_iterate, Crc.reverse_iterate, UInt32.toBitVec_xor,
    Crc.reverse_xor, reverse_byte]
  rfl

theorem deprecatedCrc32_reverse (crc : UInt32) (buf : List UInt8) :
    reverse32 ((buf.map reverse8).foldl deprecatedCrc32Step crc) =
      buf.foldl crc32Step (reverse32 crc) := by
  induction buf generalizing crc with
  | nil => rfl
  | cons byte rest ih => rw [List.map_cons, List.foldl_cons, ih, deprecatedCrc32Step_reverse, List.foldl_cons]

/-- `crc32` is `deprecated_crc32` with every bit order reversed and the result complemented. -/
theorem crc32_eq_deprecated (buf : List UInt8) :
    crc32 0 buf = ~~~ reverse32 (deprecatedCrc32 0 (buf.map reverse8)) := by
  have start : reverse32 (0 ^^^ 0xFFFFFFFF) = 0 ^^^ 0xFFFFFFFF := by decide +kernel
  rw [deprecatedCrc32, deprecatedCrc32_reverse, start, crc32]
  exact UInt32.xor_neg_one

end NetworkProj.Checksums
