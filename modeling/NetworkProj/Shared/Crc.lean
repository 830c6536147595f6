import Mathlib.Data.BitVec
import Mathlib.Logic.Function.Iterate

set_option autoImplicit false

/-!
# Cyclic redundancy checks

A reflected register of any width: the lowest bit of the register meets the next
bit of the message and leaves. Messages that differ in no more consecutive bits
than the register has never have the same check.
-/

namespace Crc

variable {width : Nat} (poly : BitVec width)

def shift (register : BitVec width) : BitVec width :=
  if register.getLsbD 0 then register >>> 1 ^^^ poly else register >>> 1

def feedBit (register : BitVec width) (bit : Bool) : BitVec width :=
  shift poly (register ^^^ (BitVec.ofBool bit).setWidth width)

def feed (register : BitVec width) (bits : List Bool) : BitVec width :=
  bits.foldl (feedBit poly) register

def word (width : Nat) (bits : List Bool) : BitVec width :=
  (BitVec.ofBoolListLE bits).setWidth width

theorem word_bit {bits : List Bool} (short : bits.length ≤ width) (index : Nat) :
    (word width bits).getLsbD index = bits.getD index false := by
  simp only [word, BitVec.getLsbD_setWidth, BitVec.getLsbD_ofBoolListLE]
  by_cases inside : index < width
  · simp [inside]
  · have outside : bits.length ≤ index := by omega
    simp [outside]

theorem word_inj {left right : List Bool} (length : left.length = right.length)
    (short : left.length ≤ width) (same : word width left = word width right) : left = right := by
  apply List.ext_getElem length
  intro index inside inside'
  have bit := congrArg (BitVec.getLsbD · index) same
  simpa [word_bit short, word_bit (length ▸ short), inside, inside'] using bit

theorem shift_xor (left right : BitVec width) :
    shift poly (left ^^^ right) = shift poly left ^^^ shift poly right := by
  apply BitVec.eq_of_getLsbD_eq
  intro index inside
  simp only [shift, BitVec.getLsbD_xor]
  cases left.getLsbD 0 <;> cases right.getLsbD 0 <;> simp <;> grind

theorem iterate_xor (count : Nat) (left right : BitVec width) :
    (shift poly)^[count] (left ^^^ right) = (shift poly)^[count] left ^^^ (shift poly)^[count] right := by
  induction count generalizing left right with
  | zero => rfl
  | succ count ih => simp only [Function.iterate_succ_apply, shift_xor, ih]

theorem shift_shiftLeft {register : BitVec width} (room : register.getLsbD (width - 1) = false) :
    shift poly (register <<< 1) = register := by
  have clear : (register <<< 1).getLsbD 0 = false := by simp
  rw [shift, clear, if_neg (by simp)]
  apply BitVec.eq_of_getLsbD_eq
  intro index inside
  by_cases last : index = width - 1
  · rw [last, room]
    simp
    omega
  · have below : 1 + index < width := by omega
    simp [below, BitVec.getLsbD_eq_getElem inside]

theorem iterate_shiftLeft {count : Nat} {register : BitVec width}
    (room : ∀ index, width ≤ index + count → register.getLsbD index = false) :
    (shift poly)^[count] (register <<< count) = register := by
  induction count with
  | zero => simp
  | succ count ih =>
    have top : (register <<< count).getLsbD (width - 1) = false := by
      rw [BitVec.getLsbD_shiftLeft]
      by_cases low : width - 1 < count
      · simp [low]
      · rw [room _ (by omega), Bool.and_false]
    rw [Function.iterate_succ_apply, BitVec.shiftLeft_add, shift_shiftLeft poly top]
    exact ih fun index above => room index (by omega)

theorem word_cons {bit : Bool} {rest : List Bool} (short : rest.length < width) :
    word width (bit :: rest) = (BitVec.ofBool bit).setWidth width ^^^ word width rest <<< 1 := by
  apply BitVec.eq_of_getLsbD_eq
  intro index inside
  rw [BitVec.getLsbD_xor, word_bit (Nat.succ_le_of_lt short), BitVec.getLsbD_shiftLeft,
    word_bit short.le]
  cases index with
  | zero => simp [inside]
  | succ index => simp [inside]

theorem feed_word {bits : List Bool} (short : bits.length ≤ width) (register : BitVec width) :
    feed poly register bits = (shift poly)^[bits.length] (register ^^^ word width bits) := by
  induction bits generalizing register with
  | nil =>
    have none : word width [] = BitVec.ofNat width 0 := by
      apply BitVec.eq_of_getLsbD_eq
      simp [word_bit]
    simp [feed, none]
  | cons bit rest ih =>
    have fewer : rest.length < width := Nat.lt_of_succ_le short
    have room : (word width rest).getLsbD (width - 1) = false := by
      rw [word_bit fewer.le, List.getD_eq_getElem?_getD, List.getElem?_eq_none (by omega)]
      rfl
    have later := ih fewer.le (feedBit poly register bit)
    rw [List.length_cons, Function.iterate_succ_apply, word_cons fewer, ← BitVec.xor_assoc, shift_xor,
      shift_shiftLeft poly room]
    exact later

variable {poly}

/-- Nothing is lost in a shift: the bit that leaves shows up at the top. -/
theorem shift_inj (top : poly.getLsbD (width - 1) = true) {left right : BitVec width}
    (same : shift poly left = shift poly right) : left = right := by
  have positive : 0 < width := by
    by_contra empty
    obtain rfl : width = 0 := by omega
    simp at top
  have zero : shift poly (left ^^^ right) = BitVec.ofNat width 0 := by rw [shift_xor, same, BitVec.xor_self]
  generalize difference : left ^^^ right = register at zero
  have lowest : register.getLsbD 0 = false := by
    by_contra set
    rw [shift, if_pos (by simpa using set)] at zero
    have highest := congrArg (BitVec.getLsbD · (width - 1)) zero
    have beyond : 1 + (width - 1) = width := by omega
    simp [top, beyond] at highest
  rw [shift, lowest, if_neg (by simp)] at zero
  have clear : register = BitVec.ofNat width 0 := by
    apply BitVec.eq_of_getLsbD_eq
    intro index inside
    cases index with
    | zero => simpa using lowest
    | succ index =>
      have bit := congrArg (BitVec.getLsbD · index) zero
      simpa [Nat.add_comm] using bit
  rwa [clear, BitVec.xor_eq_zero_iff] at difference

theorem feedBit_inj (top : poly.getLsbD (width - 1) = true) {left right : BitVec width} {bit : Bool}
    (same : feedBit poly left bit = feedBit poly right bit) : left = right :=
  (BitVec.xor_left_inj _).mp (shift_inj top same)

theorem feed_inj (top : poly.getLsbD (width - 1) = true) {left right : BitVec width}
    {bits : List Bool} (same : feed poly left bits = feed poly right bits) : left = right := by
  induction bits generalizing left right with
  | nil => exact same
  | cons bit rest ih => exact feedBit_inj top (ih same)

theorem iterate_inj (top : poly.getLsbD (width - 1) = true) (count : Nat) {left right : BitVec width}
    (same : (shift poly)^[count] left = (shift poly)^[count] right) : left = right :=
  Function.Injective.iterate (fun _ _ => shift_inj top) count same

/-- A burst no longer than the register changes the check. -/
theorem feed_burst (top : poly.getLsbD (width - 1) = true) {old new : List Bool}
    (length : old.length = new.length) (short : old.length ≤ width) (differ : old ≠ new)
    (register : BitVec width) (before after : List Bool) :
    feed poly register (before ++ old ++ after) ≠ feed poly register (before ++ new ++ after) := by
  intro same
  simp only [feed, List.foldl_append] at same
  have inner := feed_inj top same
  change feed poly _ old = feed poly _ new at inner
  rw [feed_word poly short, feed_word poly (length ▸ short), length] at inner
  have words := (BitVec.xor_right_inj _).mp (iterate_inj top _ inner)
  exact differ (word_inj length short words)

section Mirror

-- The same register the other way round: its highest bit leaves.
def shiftUp (poly register : BitVec width) : BitVec width :=
  if register.msb then register <<< 1 ^^^ poly else register <<< 1

theorem reverse_xor (left right : BitVec width) :
    (left ^^^ right).reverse = left.reverse ^^^ right.reverse := by
  apply BitVec.eq_of_getLsbD_eq
  intro index inside
  simp [BitVec.getLsbD_reverse]

theorem reverse_shiftLeft (register : BitVec width) (count : Nat) :
    (register <<< count).reverse = register.reverse >>> count := by
  apply BitVec.eq_of_getLsbD_eq
  intro index inside
  simp [BitVec.getLsbD_reverse, BitVec.getMsbD_shiftLeft, Nat.add_comm]

theorem reverse_shiftUp (poly register : BitVec width) :
    (shiftUp poly register).reverse = shift poly.reverse register.reverse := by
  have leaves : register.reverse.getLsbD 0 = register.msb := BitVec.getLsbD_reverse
  rw [shift, leaves, shiftUp]
  split
  · rw [reverse_xor, reverse_shiftLeft]
  · exact reverse_shiftLeft register 1

theorem reverse_iterate (poly : BitVec width) (count : Nat) (register : BitVec width) :
    ((shiftUp poly)^[count] register).reverse = (shift poly.reverse)^[count] register.reverse := by
  induction count generalizing register with
  | zero => rfl
  | succ count ih => rw [Function.iterate_succ_apply, Function.iterate_succ_apply, ih, reverse_shiftUp]

end Mirror

end Crc
