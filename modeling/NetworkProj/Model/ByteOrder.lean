import NetworkProj.Model.Header

set_option autoImplicit false

namespace NetworkProj

inductive ByteOrder where
  | little
  | big
deriving DecidableEq

namespace ByteOrder

variable (order : ByteOrder)

def word32 (first second third fourth : UInt8) : UInt32 :=
  match order with
  | .little => NetworkProj.word32 fourth third second first
  | .big => NetworkProj.word32 first second third fourth

def word16 (first second : UInt8) : UInt16 :=
  match order with
  | .little => second.toUInt16 <<< 8 ||| first.toUInt16
  | .big => first.toUInt16 <<< 8 ||| second.toUInt16

def bytes16 (word : UInt16) : List UInt8 :=
  match order with
  | .little => [word.toUInt8, (word >>> 8).toUInt8]
  | .big => [(word >>> 8).toUInt8, word.toUInt8]

theorem length_bytes16 (word : UInt16) : (order.bytes16 word).length = 2 := by
  cases order <;> rfl

-- `ntohs`, and `htons` too.
def swap16 (word : UInt16) : UInt16 :=
  match order with
  | .little => word <<< 8 ||| word >>> 8
  | .big => word

theorem swap16_word16 (first second : UInt8) :
    order.swap16 (order.word16 first second) = big.word16 first second := by
  cases order with
  | big => rfl
  | little =>
    apply UInt16.toBitVec_inj.mp
    apply BitVec.eq_of_getLsbD_eq
    intro i small
    simp [swap16, word16]
    grind

@[simp] theorem swap16_swap16 (word : UInt16) : order.swap16 (order.swap16 word) = word := by
  cases order with
  | big => rfl
  | little =>
    apply UInt16.toBitVec_inj.mp
    apply BitVec.eq_of_getLsbD_eq
    intro i small
    simp [swap16]
    grind

theorem swap16_inj {left right : UInt16} (same : order.swap16 left = order.swap16 right) :
    left = right := by
  rw [← swap16_swap16 order left, same, swap16_swap16]

theorem word16_bytes (word : UInt16) :
    (word >>> 8).toUInt8.toUInt16 <<< 8 ||| word.toUInt8.toUInt16 = word := by
  apply UInt16.toBitVec_inj.mp
  apply BitVec.eq_of_getLsbD_eq
  intro i small
  simp [-UInt16.toUInt16_toUInt8]
  grind

theorem bytes_word16 (high low : UInt8) :
    (high.toUInt16 <<< 8 ||| low.toUInt16).toUInt8 = low ∧
      ((high.toUInt16 <<< 8 ||| low.toUInt16) >>> 8).toUInt8 = high := by
  constructor <;> apply UInt8.toBitVec_inj.mp <;> apply BitVec.eq_of_getLsbD_eq
  · intro i small
    simp
  · intro i small
    simp
    grind

theorem word16_eq_iff (first second : UInt8) (word : UInt16) :
    order.word16 first second = word ↔ order.bytes16 word = [first, second] := by
  have loaded := bytes_word16 second first
  have loaded' := bytes_word16 first second
  have stored := word16_bytes word
  constructor
  · rintro rfl
    cases order <;> simp [bytes16, word16, loaded, loaded']
  · intro bytes
    cases order with
    | little =>
      obtain ⟨rfl, rest⟩ := List.cons.inj bytes
      obtain ⟨rfl, _⟩ := List.cons.inj rest
      exact stored
    | big =>
      obtain ⟨rfl, rest⟩ := List.cons.inj bytes
      obtain ⟨rfl, _⟩ := List.cons.inj rest
      exact stored

theorem bytes16_inj {left right : UInt16} (same : order.bytes16 left = order.bytes16 right) :
    left = right := by
  obtain ⟨first, second, stored⟩ : ∃ first second, order.bytes16 right = [first, second] :=
    List.length_eq_two.mp (order.length_bytes16 right)
  rw [← (order.word16_eq_iff first second left).mpr (same.trans stored),
    (order.word16_eq_iff first second right).mpr stored]

theorem toNat_word16 (first second : UInt8) :
    (big.word16 first second).toNat = 256 * first.toNat + second.toNat := by
  have low := first.toNat_lt
  have low' := second.toNat_lt
  have shifted : (first.toUInt16 <<< 8).toNat = 2 ^ 8 * first.toNat := by
    have eight : (8 : UInt16).toNat % 16 = 8 := rfl
    rw [UInt16.toNat_shiftLeft, UInt8.toNat_toUInt16, eight, Nat.shiftLeft_eq, Nat.mul_comm]
    exact Nat.mod_eq_of_lt (by omega)
  rw [word16, UInt16.toNat_or, shifted, UInt8.toNat_toUInt16]
  exact (Nat.two_pow_add_eq_or_of_lt low' _).symm

end ByteOrder

end NetworkProj
