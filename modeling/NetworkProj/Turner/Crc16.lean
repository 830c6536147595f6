import Mathlib.Data.List.GetD
import NetworkProj.Model.TurnerTcpd
import NetworkProj.Shared.OnesComplement

set_option autoImplicit false

namespace NetworkProj.Turner

variable {order : ByteOrder} {data : List UInt8}

/-- The big-endian words of a buffer; a last single byte is followed by a zero. -/
def bigEndianWords : List UInt8 → List Nat
  | first :: second :: rest => (256 * first.toNat + second.toNat) :: bigEndianWords rest
  | [last] => [256 * last.toNat]
  | [] => []

/-- The complement of the sum with end-around carry, in network byte order. The sum starts with one of
the two zeros, 0 and 0xffff. -/
def internetChecksum (order : ByteOrder) (start : Nat) (data : List UInt8) : UInt16 :=
  order.swap16 (~~~ UInt16.ofNat (OnesComplement.sum 0xffff start (bigEndianWords data)))

section Accumulator

-- The test below the addition is never true of a `uint16_t`.
theorem accumulate_eq (acc word : UInt16) : Crc16.accumulate acc word = acc + word := by
  have small : ¬ (acc + word).toNat > 0xffff := by
    have bound := (acc + word).toNat_lt
    omega
  rw [Crc16.accumulate, if_neg small]

theorem swap16_ofNat (order : ByteOrder) (first second : UInt8) :
    order.swap16 (order.word16 first second) = UInt16.ofNat (256 * first.toNat + second.toNat) := by
  rw [ByteOrder.swap16_word16, ← ByteOrder.toNat_word16, UInt16.ofNat_toNat]

structure Accumulated (data : List UInt8) (state : Crc16) : Prop where
  even : state.i % 2 = 0
  within : state.i ≤ data.length
  small : state.i ≤ intMax
  sum : state.acc + UInt16.ofNat (bigEndianWords (data.drop state.i)).sum =
    0xffff + UInt16.ofNat (bigEndianWords data).sum

theorem accumulated_start (data : List UInt8) : Accumulated data { acc := 0xffff, i := 0 } where
  even := rfl
  within := Nat.zero_le _
  small := Nat.zero_le _
  sum := rfl

theorem block_pass {state next : Crc16} {emitted : List Empty}
    (pass : Crc16.block order data state = .ok (some (next, emitted))) :
    state.i + 1 < data.length ∧ state.i + 2 ≤ intMax ∧ next.i = state.i + 2 ∧
      next.acc = state.acc +
        UInt16.ofNat (256 * (data.getD state.i 0).toNat + (data.getD (state.i + 1) 0).toNat) := by
  unfold Crc16.block at pass
  split at pass
  next more =>
    dsimp only at pass
    split at pass
    next fits =>
      cases pass
      exact ⟨more, fits, rfl, by rw [accumulate_eq, swap16_ofNat]⟩
    next => cases pass
  next => cases pass

theorem accumulated_pass {state next : Crc16} {emitted : List Empty}
    (accumulated : Accumulated data state)
    (pass : Crc16.block order data state = .ok (some (next, emitted))) : Accumulated data next := by
  obtain ⟨more, fits, i, acc⟩ := block_pass pass
  have even := accumulated.even
  have split : data.drop state.i =
      data.getD state.i 0 :: data.getD (state.i + 1) 0 :: data.drop (state.i + 2) := by
    have here : state.i < data.length := by omega
    rw [List.drop_eq_getElem_cons here, List.drop_eq_getElem_cons more, List.getD_eq_getElem _ _ here,
      List.getD_eq_getElem _ _ more]
  have sum := accumulated.sum
  rw [split, bigEndianWords, List.sum_cons, UInt16.ofNat_add, ← UInt16.add_assoc] at sum
  exact {
    even := by omega
    within := by omega
    small := by omega
    sum := by rw [acc, i, sum] }

-- Where the loop ends, at most one byte is left.
theorem accumulated_finished {state : Crc16} (accumulated : Accumulated data state)
    (finished : Loop.Finished (Crc16.block order data) state) :
    data.length ≤ intMax ∧
      (if data.length % 2 = 1 then
          state.acc + UInt16.ofNat (256 * (data.getD (data.length - 1) 0).toNat)
        else state.acc) = 0xffff + UInt16.ofNat (bigEndianWords data).sum := by
  have stopped : ¬ state.i + 1 < data.length := by
    intro more
    unfold Loop.Finished Crc16.block at finished
    rw [if_pos more] at finished
    dsimp only at finished
    split at finished <;> cases finished
  have even := accumulated.even
  have within := accumulated.within
  have small := accumulated.small
  have sum := accumulated.sum
  unfold intMax at small ⊢
  refine ⟨by omega, ?_⟩
  by_cases odd : data.length % 2 = 1
  next =>
    have last : state.i = data.length - 1 := by omega
    have here : data.length - 1 < data.length := by omega
    have left : data.drop state.i = [data.getD (data.length - 1) 0] := by
      rw [last, List.drop_eq_getElem_cons here, List.getD_eq_getElem _ _ here,
        List.drop_of_length_le (by omega)]
    rw [if_pos odd, ← sum, left]
    rfl
  next =>
    have left : data.drop state.i = [] := List.drop_of_length_le (by omega)
    rw [if_neg odd, ← sum, left]
    simp [bigEndianWords]

theorem block_falls {state next : Crc16} {emitted : List Empty}
    (pass : Crc16.block order data state = .ok (some (next, emitted))) :
    data.length - next.i < data.length - state.i := by
  obtain ⟨more, _, i, _⟩ := block_pass pass
  omega

theorem crc16_ran {state : Crc16} {outputs : List Empty}
    (ran : Loop.run (Crc16.block order data) (data.length + 1) { acc := 0xffff, i := 0 } =
      .ok (state, outputs)) :
    Accumulated data state ∧ Loop.Finished (Crc16.block order data) state :=
  ⟨Loop.run_invariant (fun _ => Accumulated data)
      (fun _ _ _ _ accumulated pass => accumulated_pass accumulated pass) [] (accumulated_start data) ran,
    Loop.run_done (fun state => data.length - state.i) (fun _ _ _ => block_falls)
      (Nat.lt_succ_self data.length) ran⟩

-- `i` does not overflow before the end of a shorter buffer.
theorem block_defined (short : data.length ≤ intMax) {state : Crc16}
    (accumulated : Accumulated data state) (stop : Unit) :
    Crc16.block order data state ≠ .error stop := by
  intro stopped
  have even := accumulated.even
  unfold intMax at short
  unfold Crc16.block intMax at stopped
  split at stopped
  next more =>
    dsimp only at stopped
    split at stopped
    next => cases stopped
    next => omega
  next => cases stopped

-- The sum of the words modulo 2^16, with no carry brought around.
theorem crc16_eq (order : ByteOrder) (short : data.length ≤ intMax) :
    crc16 order data =
      some (order.swap16 (~~~ (0xffff + UInt16.ofNat (bigEndianWords data).sum))) := by
  obtain ⟨state, outputs, ran⟩ : ∃ state outputs,
      Loop.run (Crc16.block order data) (data.length + 1) { acc := 0xffff, i := 0 } =
        .ok (state, outputs) :=
    Loop.run_ok_of (Accumulated data) (fun _ _ _ => accumulated_pass)
      (fun _ stop accumulated => block_defined short accumulated stop) _ (accumulated_start data)
  obtain ⟨accumulated, finished⟩ := crc16_ran ran
  obtain ⟨_, sum⟩ := accumulated_finished accumulated finished
  simp only [crc16, ran, accumulate_eq, swap16_ofNat]
  rw [← sum]
  rfl

theorem crc16_undefined (order : ByteOrder) (long : intMax < data.length) : crc16 order data = none := by
  unfold crc16
  split
  next => rfl
  next state outputs ran =>
    obtain ⟨accumulated, finished⟩ := crc16_ran ran
    obtain ⟨short, _⟩ := accumulated_finished accumulated finished
    omega

end Accumulator

section Law

theorem word_le (data : List UInt8) : ∀ word ∈ bigEndianWords data, word ≤ 0xffff := by
  fun_induction bigEndianWords data with
  | case1 first second rest ih =>
    have high := first.toNat_lt
    have low := second.toNat_lt
    intro word member
    rcases List.mem_cons.mp member with rfl | later
    · omega
    · exact ih word later
  | case2 last =>
    have high := last.toNat_lt
    simp
    omega
  | case3 => simp

/-- A sum whose dropped carries make no difference: there are 65535 of them, or a multiple. -/
def Lapped (sum : Nat) : Prop :=
  65535 ∣ (0xffff + sum) / 2 ^ 16 ∧ sum % 2 ^ 16 ≠ 1

theorem truncated_iff {start : Nat} (either : start = 0 ∨ start = 0xffff) (data : List UInt8) :
    0xffff + UInt16.ofNat (bigEndianWords data).sum =
        UInt16.ofNat (OnesComplement.sum 0xffff start (bigEndianWords data)) ↔
      Lapped (bigEndianWords data).sum ∧ 0 < start + (bigEndianWords data).sum := by
  have low : start ≤ 0xffff := by omega
  have truncated : (0xffff + UInt16.ofNat (bigEndianWords data).sum).toNat =
      (0xffff + (bigEndianWords data).sum) % 2 ^ 16 := by
    rw [UInt16.toNat_add, UInt16.toNat_ofNat', Nat.add_mod_mod]
    rfl
  have summed := OnesComplement.sum_le low (word_le data)
  rw [← UInt16.toNat_inj, truncated, UInt16.toNat_ofNat_of_lt' (Nat.lt_succ_of_le summed)]
  by_cases some : 0 < start + (bigEndianWords data).sum
  next =>
    rw [OnesComplement.sum_eq low (word_le data) some, Lapped]
    generalize (bigEndianWords data).sum = sum at some
    rcases either with rfl | rfl <;> omega
  next =>
    have none : ¬ 0 < OnesComplement.sum 0xffff start (bigEndianWords data) := fun positive =>
      some (OnesComplement.sum_pos.mp positive)
    have zero : start = 0 ∧ (bigEndianWords data).sum = 0 := by omega
    rw [zero.2]
    omega

/-- `crc16` is the Internet checksum only where the carries that its accumulator drops make no
difference, with either zero as the empty sum. -/
theorem crc16_internet_iff (order : ByteOrder) (data : List UInt8) :
    (crc16 order data = some (internetChecksum order 0 data) ↔
        data.length < 2 ^ 31 ∧ Lapped (bigEndianWords data).sum ∧ (bigEndianWords data).sum ≠ 0) ∧
      (crc16 order data = some (internetChecksum order 0xffff data) ↔
        data.length < 2 ^ 31 ∧ Lapped (bigEndianWords data).sum) := by
  have same {start : Nat} (either : start = 0 ∨ start = 0xffff) :
      crc16 order data = some (internetChecksum order start data) ↔
        data.length < 2 ^ 31 ∧
          Lapped (bigEndianWords data).sum ∧ 0 < start + (bigEndianWords data).sum := by
    by_cases short : data.length ≤ intMax
    next =>
      have within : data.length < 2 ^ 31 := Nat.lt_succ_of_le short
      rw [crc16_eq order short, Option.some_inj, internetChecksum, ← truncated_iff either]
      simp only [within, true_and]
      constructor
      · intro swapped
        exact UInt16.not_inj.mp (order.swap16_inj swapped)
      · intro sums
        rw [sums]
    next =>
      rw [crc16_undefined order (by omega)]
      unfold intMax at short
      simp
      omega
  constructor
  · rw [same (.inl rfl), Nat.zero_add, Nat.pos_iff_ne_zero]
  · have positive : 0 < 0xffff + (bigEndianWords data).sum := by omega
    rw [same (.inr rfl)]
    simp only [positive, and_true]

-- The word 1 overflows the accumulator.
theorem crc16_not_internet :
    crc16 .little [0, 1] ≠ some (internetChecksum .little 0 [0, 1]) ∧
      crc16 .little [0, 1] ≠ some (internetChecksum .little 0xffff [0, 1]) := by
  decide

end Law

end NetworkProj.Turner
