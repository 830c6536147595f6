import NetworkProj.Model.Checksum
import NetworkProj.Shared.OnesComplement

set_option autoImplicit false

namespace NetworkProj.Checksums

variable {order : ByteOrder} {memory : Nat → Option UInt8} {buf : List UInt8}

-- The buffer, and the bytes that follow it as far as they are mapped.
def memoryOf (buf : List UInt8) (behind : Nat → Option UInt8) (offset : Nat) : Option UInt8 :=
  if offset < buf.length then buf[offset]? else behind (offset - buf.length)

def packed (last : List UInt8) : UInt32 :=
  word32 (last.getD 0 0) (last.getD 1 0) (last.getD 2 0) (last.getD 3 0)

def total (order : ByteOrder) : List UInt8 → Nat
  | first :: second :: third :: fourth :: rest =>
    (order.word32 first second third fourth).toNat + total order rest
  | last => (packed last).toNat

/-- `checksum32` returns, has read only the buffer, and returns a ones'-complement sum of it. -/
def SumsUp (order : ByteOrder) (crc : UInt32) (buf : List UInt8) (behind : Nat → Option UInt8) :
    Prop :=
  ∃ fuel value reads,
    checksum32 fuel order crc (memoryOf buf behind) (UInt64.ofNat buf.length) = some (value, reads) ∧
      (∀ offset ∈ reads, offset < buf.length) ∧
      value.toNat ≡ total order buf [MOD 2 ^ 32 - 1] ∧ (value = 0 → total order buf = 0)

section Words

def Holds (memory : Nat → Option UInt8) (offset : Nat) (bytes : List UInt8) : Prop :=
  ∀ index < bytes.length, memory (offset + index) = bytes[index]?

theorem holds_memoryOf (buf : List UInt8) (behind : Nat → Option UInt8) :
    Holds (memoryOf buf behind) 0 buf := by
  intro index inside
  rw [Nat.zero_add, memoryOf, if_pos inside]

theorem holds_drop {offset : Nat} {bytes : List UInt8} (holds : Holds memory offset bytes)
    (count : Nat) : Holds memory (offset + count) (bytes.drop count) := by
  intro index inside
  rw [List.length_drop] at inside
  rw [Nat.add_assoc, holds (count + index) (by omega), List.getElem?_drop]

theorem total_lt (order : ByteOrder) (buf : List UInt8) :
    4 * total order buf < 2 ^ 32 * (buf.length + 4) := by
  fun_induction total order buf with
  | case1 first second third fourth rest ih =>
    have word := (order.word32 first second third fourth).toNat_lt
    simp only [List.length_cons]
    omega
  | case2 last _ =>
    have word := (packed last).toNat_lt
    omega

theorem words_pass (order : ByteOrder) {state : Checksum32} {first second third fourth : UInt8}
    {rest : List UInt8} (left : state.len ≠ 0)
    (holds : Holds memory state.offset (first :: second :: third :: fourth :: rest)) :
    Checksum32.words order memory state = .ok (some ({ state with
        sum := state.sum + (order.word32 first second third fourth).toUInt64
        offset := state.offset + 4
        len := state.len - 4 },
      [state.offset, state.offset + 1, state.offset + 2, state.offset + 3])) := by
  have byte (index : Nat) (inside : index < 4) := holds index (by simp only [List.length_cons]; omega)
  have loaded : loadWord order memory state.offset = some (order.word32 first second third fourth) := by
    have zero := byte 0 (by decide)
    have one := byte 1 (by decide)
    have two := byte 2 (by decide)
    have three := byte 3 (by decide)
    rw [Nat.add_zero] at zero
    simp [loadWord, zero, one, two, three]
  simp [Checksum32.words, left, loaded]

theorem words_run (order : ByteOrder) {count : Nat} (state : Checksum32) {bytes : List UInt8}
    (length : bytes.length = 4 * count) (len : state.len.toNat = bytes.length)
    (holds : Holds memory state.offset bytes) {fuel : Nat} (enough : count < fuel) :
    ∃ reads, Loop.run (Checksum32.words order memory) fuel state = .ok ({ state with
          sum := state.sum + UInt64.ofNat (total order bytes)
          offset := state.offset + bytes.length
          len := 0 }, reads) ∧
      ∀ offset ∈ reads, offset < state.offset + bytes.length := by
  induction count generalizing state bytes fuel with
  | zero =>
    obtain rfl := List.eq_nil_of_length_eq_zero length
    have ended : state.len = 0 := UInt64.toNat_inj.mp len
    have finished : Loop.Finished (Checksum32.words order memory) state := by
      simp [Loop.Finished, Checksum32.words, ended]
    have nothing : UInt64.ofNat (total order []) = 0 := rfl
    refine ⟨[], ?_, by simp⟩
    rw [Loop.run_finished _ _ _ finished, nothing, UInt64.add_zero, ← ended]
    rfl
  | succ count ih =>
    match bytes, length with
    | first :: second :: third :: fourth :: rest, length =>
      obtain ⟨fuel, rfl⟩ : ∃ less, fuel = less + 1 := ⟨fuel - 1, by omega⟩
      simp only [List.length_cons] at length len
      have left : state.len ≠ 0 := fun zero => by
        rw [zero] at len
        cases len
      have fewer : (state.len - 4).toNat = rest.length := by
        rw [UInt64.toNat_sub_of_le]
        · exact Nat.sub_eq_of_eq_add len
        · rw [UInt64.le_iff_toNat_le, len]
          exact Nat.le_add_left 4 rest.length
      have pass := words_pass order left holds
      have shorter : rest.length = 4 * count := by omega
      have later := holds_drop holds 4
      obtain ⟨reads, ran, inside⟩ :=
        ih { state with
          sum := state.sum + (order.word32 first second third fourth).toUInt64
          offset := state.offset + 4
          len := state.len - 4 } shorter fewer later (Nat.lt_of_succ_lt_succ enough)
      have sum : state.sum + (order.word32 first second third fourth).toUInt64 +
          UInt64.ofNat (total order rest) =
          state.sum + UInt64.ofNat (total order (first :: second :: third :: fourth :: rest)) := by
        rw [total, UInt64.ofNat_add, ← UInt64.add_assoc, UInt64.ofNat_uInt32ToNat]
      have offset : state.offset + 4 + rest.length =
          state.offset + (first :: second :: third :: fourth :: rest).length := by
        simp only [List.length_cons]
        omega
      rw [sum, offset] at ran
      refine ⟨[state.offset, state.offset + 1, state.offset + 2, state.offset + 3] ++ reads, ?_, ?_⟩
      · rw [Loop.run_next _ _ _ _ _ pass, ran]
      · intro read member
        rcases List.mem_append.mp member with here | later
        · simp only [List.mem_cons, List.not_mem_nil, or_false] at here
          rw [← offset]
          omega
        · have bound := inside read later
          rwa [offset] at bound

-- A length that four does not divide is never counted down to zero.
theorem words_unending {fuel : Nat} {state final : Checksum32} {reads : List Nat}
    (apart : ¬ 4 ∣ state.len.toNat)
    (ran : Loop.run (Checksum32.words order memory) fuel state = .ok (final, reads)) :
    final.len ≠ 0 := by
  have kept : ¬ 4 ∣ final.len.toNat := by
    apply Loop.run_invariant (fun _ current => ¬ 4 ∣ current.len.toNat) ?_ [] apart ran
    intro _ current next _ apart pass
    unfold Checksum32.words at pass
    split at pass
    · cases pass
    · split at pass
      · cases pass
      · cases pass
        rw [UInt64.toNat_sub]
        have four : (4 : UInt64).toNat = 4 := rfl
        omega
  intro zero
  rw [zero] at kept
  exact kept ⟨0, rfl⟩

end Words

section Value

variable {crc : UInt32} {behind : Nat → Option UInt8}

theorem checksum32_unending (apart : ¬ 4 ∣ buf.length) (size : buf.length < 2 ^ 64) (fuel : Nat) :
    checksum32 fuel order crc (memoryOf buf behind) (UInt64.ofNat buf.length) = none := by
  have len : (UInt64.ofNat buf.length).toNat = buf.length := UInt64.toNat_ofNat_of_lt' size
  rw [← len] at apart
  unfold checksum32
  split
  · rfl
  · next state reads ran => rw [if_neg (words_unending apart ran)]

theorem rest_nothing (count : Nat) {state : Checksum32} (ended : state.len = 0)
    (zero : state.remain = 0) : Checksum32.rest memory count state = some (state, []) := by
  induction count with
  | zero => rfl
  | succ count ih =>
    have same : { state with remain := state.remain <<< 8 } = state := by
      have shifted : state.remain <<< 8 = state.remain := by
        rw [zero]
        rfl
      rw [shifted]
    unfold Checksum32.rest
    rw [same, if_pos ended, ih]

theorem fold_toNat (sum : UInt64) :
    ((sum >>> 32) + sum).toUInt32.toNat = OnesComplement.fold (2 ^ 32) sum.toNat := by
  have high : (sum >>> 32).toNat = sum.toNat / 2 ^ 32 := by
    rw [UInt64.toNat_shiftRight, Nat.shiftRight_eq_div_pow]
    rfl
  rw [UInt64.toNat_toUInt32, UInt64.toNat_add, high, OnesComplement.fold]
  omega

theorem checksum32_folds (order : ByteOrder) (crc : UInt32) (behind : Nat → Option UInt8)
    (whole : 4 ∣ buf.length) (size : buf.length < 2 ^ 64) {fuel : Nat}
    (enough : buf.length / 4 < fuel) :
    ∃ value reads,
      checksum32 fuel order crc (memoryOf buf behind) (UInt64.ofNat buf.length) = some (value, reads) ∧
        (∀ offset ∈ reads, offset < buf.length) ∧
        value.toNat = OnesComplement.fold (2 ^ 32) (total order buf % 2 ^ 64) := by
  obtain ⟨count, length⟩ := whole
  have len : (UInt64.ofNat buf.length).toNat = buf.length := UInt64.toNat_ofNat_of_lt' size
  have passes : count < fuel := by omega
  obtain ⟨reads, ran, inside⟩ := words_run order
    { sum := 0, offset := 0, len := UInt64.ofNat buf.length, remain := 0 }
    length len (holds_memoryOf buf behind) passes
  have sum : 0 + UInt64.ofNat (total order buf) + UInt32.toUInt64 0 = UInt64.ofNat (total order buf) := by
    simp
  refine ⟨((UInt64.ofNat (total order buf) >>> 32) + UInt64.ofNat (total order buf)).toUInt32, reads,
    ?_, by simpa using inside, ?_⟩
  · unfold checksum32
    rw [ran]
    dsimp only
    rw [if_pos rfl, rest_nothing 4 rfl rfl]
    simp only [Option.bind_eq_bind, Option.bind_some, sum, List.append_nil]
    rfl
  · rw [fold_toNat, UInt64.toNat_ofNat']

theorem checksum32_more {fuel : Nat} {result : UInt32 × List Nat} {len : UInt64}
    (returned : checksum32 fuel order crc memory len = some result) (more : Nat) :
    checksum32 (fuel + more) order crc memory len = some result := by
  unfold checksum32 at returned ⊢
  split at returned
  · cases returned
  · next state reads ran =>
    by_cases ended : state.len = 0
    next =>
      have finished : Loop.Finished (Checksum32.words order memory) state := by
        simp [Loop.Finished, Checksum32.words, ended]
      rwa [Loop.run_more ran finished more]
    next =>
      rw [if_neg ended] at returned
      cases returned

theorem not_sumsUp_apart (apart : ¬ 4 ∣ buf.length) (size : buf.length < 2 ^ 64) :
    ¬ SumsUp order crc buf behind := by
  rintro ⟨fuel, value, reads, returned, _⟩
  rw [checksum32_unending apart size fuel] at returned
  cases returned

theorem sumsUp_whole (whole : 4 ∣ buf.length) (size : buf.length < 2 ^ 64) :
    SumsUp order crc buf behind ↔
      total order buf < 2 ^ 64 ∧ total order buf / 2 ^ 32 + total order buf % 2 ^ 32 < 2 ^ 32 := by
  have large : total order buf / (2 ^ 32) ^ 2 + 2 < 2 ^ 32 := by
    have bound := total_lt order buf
    omega
  have law := OnesComplement.fold_modEq_iff large
  constructor
  · rintro ⟨fuel, value, reads, returned, _, same, _⟩
    have enough : buf.length / 4 < fuel + (buf.length / 4 + 1) := by omega
    obtain ⟨value', reads', returned', _, folded⟩ :=
      checksum32_folds order crc behind whole size enough
    rw [checksum32_more returned] at returned'
    cases returned'
    rw [folded] at same
    exact law.mp same
  · rintro ⟨fits, nothing⟩
    obtain ⟨value, reads, returned, inside, folded⟩ :=
      checksum32_folds order crc behind whole size (Nat.lt_succ_self _)
    refine ⟨_, value, reads, returned, inside, ?_, ?_⟩
    · rw [folded]
      exact law.mpr ⟨fits, nothing⟩
    · intro zero
      rw [Nat.mod_eq_of_lt fits, zero, OnesComplement.fold, Nat.mod_eq_of_lt nothing] at folded
      have none : (0 : UInt32).toNat = 0 := rfl
      omega

end Value

section Law

/-- `checksum32` keeps the law on whole words whose sum fits into 64 bits and whose two halves add up
without a carry. -/
theorem checksum32_sumsUp_iff (order : ByteOrder) (crc : UInt32) (buf : List UInt8)
    (behind : Nat → Option UInt8) (size : buf.length < 2 ^ 64) :
    SumsUp order crc buf behind ↔
      4 ∣ buf.length ∧ total order buf < 2 ^ 64 ∧
        total order buf / 2 ^ 32 + total order buf % 2 ^ 32 < 2 ^ 32 := by
  by_cases whole : 4 ∣ buf.length
  next => simp only [sumsUp_whole whole size, whole, true_and]
  next => simp only [not_sumsUp_apart whole size, whole, false_and]

-- The sum of these words carries into its upper half.
theorem checksum32_sumsUp_words :
    SumsUp .little 0 [0xFF, 0xFF, 0xFF, 0xFF, 2, 0, 0, 0] fun _ => none :=
  (checksum32_sumsUp_iff _ _ _ _ (by decide)).mpr (by decide)

/-- A single byte keeps the loop running; three words lose a carry, and the checksum of a sum other
than zero is zero. -/
theorem checksum32_not_sumsUp :
    ¬ SumsUp .little 0 [1] (fun _ => some 0) ∧
      ¬ SumsUp .little 0 [0xFF, 0xFF, 0xFF, 0xFF, 0xFF, 0xFF, 0xFF, 0xFF, 1, 0, 0, 0] fun _ => none := by
  constructor
  · exact not_sumsUp_apart (by decide) (by decide)
  · rw [sumsUp_whole (by decide) (by decide)]
    decide

end Law

end NetworkProj.Checksums
