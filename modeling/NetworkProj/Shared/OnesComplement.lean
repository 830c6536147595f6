import Mathlib.Data.Nat.ModEq
import Mathlib.Algebra.BigOperators.Group.List.Basic

set_option autoImplicit false

namespace OnesComplement

section Sum

variable {top start : Nat} {words : List Nat}

def add (top left right : Nat) : Nat :=
  if left + right ≤ top then left + right else left + right - top

def sum (top start : Nat) (words : List Nat) : Nat :=
  words.foldl (add top) start

theorem add_le {left right : Nat} (first : left ≤ top) (second : right ≤ top) :
    add top left right ≤ top := by
  unfold add
  split <;> omega

theorem add_modEq (top left right : Nat) : add top left right ≡ left + right [MOD top] := by
  unfold add
  split
  · rfl
  · next above =>
    have whole : left + right - top + top = left + right := by omega
    have same : left + right - top + top ≡ left + right - top [MOD top] := Nat.add_modEq_right
    rw [whole] at same
    exact same.symm

theorem add_pos {left right : Nat} : 0 < add top left right ↔ 0 < left + right := by
  unfold add
  split <;> omega

theorem sum_le (first : start ≤ top) (fit : ∀ word ∈ words, word ≤ top) :
    sum top start words ≤ top := by
  induction words generalizing start with
  | nil => exact first
  | cons word rest ih =>
    exact ih (add_le first (fit word (by simp))) fun later inside => fit later (by simp [inside])

theorem sum_modEq : sum top start words ≡ start + words.sum [MOD top] := by
  induction words generalizing start with
  | nil => rfl
  | cons word rest ih =>
    have later : sum top start (word :: rest) ≡ add top start word + rest.sum [MOD top] := ih
    refine later.trans ?_
    rw [List.sum_cons, ← Nat.add_assoc]
    exact (add_modEq top start word).add_right _

theorem sum_pos : 0 < sum top start words ↔ 0 < start + words.sum := by
  induction words generalizing start with
  | nil => rfl
  | cons word rest ih =>
    have later : 0 < sum top start (word :: rest) ↔ 0 < add top start word + rest.sum := ih
    have first : 0 < add top start word ↔ 0 < start + word := add_pos
    rw [later, List.sum_cons]
    omega

theorem eq_of_modEq {left right : Nat} (low : 0 < left) (low' : 0 < right) (high : left ≤ top)
    (high' : right ≤ top) (same : left ≡ right [MOD top]) : left = right := by
  obtain ⟨left, rfl⟩ : ∃ less, left = less + 1 := ⟨left - 1, by omega⟩
  obtain ⟨right, rfl⟩ : ∃ less, right = less + 1 := ⟨right - 1, by omega⟩
  have less : left ≡ right [MOD top] := Nat.ModEq.add_right_cancel' 1 same
  rw [Nat.ModEq, Nat.mod_eq_of_lt (by omega), Nat.mod_eq_of_lt (by omega)] at less
  rw [less]

theorem sum_eq (first : start ≤ top) (fit : ∀ word ∈ words, word ≤ top)
    (some : 0 < start + words.sum) :
    sum top start words = (start + words.sum - 1) % top + 1 := by
  have positive : 0 < sum top start words := sum_pos.mpr some
  have bound := sum_le first fit
  have room : 0 < top := by omega
  have below := Nat.mod_lt (start + words.sum - 1) room
  apply eq_of_modEq positive (Nat.succ_pos _) bound (by omega)
  refine sum_modEq.trans ?_
  have residue : (start + words.sum - 1) % top + 1 ≡ start + words.sum - 1 + 1 [MOD top] :=
    (Nat.mod_modEq _ top).add_right 1
  rw [Nat.sub_add_cancel some] at residue
  exact residue.symm

end Sum

section Fold

variable {base total : Nat}

theorem base_modEq (positive : 0 < base) : base ≡ 1 [MOD base - 1] := by
  have whole : base - 1 + 1 = base := by omega
  have same : base - 1 + 1 ≡ 1 [MOD base - 1] := Nat.add_modEq_left
  rwa [whole] at same

theorem modEq_halves (positive : 0 < base) (total : Nat) :
    total / base + total % base ≡ total [MOD base - 1] := by
  have one := ((base_modEq positive).mul_right (total / base)).add_right (total % base)
  rw [Nat.div_add_mod, Nat.one_mul] at one
  exact one.symm

def fold (base total : Nat) : Nat :=
  (total / base + total % base) % base

-- A double word folds to its residue unless its halves carry, and then to one less.
theorem fold_modEq (positive : 0 < base) (total : Nat) :
    fold base total + (total / base + total % base) / base ≡ total [MOD base - 1] := by
  rw [fold, Nat.add_comm]
  exact (modEq_halves positive _).trans (modEq_halves positive total)

/-- A sum kept in a double word folds to its residue just when nothing is carried out of the double
word, nor out of the word in the folding. -/
theorem fold_modEq_iff (large : total / base ^ 2 + 2 < base) :
    fold base (total % base ^ 2) ≡ total [MOD base - 1] ↔
      total < base ^ 2 ∧ total / base + total % base < base := by
  have positive : 0 < base := Nat.zero_lt_of_lt large
  generalize lost : total / base ^ 2 = quotient at large
  have halves : total % base ^ 2 / base < base := by
    apply Nat.div_lt_of_lt_mul
    rw [← Nat.pow_two]
    exact Nat.mod_lt _ (Nat.pow_pos positive)
  have low := Nat.mod_lt (total % base ^ 2) positive
  generalize carried : (total % base ^ 2 / base + total % base ^ 2 % base) / base = carry
  have small : carry ≤ 1 := by
    have below : carry < 2 := by
      rw [← carried]
      exact Nat.div_lt_of_lt_mul (by omega)
    omega
  have folded := fold_modEq positive (total % base ^ 2)
  rw [carried] at folded
  have whole : fold base (total % base ^ 2) + (carry + quotient) ≡ total [MOD base - 1] := by
    have square : base ^ 2 ≡ 1 [MOD base - 1] := (base_modEq positive).pow 2
    have split := (square.mul_right quotient).add_right (total % base ^ 2)
    rw [← lost, Nat.div_add_mod, lost, Nat.one_mul, Nat.add_comm] at split
    rw [← Nat.add_assoc]
    exact (folded.add_right quotient).trans split.symm
  have exact_iff : fold base (total % base ^ 2) ≡ total [MOD base - 1] ↔ carry + quotient = 0 := by
    constructor
    · intro same
      have divides : base - 1 ∣ carry + quotient := by
        apply (Nat.modEq_zero_iff_dvd).mp
        exact Nat.ModEq.add_left_cancel' (fold base (total % base ^ 2)) (whole.trans same.symm)
      exact Nat.eq_zero_of_dvd_of_lt divides (by omega)
    · intro none
      rwa [none, Nat.add_zero] at whole
  rw [exact_iff, Nat.add_eq_zero_iff]
  have quotient_zero : quotient = 0 ↔ total < base ^ 2 := by
    rw [← lost, Nat.div_eq_zero_iff]
    have square := Nat.pow_pos (n := 2) positive
    omega
  constructor
  · rintro ⟨none, inside⟩
    have fits := quotient_zero.mp inside
    rw [Nat.mod_eq_of_lt fits] at carried
    rw [none, Nat.div_eq_zero_iff] at carried
    exact ⟨fits, by omega⟩
  · rintro ⟨fits, nothing⟩
    rw [Nat.mod_eq_of_lt fits, Nat.div_eq_of_lt nothing] at carried
    exact ⟨carried.symm, quotient_zero.mpr fits⟩

end Fold

end OnesComplement
