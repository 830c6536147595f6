import Mathlib.Data.List.Basic

set_option autoImplicit false

inductive Interleaving {α : Type} : List α → List α → List α → Prop where
  | nil : Interleaving [] [] []
  | left {first second all : List α} (item : α) (rest : Interleaving first second all) :
      Interleaving (item :: first) second (item :: all)
  | right {first second all : List α} (item : α) (rest : Interleaving first second all) :
      Interleaving first (item :: second) (item :: all)

namespace Interleaving

variable {α : Type} {prior first second all : List α}

theorem symm (merged : Interleaving first second all) : Interleaving second first all := by
  induction merged with
  | nil => exact .nil
  | left item rest ih => exact .right item ih
  | right item rest ih => exact .left item ih

theorem of_right (second : List α) : Interleaving [] second second := by
  induction second with
  | nil => exact .nil
  | cons item rest ih => exact .right item ih

theorem append (first second : List α) : Interleaving first second (first ++ second) := by
  induction first with
  | nil => exact of_right second
  | cons item rest ih => exact .left item ih

theorem append_left (prior : List α) (merged : Interleaving first second all) :
    Interleaving (prior ++ first) second (prior ++ all) := by
  induction prior with
  | nil => exact merged
  | cons item rest ih => exact .left item ih

theorem mem_iff (merged : Interleaving first second all) {item : α} :
    item ∈ all ↔ item ∈ first ∨ item ∈ second := by
  induction merged with
  | nil => simp
  | left head rest ih => simp [ih, or_assoc]
  | right head rest ih => simp [ih, or_left_comm]

theorem nil_iff (merged : Interleaving first second all) : all = [] ↔ first = [] ∧ second = [] := by
  cases merged <;> simp

theorem split_left {Own : α → Prop} (merged : Interleaving (prior ++ first) second all)
    (own : ∀ item ∈ all.take prior.length, Own item) (foreign : ∀ item ∈ second, ¬ Own item) :
    ∃ rest, all = prior ++ rest ∧ Interleaving first second rest := by
  induction prior generalizing all with
  | nil => exact ⟨all, rfl, merged⟩
  | cons head prior ih =>
    cases merged with
    | left _ later =>
      obtain ⟨rest, rfl, merged⟩ :=
        ih later fun item member => own item (List.mem_cons_of_mem _ member)
      exact ⟨rest, rfl, merged⟩
    | right item later =>
      exact absurd (own item (List.mem_cons_self ..)) (foreign item (List.mem_cons_self ..))

end Interleaving
