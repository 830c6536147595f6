import Mathlib.Data.Finset.Card
import Mathlib.Data.Finset.Range
import Mathlib.Data.List.Infix

set_option autoImplicit false

namespace Search

variable {α : Type} [DecidableEq α] {text pattern : List α} {start hit : Nat}

abbrev Occurs (text pattern : List α) (position : Nat) : Prop :=
  pattern <+: text.drop position

def positions (text pattern : List α) : Finset Nat :=
  (Finset.range text.length).filter (Occurs text pattern)

def occurrences (text pattern : List α) : Nat :=
  (positions text pattern).card

theorem occurrences_le (text pattern : List α) : occurrences text pattern ≤ text.length := by
  have bounded := Finset.card_filter_le (Finset.range text.length) (Occurs text pattern)
  rwa [Finset.card_range] at bounded

def next (text pattern : List α) (start : Nat) : Option Nat :=
  (List.range' start (text.length - start)).find? fun position => Occurs text pattern position

def remaining (text pattern : List α) (start : Nat) : Finset Nat :=
  (positions text pattern).filter (start ≤ ·)

omit [DecidableEq α] in
theorem occurs_within (occurs : Occurs text pattern hit) (nonempty : pattern ≠ []) :
    hit + pattern.length ≤ text.length := by
  have fits := occurs.length_le
  have positive := List.length_pos_iff.mpr nonempty
  rw [List.length_drop] at fits
  omega

theorem mem_positions (nonempty : pattern ≠ []) :
    hit ∈ positions text pattern ↔ Occurs text pattern hit := by
  rw [positions, Finset.mem_filter, Finset.mem_range, and_iff_right_iff_imp]
  intro occurs
  have within := occurs_within occurs nonempty
  have positive := List.length_pos_iff.mpr nonempty
  omega

@[simp] theorem remaining_zero (text pattern : List α) :
    remaining text pattern 0 = positions text pattern := by
  simp [remaining]

theorem next_none (missing : next text pattern start = none) : remaining text pattern start = ∅ := by
  rw [next, List.find?_eq_none] at missing
  rw [remaining, Finset.filter_eq_empty_iff]
  intro position inside behind
  obtain ⟨within, occurs⟩ := Finset.mem_filter.mp inside
  have range : position ∈ List.range' start (text.length - start) := by
    rw [List.mem_range'_1]
    have := Finset.mem_range.mp within
    omega
  exact missing position range (by simpa using occurs)

theorem next_some (found : next text pattern start = some hit) :
    start ≤ hit ∧ hit ∈ positions text pattern ∧
      ∀ position, start ≤ position → position < hit → position ∉ positions text pattern := by
  simp only [next, List.find?_range'_eq_some, decide_eq_true_eq, List.mem_range'_1] at found
  obtain ⟨occurs, ⟨later, within⟩, first⟩ := found
  refine ⟨later, ?_, fun position behind earlier inside => ?_⟩
  · rw [positions, Finset.mem_filter, Finset.mem_range]
    exact ⟨by omega, occurs⟩
  · have missing := first position behind earlier
    simp [(Finset.mem_filter.mp inside).2] at missing

theorem card_remaining (found : next text pattern start = some hit) :
    (remaining text pattern start).card = (remaining text pattern (hit + 1)).card + 1 := by
  obtain ⟨later, occurs, first⟩ := next_some found
  have split : remaining text pattern start = insert hit (remaining text pattern (hit + 1)) := by
    ext position
    simp only [remaining, Finset.mem_insert, Finset.mem_filter]
    constructor
    · rintro ⟨inside, behind⟩
      have passed : ¬ position < hit := fun earlier => first position behind earlier inside
      by_cases here : position = hit
      · exact .inl here
      · exact .inr ⟨inside, by omega⟩
    · rintro (rfl | ⟨inside, behind⟩)
      · exact ⟨occurs, later⟩
      · exact ⟨inside, by omega⟩
  rw [split, Finset.card_insert_of_notMem]
  simp [remaining]

theorem next_drop (text pattern : List α) (start : Nat) :
    (next (text.drop start) pattern 0).map (start + ·) = next text pattern start := by
  rw [next, next, List.range'_eq_map_range, List.range'_eq_map_range, List.find?_map, List.find?_map,
    Option.map_map, List.length_drop]
  simp [Function.comp_def, Occurs, List.drop_drop]

section Extension

variable {rest : List α}

omit [DecidableEq α] in
theorem occurs_append (within : hit + pattern.length ≤ text.length) :
    Occurs (text ++ rest) pattern hit ↔ Occurs text pattern hit := by
  have room : hit ≤ text.length := by omega
  unfold Occurs
  rw [List.drop_append_of_le_length room]
  constructor
  · intro occurs
    exact List.prefix_of_prefix_length_le occurs (List.prefix_append _ _)
      (by rw [List.length_drop]; omega)
  · exact fun occurs => occurs.trans (List.prefix_append _ _)

theorem positions_append (nonempty : pattern ≠ []) :
    positions text pattern ⊆ positions (text ++ rest) pattern := by
  intro position inside
  rw [mem_positions nonempty] at inside ⊢
  exact (occurs_append (occurs_within inside nonempty)).mpr inside

/-- A longer text has no more occurrences if each of them lies in the shorter one. -/
theorem occurrences_append_iff (nonempty : pattern ≠ []) :
    occurrences text pattern = occurrences (text ++ rest) pattern ↔
      ∀ position, Occurs (text ++ rest) pattern position →
        position + pattern.length ≤ text.length := by
  constructor
  · intro same position occurs
    have equal : positions text pattern = positions (text ++ rest) pattern :=
      Finset.eq_of_subset_of_card_le (positions_append nonempty) same.ge
    have inside := (mem_positions nonempty).mpr occurs
    rw [← equal, mem_positions nonempty] at inside
    exact occurs_within inside nonempty
  · intro bounded
    unfold occurrences
    congr 1
    ext position
    rw [mem_positions nonempty, mem_positions nonempty]
    exact ⟨fun occurs => (occurs_append (occurs_within occurs nonempty)).mpr occurs,
      fun occurs => (occurs_append (bounded position occurs)).mp occurs⟩

end Extension

end Search
