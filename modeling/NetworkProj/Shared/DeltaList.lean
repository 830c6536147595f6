import Mathlib.Data.List.Sort
import Mathlib.Algebra.Order.Group.Defs
import Mathlib.Algebra.Order.Group.Unbundled.Basic
import Mathlib.Tactic.Abel
import Mathlib.Tactic.Linarith

set_option autoImplicit false

namespace DeltaList

variable {ι α : Type}

section Deadlines

variable [LinearOrder α]

def byDeadline (entries : List (ι × α)) : List (ι × α) :=
  entries.insertionSort fun left right => left.2 ≤ right.2

def insertAfter (entry : ι × α) : List (ι × α) → List (ι × α)
  | [] => [entry]
  | head :: rest => if entry.2 < head.2 then entry :: head :: rest else head :: insertAfter entry rest

theorem orderedInsert_insertAfter (first last : ι × α) (entries : List (ι × α)) :
    (insertAfter last entries).orderedInsert (fun left right => left.2 ≤ right.2) first =
      insertAfter last (entries.orderedInsert (fun left right => left.2 ≤ right.2) first) := by
  induction entries with
  | nil =>
    by_cases le : first.2 ≤ last.2
    · simp [insertAfter, le]
    · simp [insertAfter, le, not_le.mp le]
  | cons head rest ih =>
    by_cases later : last.2 < head.2 <;> by_cases le : first.2 ≤ head.2
    · by_cases order : first.2 ≤ last.2
      · simp [insertAfter, later, le, order]
      · simp [insertAfter, later, le, order, not_le.mp order]
    · have order : ¬ first.2 ≤ last.2 := fun le' => le (le'.trans later.le)
      simp [insertAfter, later, le, order]
    · have order : ¬ last.2 < first.2 := fun lt => later (lt.trans_le le)
      simp [insertAfter, later, le, order]
    · simp [insertAfter, later, le, ih]

/-- The stable sort puts the newest entry after those with the same deadline. -/
theorem byDeadline_append (entries : List (ι × α)) (entry : ι × α) :
    byDeadline (entries ++ [entry]) = insertAfter entry (byDeadline entries) := by
  induction entries with
  | nil => rfl
  | cons head rest ih =>
    simp only [byDeadline, List.cons_append, List.insertionSort_cons] at ih ⊢
    rw [ih, orderedInsert_insertAfter]

theorem byDeadline_sorted (entries : List (ι × α)) :
    (byDeadline entries).Pairwise fun left right => left.2 ≤ right.2 :=
  have : Std.Total (fun left right : ι × α => left.2 ≤ right.2) := ⟨fun _ _ => le_total _ _⟩
  have : IsTrans (ι × α) (fun left right => left.2 ≤ right.2) := ⟨fun _ _ _ => le_trans⟩
  List.pairwise_insertionSort _ entries

theorem byDeadline_perm (entries : List (ι × α)) : (byDeadline entries).Perm entries :=
  List.perm_insertionSort _ entries

theorem orderedInsert_filter (keep : ι × α → Bool) (entry : ι × α) (entries : List (ι × α))
    (sorted : entries.Pairwise fun left right => left.2 ≤ right.2) :
    (entries.orderedInsert (fun left right => left.2 ≤ right.2) entry).filter keep =
      if keep entry then
        (entries.filter keep).orderedInsert (fun left right => left.2 ≤ right.2) entry
      else entries.filter keep := by
  induction entries with
  | nil => cases kept : keep entry <;> simp [kept]
  | cons head rest ih =>
    obtain ⟨below, sorted⟩ := List.pairwise_cons.mp sorted
    by_cases le : entry.2 ≤ head.2
    · have front : (List.orderedInsert (fun left right : ι × α => left.2 ≤ right.2) entry
          ((head :: rest).filter keep)) = entry :: (head :: rest).filter keep := by
        cases shape : (head :: rest).filter keep with
        | nil => simp
        | cons first others =>
          have member : first ∈ head :: rest :=
            List.mem_of_mem_filter (p := keep) (by simp [shape])
          have least : entry.2 ≤ first.2 := by
            rcases List.mem_cons.mp member with rfl | later
            · exact le
            · exact le.trans (below first later)
          simp [least]
      rw [front]
      cases kept : keep entry <;> simp [le, kept]
    · cases kept : keep head <;> cases keptEntry : keep entry <;>
        simp [le, kept, ih sorted, keptEntry]

theorem byDeadline_filter (keep : ι × α → Bool) (entries : List (ι × α)) :
    byDeadline (entries.filter keep) = (byDeadline entries).filter keep := by
  induction entries with
  | nil => rfl
  | cons head rest ih =>
    have unfolded : byDeadline (head :: rest) =
        (byDeadline rest).orderedInsert (fun left right => left.2 ≤ right.2) head := rfl
    rw [unfolded, orderedInsert_filter keep head _ (byDeadline_sorted rest), ← ih]
    cases kept : keep head <;> simp [kept, byDeadline]

end Deadlines

section Deltas

variable [AddCommGroup α] [LinearOrder α] [IsOrderedAddMonoid α]

omit [LinearOrder α] [IsOrderedAddMonoid α] in
/-- The times that the deltas stand for. -/
def absolute (start : α) : List (ι × α) → List (ι × α)
  | [] => []
  | (item, delta) :: rest => (item, start + delta) :: absolute (start + delta) rest

omit [LinearOrder α] [IsOrderedAddMonoid α] in
theorem absolute_add (start shift : α) (entries : List (ι × α)) :
    absolute (start + shift) entries =
      (absolute start entries).map fun entry => (entry.1, entry.2 + shift) := by
  induction entries generalizing start with
  | nil => rfl
  | cons head rest ih =>
    have moved : start + shift + head.2 = start + head.2 + shift := by abel
    simp [absolute, moved, ih]

def Nonneg (entries : List (ι × α)) : Prop :=
  ∀ entry ∈ entries, 0 ≤ entry.2

omit [LinearOrder α] [IsOrderedAddMonoid α] in
theorem absolute_items (start : α) (entries : List (ι × α)) :
    (absolute start entries).map Prod.fst = entries.map Prod.fst := by
  induction entries generalizing start with
  | nil => rfl
  | cons head rest ih => simp [absolute, ih]

theorem le_absolute {start : α} {entries : List (ι × α)} (nonneg : Nonneg entries) :
    ∀ entry ∈ absolute start entries, start ≤ entry.2 := by
  induction entries generalizing start with
  | nil => simp [absolute]
  | cons head rest ih =>
    have first : 0 ≤ head.2 := nonneg head (by simp)
    intro entry member
    rcases List.mem_cons.mp member with rfl | later
    · exact le_add_of_nonneg_right first
    · exact (le_add_of_nonneg_right first).trans
        (ih (fun entry inside => nonneg entry (by simp [inside])) entry later)

/-- Search the position by subtracting the deltas passed, and take the new delta off the next. -/
def insertDelta (item : ι) (delta : α) : List (ι × α) → List (ι × α)
  | [] => [(item, delta)]
  | (head, next) :: rest =>
    if delta < next then (item, delta) :: (head, next - delta) :: rest
    else (head, next) :: insertDelta item (delta - next) rest

theorem absolute_insertDelta (start : α) (item : ι) (delta : α) (entries : List (ι × α)) :
    absolute start (insertDelta item delta entries) =
      insertAfter (item, start + delta) (absolute start entries) := by
  induction entries generalizing start delta with
  | nil => rfl
  | cons head rest ih =>
    by_cases before : delta < head.2
    · have moved : start + delta + (head.2 - delta) = start + head.2 := by abel
      simp [insertDelta, before, absolute, insertAfter, moved]
    · have moved : start + head.2 + (delta - head.2) = start + delta := by abel
      simp [insertDelta, before, absolute, insertAfter, ih, moved]

theorem insertDelta_nonneg {item : ι} {delta : α} {entries : List (ι × α)} (first : 0 ≤ delta)
    (nonneg : Nonneg entries) : Nonneg (insertDelta item delta entries) := by
  induction entries generalizing delta with
  | nil => simpa [Nonneg, insertDelta] using first
  | cons head rest ih =>
    have later : Nonneg rest := fun entry inside => nonneg entry (by simp [inside])
    have here : 0 ≤ head.2 := nonneg head (by simp)
    by_cases before : delta < head.2
    · intro entry member
      simp only [insertDelta, before, if_true, List.mem_cons] at member
      rcases member with rfl | rfl | inside
      · exact first
      · exact sub_nonneg.mpr before.le
      · exact later entry inside
    · intro entry member
      simp only [insertDelta, before, if_false, List.mem_cons] at member
      rcases member with rfl | inside
      · exact here
      · exact ih (sub_nonneg.mpr (not_lt.mp before)) later entry inside

def remove (chosen : ι → Bool) : List (ι × α) → List (ι × α)
  | [] => []
  | (head, delta) :: rest =>
    if chosen head then
      match rest with
      | [] => []
      | (item, next) :: others => (item, next + delta) :: others
    else (head, delta) :: remove chosen rest

omit [LinearOrder α] [IsOrderedAddMonoid α] in
theorem absolute_remove (start : α) (chosen : ι → Bool) (entries : List (ι × α)) :
    absolute start (remove chosen entries) =
      (absolute start entries).eraseP fun entry => chosen entry.1 := by
  induction entries generalizing start with
  | nil => rfl
  | cons head rest ih =>
    cases here : chosen head.1
    · simp [remove, here, absolute, ih]
    · cases rest with
      | nil => simp [remove, here, absolute]
      | cons next others =>
        have moved : start + (next.2 + head.2) = start + head.2 + next.2 := by abel
        simp [remove, here, absolute, moved]

theorem remove_nonneg {chosen : ι → Bool} {entries : List (ι × α)} (nonneg : Nonneg entries) :
    Nonneg (remove chosen entries) := by
  induction entries with
  | nil => simp [Nonneg, remove]
  | cons head rest ih =>
    have later : Nonneg rest := fun entry inside => nonneg entry (by simp [inside])
    have first : 0 ≤ head.2 := nonneg head (by simp)
    cases here : chosen head.1
    · intro entry member
      simp only [remove, here, Bool.false_eq_true, if_false, List.mem_cons] at member
      rcases member with rfl | inside
      · exact first
      · exact ih later entry inside
    · cases rest with
      | nil => simp [remove, here, Nonneg]
      | cons next others =>
        intro entry member
        simp only [remove, here, if_true, List.mem_cons] at member
        rcases member with rfl | inside
        · exact add_nonneg (later next (by simp)) first
        · exact later entry (by simp [inside])

/-- Carry an overshoot: entries that are due are set to zero and pass on what is left. -/
def carry : α → List (ι × α) → List (ι × α)
  | _, [] => []
  | leftover, (head, delta) :: rest =>
    if 0 < delta + leftover then (head, delta + leftover) :: rest
    else (head, 0) :: carry (delta + leftover) rest

theorem absolute_carry (start leftover : α) {entries : List (ι × α)} (nonneg : Nonneg entries) :
    absolute start (carry leftover entries) =
      (absolute start entries).map fun entry => (entry.1, max start (entry.2 + leftover)) := by
  induction entries generalizing start leftover with
  | nil => rfl
  | cons head rest ih =>
    have later : Nonneg rest := fun entry inside => nonneg entry (by simp [inside])
    have moved : start + (head.2 + leftover) = start + head.2 + leftover := by abel
    by_cases ahead : 0 < head.2 + leftover
    · -- Nothing is left to carry, and every later time stays above the start.
      have above : start < start + head.2 + leftover := by
        rw [← moved]
        exact lt_add_of_pos_right start ahead
      have unclipped : (absolute (start + head.2) rest).map
          (fun entry => (entry.1, max start (entry.2 + leftover))) =
          (absolute (start + head.2) rest).map fun entry => (entry.1, entry.2 + leftover) := by
        apply List.map_congr_left
        intro entry member
        have bound : start + head.2 + leftover ≤ entry.2 + leftover :=
          add_le_add_left (le_absolute later entry member) leftover
        simp [max_eq_right (above.le.trans bound)]
      simp only [carry, ahead, if_true, absolute, List.map_cons, unclipped, moved,
        max_eq_right above.le, absolute_add (start + head.2) leftover]
    · have below : start + head.2 + leftover ≤ start := by
        rw [← moved]
        exact add_le_of_nonpos_right (not_lt.mp ahead)
      simp only [carry, ahead, if_false, absolute, List.map_cons, add_zero, max_eq_left below,
        ih start (head.2 + leftover) later, absolute_add start head.2, List.map_map]
      congr 2
      funext entry
      simp [add_assoc]

omit [IsOrderedAddMonoid α] in
theorem carry_nonneg {leftover : α} {entries : List (ι × α)} (nonneg : Nonneg entries) :
    Nonneg (carry leftover entries) := by
  induction entries generalizing leftover with
  | nil => simp [Nonneg, carry]
  | cons head rest ih =>
    have later : Nonneg rest := fun entry inside => nonneg entry (by simp [inside])
    by_cases ahead : 0 < head.2 + leftover
    · intro entry member
      simp only [carry, ahead, if_true, List.mem_cons] at member
      rcases member with rfl | inside
      · exact ahead.le
      · exact later entry inside
    · intro entry member
      simp only [carry, ahead, if_false, List.mem_cons] at member
      rcases member with rfl | inside
      · exact le_refl _
      · exact ih later entry inside

def popDue : List (ι × α) → List (ι × α) × List ι
  | [] => ([], [])
  | (head, delta) :: rest =>
    if 0 < delta then ((head, delta) :: rest, [])
    else ((popDue rest).1, head :: (popDue rest).2)

theorem absolute_popDue {entries : List (ι × α)} (nonneg : Nonneg entries) :
    absolute 0 (popDue entries).1 = (absolute 0 entries).filter (fun entry => 0 < entry.2) ∧
      (popDue entries).2 = ((absolute 0 entries).filter fun entry => entry.2 ≤ 0).map Prod.fst := by
  induction entries with
  | nil => exact ⟨rfl, rfl⟩
  | cons head rest ih =>
    have later : Nonneg rest := fun entry inside => nonneg entry (by simp [inside])
    by_cases ahead : 0 < head.2
    · have all : ∀ entry ∈ absolute (0 + head.2) rest, 0 < entry.2 := fun entry member =>
        (by simpa using ahead : 0 < 0 + head.2).trans_le (le_absolute later entry member)
      have kept : (absolute (0 + head.2) rest).filter (fun entry => 0 < entry.2) =
          absolute (0 + head.2) rest := List.filter_eq_self.mpr (by simpa using all)
      have none : (absolute (0 + head.2) rest).filter (fun entry => entry.2 ≤ 0) = [] :=
        List.filter_eq_nil_iff.mpr (by simpa using all)
      simp only [zero_add] at kept none
      simp [popDue, ahead, absolute, kept, none]
    · have zero : head.2 = 0 := le_antisymm (not_lt.mp ahead) (nonneg head (by simp))
      simpa [popDue, ahead, absolute, zero] using ih later

omit [IsOrderedAddMonoid α] in
theorem popDue_nonneg {entries : List (ι × α)} (nonneg : Nonneg entries) :
    Nonneg (popDue entries).1 := by
  induction entries with
  | nil => simp [Nonneg, popDue]
  | cons head rest ih =>
    by_cases ahead : 0 < head.2
    · simpa [popDue, ahead] using nonneg
    · simpa [popDue, ahead] using ih fun entry inside => nonneg entry (by simp [inside])

omit [IsOrderedAddMonoid α] in
theorem popDue_first_pos (entries : List (ι × α)) :
    ∀ first ∈ (popDue entries).1.head?, 0 < first.2 := by
  induction entries with
  | nil => simp [popDue]
  | cons head rest ih =>
    by_cases ahead : 0 < head.2
    · simp [popDue, ahead]
    · simpa [popDue, ahead] using ih

section Items

omit [IsOrderedAddMonoid α] in
theorem insertDelta_items (item : ι) (delta : α) (entries : List (ι × α)) :
    ((insertDelta item delta entries).map Prod.fst).Perm (item :: entries.map Prod.fst) := by
  induction entries generalizing delta with
  | nil => exact .refl _
  | cons head rest ih =>
    by_cases before : delta < head.2
    · simp [insertDelta, before]
    · simp only [insertDelta, before, if_false, List.map_cons]
      exact ((ih (delta - head.2)).cons head.1).trans (.swap item head.1 _)

omit [LinearOrder α] [IsOrderedAddMonoid α] in
theorem remove_items (chosen : ι → Bool) (entries : List (ι × α)) :
    (remove chosen entries).map Prod.fst = (entries.map Prod.fst).eraseP chosen := by
  induction entries with
  | nil => rfl
  | cons head rest ih =>
    cases here : chosen head.1
    · simp [remove, here, ih]
    · cases rest <;> simp [remove, here]

omit [IsOrderedAddMonoid α] in
theorem carry_items (leftover : α) (entries : List (ι × α)) :
    (carry leftover entries).map Prod.fst = entries.map Prod.fst := by
  induction entries generalizing leftover with
  | nil => rfl
  | cons head rest ih =>
    by_cases ahead : 0 < head.2 + leftover
    · simp [carry, ahead]
    · simp [carry, ahead, ih]

omit [IsOrderedAddMonoid α] in
theorem popDue_items (entries : List (ι × α)) :
    (popDue entries).2 ++ (popDue entries).1.map Prod.fst = entries.map Prod.fst := by
  induction entries with
  | nil => rfl
  | cons head rest ih =>
    by_cases ahead : 0 < head.2
    · simp [popDue, ahead]
    · simp [popDue, ahead, ih]

end Items

end Deltas

section Splitting

variable [AddCommGroup α]

def total (entries : List (ι × α)) : α :=
  (entries.map Prod.snd).sum

def adjust (change : α) (entries : List (ι × α)) : List (ι × α) :=
  entries.modifyHead fun entry => (entry.1, entry.2 + change)

theorem absolute_append (start : α) (left right : List (ι × α)) :
    absolute start (left ++ right) = absolute start left ++ absolute (start + total left) right := by
  induction left generalizing start with
  | nil => simp [absolute, total]
  | cons head rest ih => simp [absolute, ih, total, add_assoc]

theorem absolute_adjust (start change : α) (entries : List (ι × α)) :
    absolute start (adjust change entries) = absolute (start + change) entries := by
  cases entries with
  | nil => rfl
  | cons head rest =>
    have moved : start + (head.2 + change) = start + change + head.2 := by abel
    simp [adjust, absolute, moved]

theorem absolute_insert (start time : α) (item : ι) (left right : List (ι × α)) :
    absolute start (left ++ (item, time - total left) :: adjust (-(time - total left)) right) =
      absolute start left ++ (item, start + time) :: absolute (start + total left) right := by
  have here : start + total left + (time - total left) = start + time := by abel
  simp [absolute_append, absolute, here, absolute_adjust]

theorem absolute_delete (start : α) (entry : ι × α) (left right : List (ι × α)) :
    absolute start (left ++ adjust entry.2 right) =
      absolute start left ++ absolute (start + total left + entry.2) right := by
  rw [absolute_append, absolute_adjust]

end Splitting

section Tracking

variable [AddCommGroup α] [LinearOrder α] [IsOrderedAddMonoid α]

/-- The delta list holds the table in firing order, with the times below zero raised to zero. -/
structure Tracks (entries table : List (ι × α)) : Prop where
  nonneg : Nonneg entries
  times : absolute 0 entries = (byDeadline table).map fun entry => (entry.1, max 0 entry.2)

theorem tracks_advance {entries table : List (ι × α)} (elapsed : α) (nonneg : Nonneg entries)
    (times : absolute 0 entries = byDeadline table) :
    Tracks (carry (-elapsed) entries) (table.map fun entry => (entry.1, entry.2 - elapsed)) where
  nonneg := carry_nonneg nonneg
  times := by
    have sorted : byDeadline (table.map fun entry => (entry.1, entry.2 - elapsed)) =
        (byDeadline table).map fun entry => (entry.1, entry.2 - elapsed) := by
      refine (List.map_insertionSort _ _ _ _ ?_).symm
      intro left _ right _
      simp
    rw [absolute_carry 0 (-elapsed) nonneg, times, sorted, List.map_map]
    simp [Function.comp_def, sub_eq_add_neg]

theorem tracks_insertDelta {entries table : List (ι × α)} (item : ι) {time : α} (start : 0 ≤ time)
    (tracks : Tracks entries table) : Tracks (insertDelta item time entries) (table ++ [(item, time)]) where
  nonneg := insertDelta_nonneg start tracks.nonneg
  times := by
    have clipped (sorted : List (ι × α)) :
        insertAfter (item, time) (sorted.map fun entry => (entry.1, max 0 entry.2)) =
          (insertAfter (item, time) sorted).map fun entry => (entry.1, max 0 entry.2) := by
      induction sorted with
      | nil => simp [insertAfter, start]
      | cons head rest ih =>
        have same : time < max 0 head.2 ↔ time < head.2 := by simp [not_lt.mpr start]
        by_cases before : time < head.2
        · simp [insertAfter, before, same, start]
        · simpa [insertAfter, before, same] using ih
    rw [absolute_insertDelta, tracks.times, byDeadline_append, zero_add, clipped]

omit [AddCommGroup α] [LinearOrder α] [IsOrderedAddMonoid α] in
theorem eraseP_eq_filter {κ : Type} [DecidableEq κ] (key : ι → κ) (chosen : κ)
    (entries : List (ι × α)) (nodup : (entries.map fun entry => key entry.1).Nodup) :
    entries.eraseP (fun entry => key entry.1 = chosen) =
      entries.filter fun entry => key entry.1 ≠ chosen := by
  induction entries with
  | nil => rfl
  | cons head rest ih =>
    obtain ⟨fresh, nodup⟩ := List.nodup_cons.mp nodup
    by_cases here : key head.1 = chosen
    · have others : rest.filter (fun entry => key entry.1 ≠ chosen) = rest := by
        apply List.filter_eq_self.mpr
        intro entry member
        have different : key entry.1 ≠ chosen := fun same =>
          fresh (List.mem_map.mpr ⟨entry, member, same.trans here.symm⟩)
        simpa using different
      simpa [here] using others.symm
    · simpa [here] using ih nodup

theorem tracks_remove {κ : Type} [DecidableEq κ] {entries table : List (ι × α)} (key : ι → κ)
    (chosen : κ) (nodup : (table.map fun entry => key entry.1).Nodup)
    (tracks : Tracks entries table) :
    Tracks (remove (fun item => key item = chosen) entries)
      (table.filter fun entry => key entry.1 ≠ chosen) where
  nonneg := remove_nonneg tracks.nonneg
  times := by
    have nodupSorted : ((byDeadline table).map fun entry => key entry.1).Nodup :=
      ((byDeadline_perm table).map _).nodup_iff.mpr nodup
    rw [absolute_remove, tracks.times, byDeadline_filter, ← eraseP_eq_filter key chosen _ nodupSorted,
      List.eraseP_map]
    rfl

theorem tracks_fire {entries table : List (ι × α)} (tracks : Tracks entries table) :
    absolute 0 (popDue entries).1 = byDeadline (table.filter fun entry => 0 < entry.2) ∧
      (popDue entries).2 = ((byDeadline table).filter fun entry => entry.2 ≤ 0).map Prod.fst := by
  obtain ⟨kept, due⟩ := absolute_popDue tracks.nonneg
  rw [tracks.times] at kept due
  constructor
  · rw [kept, byDeadline_filter, List.filter_map]
    have unclipped : ((byDeadline table).filter fun entry => 0 < entry.2).map
        (fun entry => (entry.1, max 0 entry.2)) = (byDeadline table).filter fun entry => 0 < entry.2 := by
      conv_rhs => rw [← List.map_id ((byDeadline table).filter fun entry => 0 < entry.2)]
      apply List.map_congr_left
      intro entry member
      have ahead : 0 < entry.2 := by simpa using List.of_mem_filter member
      simp [max_eq_right ahead.le]
    simpa [Function.comp_def] using unclipped
  · rw [due, List.filter_map, List.map_map]
    simp [Function.comp_def]

end Tracking

end DeltaList
