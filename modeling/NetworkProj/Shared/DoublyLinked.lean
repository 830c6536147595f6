import Mathlib.Data.List.Nodup
import Mathlib.Logic.Function.Basic

set_option autoImplicit false

namespace DoublyLinked

variable {α : Type}

structure Node (α : Type) where
  next : Option Nat
  prev : Option Nat
  value : α

abbrev Heap (α : Type) : Type := Nat → Option (Node α)

section Access

variable {heap heap' : Heap α} {address : Nat} {node : Node α}

def load (heap : Heap α) (pointer : Option Nat) : Option (Node α) :=
  pointer.bind heap

def store (heap : Heap α) (pointer : Option Nat) (change : Node α → Node α) : Option (Heap α) := do
  let address ← pointer
  let node ← heap address
  return Function.update heap address (some (change node))

def setNext (heap : Heap α) (pointer next : Option Nat) : Option (Heap α) :=
  store heap pointer fun node => { node with next }

def setPrev (heap : Heap α) (pointer prev : Option Nat) : Option (Heap α) :=
  store heap pointer fun node => { node with prev }

def setValue (heap : Heap α) (pointer : Option Nat) (change : α → α) : Option (Heap α) :=
  store heap pointer fun node => { node with value := change node.value }

def free (heap : Heap α) (pointer : Option Nat) : Option (Heap α) := do
  let address ← pointer
  let _ ← heap address
  return Function.update heap address none

@[simp] theorem load_none (heap : Heap α) : load heap none = none := rfl

@[simp] theorem load_some (heap : Heap α) (address : Nat) :
    load heap (some address) = heap address := rfl

theorem store_some (found : heap address = some node) (change : Node α → Node α) :
    store heap (some address) change = some (Function.update heap address (some (change node))) := by
  simp [store, found]

theorem free_some (found : heap address = some node) :
    free heap (some address) = some (Function.update heap address none) := by
  simp [free, found]

def Elsewhere (address : Nat) (heap heap' : Heap α) : Prop :=
  ∀ other, other ≠ address → heap' other = heap other

theorem elsewhere_update (heap : Heap α) (address : Nat) (node : Option (Node α)) :
    Elsewhere address heap (Function.update heap address node) :=
  fun _ other => Function.update_of_ne other _ _

end Access

section Segments

variable {heap heap' : Heap α} {prev next : Option Nat} {cells left right : List (Nat × α)}
  {cell : Nat × α} {address : Nat}

def first (cells : List (Nat × α)) (next : Option Nat) : Option Nat :=
  match cells with
  | [] => next
  | cell :: _ => some cell.1

def last (prev : Option Nat) : List (Nat × α) → Option Nat
  | [] => prev
  | cell :: rest => last (some cell.1) rest

/-- The cells, each with its address and value, are linked both ways from `prev` to `next`. -/
def Segment (heap : Heap α) (prev : Option Nat) (cells : List (Nat × α)) (next : Option Nat) : Prop :=
  match cells with
  | [] => True
  | cell :: rest =>
    heap cell.1 = some { next := first rest next, prev, value := cell.2 } ∧
      Segment heap (some cell.1) rest next

def addresses (cells : List (Nat × α)) : List Nat :=
  cells.map Prod.fst

@[simp] theorem segment_nil : Segment heap prev [] next := trivial

@[simp] theorem segment_cons {rest : List (Nat × α)} :
    Segment heap prev (cell :: rest) next ↔
      heap cell.1 = some { next := first rest next, prev, value := cell.2 } ∧
        Segment heap (some cell.1) rest next :=
  Iff.rfl

@[simp] theorem first_nil : first ([] : List (Nat × α)) next = next := rfl

@[simp] theorem first_cons {rest : List (Nat × α)} : first (cell :: rest) next = some cell.1 := rfl

theorem first_append : first (left ++ right) next = first left (first right next) := by
  cases left <;> rfl

@[simp] theorem last_append : last prev (left ++ right) = last (last prev left) right := by
  induction left generalizing prev with
  | nil => rfl
  | cons cell rest ih => exact ih

@[simp] theorem last_singleton : last prev [cell] = some cell.1 := rfl

theorem segment_append :
    Segment heap prev (left ++ right) next ↔
      Segment heap prev left (first right next) ∧ Segment heap (last prev left) right next := by
  induction left generalizing prev with
  | nil => simp [last]
  | cons cell rest ih => simp [ih, last, first_append, and_assoc]

theorem segment_congr (same : ∀ address ∈ addresses cells, heap' address = heap address) :
    Segment heap' prev cells next ↔ Segment heap prev cells next := by
  induction cells generalizing prev with
  | nil => rfl
  | cons cell rest ih =>
    have here := same cell.1 (by simp [addresses])
    have later : Segment heap' (some cell.1) rest next ↔ Segment heap (some cell.1) rest next :=
      ih fun address inside => same address (List.mem_cons_of_mem _ inside)
    simp only [segment_cons, here, later]

theorem segment_elsewhere (elsewhere : Elsewhere address heap heap')
    (outside : address ∉ addresses cells) (segment : Segment heap prev cells next) :
    Segment heap' prev cells next :=
  (segment_congr fun _ inside => elsewhere _ (ne_of_mem_of_not_mem inside outside)).mpr segment

theorem single_elsewhere (elsewhere : Elsewhere address heap heap') (apart : address ≠ cell.1)
    (segment : Segment heap prev [cell] next) : Segment heap' prev [cell] next :=
  segment_elsewhere elsewhere (by simpa [addresses] using apart) segment

theorem segment_found (segment : Segment heap prev cells next) (inside : cell ∈ cells) :
    ∃ next prev, heap cell.1 = some { next, prev, value := cell.2 } := by
  induction cells generalizing prev with
  | nil => cases inside
  | cons head rest ih =>
    rcases List.mem_cons.mp inside with rfl | later
    · exact ⟨_, _, segment.1⟩
    · exact ih segment.2 later

theorem addresses_nodup {κ : Type} (key : α → κ) (segment : Segment heap prev cells next)
    (nodup : (cells.map fun cell => key cell.2).Nodup) : (addresses cells).Nodup := by
  have read : cells.map (fun cell => some (key cell.2)) =
      (addresses cells).map fun address => (heap address).map fun node => key node.value := by
    rw [addresses, List.map_map]
    apply List.map_congr_left
    intro cell inside
    obtain ⟨next, prev, found⟩ := segment_found segment inside
    simp [found]
  have keys := nodup.map fun left right (same : some left = some right) => Option.some.inj same
  rw [List.map_map] at keys
  exact List.Nodup.of_map _ (read ▸ keys)

section Relink

variable (left) (segment : Segment heap prev (left ++ cell :: right) next)
  (nodup : (addresses (left ++ cell :: right)).Nodup)

include nodup in
theorem addresses_apart : cell.1 ∉ addresses left ∧ cell.1 ∉ addresses right := by
  simp only [addresses, List.map_append, List.map_cons, List.nodup_append, List.nodup_cons] at nodup
  exact ⟨fun inside => nodup.2.2 _ inside _ List.mem_cons_self rfl, nodup.2.1.1⟩

include segment in
theorem segment_at : heap cell.1 =
    some { next := first right next, prev := last prev left, value := cell.2 } :=
  (segment_append.mp segment).2.1

include segment nodup in
theorem setValue_segment (change : α → α) : ∃ heap', setValue heap (some cell.1) change = some heap' ∧
    Elsewhere cell.1 heap heap' ∧
    Segment heap' prev (left ++ (cell.1, change cell.2) :: right) next := by
  obtain ⟨before, _, behind⟩ := segment_append.mp segment
  obtain ⟨outside, outside'⟩ := addresses_apart left nodup
  have elsewhere := elsewhere_update heap cell.1
  refine ⟨_, store_some (segment_at left segment) _, elsewhere _, segment_append.mpr ⟨?_, ?_, ?_⟩⟩
  · exact segment_elsewhere (elsewhere _) outside before
  · exact Function.update_self _ _ _
  · exact segment_elsewhere (elsewhere _) outside' behind

end Relink

theorem setNext_segment (left : List (Nat × α)) (segment : Segment heap prev (left ++ [cell]) next)
    (nodup : (addresses (left ++ [cell])).Nodup) (next' : Option Nat) :
    ∃ heap', setNext heap (some cell.1) next' = some heap' ∧ Elsewhere cell.1 heap heap' ∧
      Segment heap' prev (left ++ [cell]) next' := by
  obtain ⟨before, _, _⟩ := segment_append.mp segment
  have elsewhere := elsewhere_update heap cell.1
  refine ⟨_, store_some (segment_at left segment) _, elsewhere _, segment_append.mpr ⟨?_, ?_, trivial⟩⟩
  · exact segment_elsewhere (elsewhere _) (addresses_apart left nodup).1 before
  · exact Function.update_self _ _ _

theorem setPrev_segment (segment : Segment heap prev (cell :: right) next)
    (nodup : (addresses (cell :: right)).Nodup) (prev' : Option Nat) :
    ∃ heap', setPrev heap (some cell.1) prev' = some heap' ∧ Elsewhere cell.1 heap heap' ∧
      Segment heap' prev' (cell :: right) next := by
  have elsewhere := elsewhere_update heap cell.1
  refine ⟨_, store_some segment.1 _, elsewhere _, Function.update_self _ _ _, ?_⟩
  exact segment_elsewhere (elsewhere _) (addresses_apart [] nodup).2 segment.2

section Single

variable (segment : Segment heap prev [cell] next)

include segment in
theorem setNext_single (next' : Option Nat) :
    ∃ heap', setNext heap (some cell.1) next' = some heap' ∧ Elsewhere cell.1 heap heap' ∧
      Segment heap' prev [cell] next' :=
  setNext_segment [] segment (List.nodup_singleton _) next'

include segment in
theorem setPrev_single (prev' : Option Nat) :
    ∃ heap', setPrev heap (some cell.1) prev' = some heap' ∧ Elsewhere cell.1 heap heap' ∧
      Segment heap' prev' [cell] next :=
  setPrev_segment segment (List.nodup_singleton _) prev'

include segment in
theorem setValue_single (change : α → α) :
    ∃ heap', setValue heap (some cell.1) change = some heap' ∧ Elsewhere cell.1 heap heap' ∧
      Segment heap' prev [(cell.1, change cell.2)] next :=
  setValue_segment [] segment (List.nodup_singleton _) change

include segment in
theorem free_single :
    ∃ heap', free heap (some cell.1) = some heap' ∧ Elsewhere cell.1 heap heap' :=
  ⟨_, free_some segment.1, elsewhere_update heap cell.1 none⟩

end Single

end Segments

end DoublyLinked
