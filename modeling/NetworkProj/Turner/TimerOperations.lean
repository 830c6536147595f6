import NetworkProj.Turner.TimerList

set_option autoImplicit false

namespace NetworkProj.Turner

open DoublyLinked

variable {heap : Heap Timer} {head : Option Nat} {cells left right : List (Nat × Timer)}
  {newNode : Nat} {pack : TimerPacket} {seq : Int}

structure WellFormed (heap : Heap Timer) (head : Option Nat) (cells : List (Nat × Timer)) : Prop where
  head : head = first cells none
  linked : Segment heap none cells none
  distinct : (seqs cells).Nodup
  nonneg : ∀ cell ∈ cells, 0 ≤ cell.2.timeDiff

-- Each node with its absolute time.
def absolute (cells : List (Nat × Timer)) : List ((Nat × Int × Int) × Rat) :=
  DeltaList.absolute 0 (entries cells)

/-- The new node joins the list at the requested time; the others stay as they are. -/
def Adds (newNode : Nat) (pack : TimerPacket) (heap : Heap Timer) (head : Option Nat)
    (cells : List (Nat × Timer)) : Prop :=
  ∃ fuel heap' head' cells', addNode newNode fuel pack heap head = some (heap', head', 1) ∧
    WellFormed heap' head' cells' ∧
    ∃ before after, absolute cells = before ++ after ∧
      absolute cells' = before ++ ((newNode, pack.returnPort, pack.seq), pack.time) :: after

/-- The node with the number goes; the others stay as they are. -/
def Deletes (seq : Int) (heap : Heap Timer) (head : Option Nat) (cells : List (Nat × Timer)) : Prop :=
  ∃ fuel heap' head' cells' del, deleteNode seq fuel heap head = some (heap', head', del) ∧
    WellFormed heap' head' cells' ∧
    absolute cells' = (absolute cells).filter (fun node => node.1.2.2 ≠ seq) ∧
    (seq ∈ seqs cells ∧ del = 1 ∨ seq ∉ seqs cells ∧ del = 0 ∧ heap' = heap ∧ head' = head)

theorem entries_append (left right : List (Nat × Timer)) :
    entries (left ++ right) = entries left ++ entries right :=
  List.map_append

theorem entries_lowerFirst (timeDiff : Rat) (cells : List (Nat × Timer)) :
    entries (lowerFirst timeDiff cells) = DeltaList.adjust (-timeDiff) (entries cells) := by
  cases cells <;> simp [entries, DeltaList.adjust, lowerFirst, lower, sub_eq_add_neg]

theorem entries_raiseFirst (timeDiff : Rat) (cells : List (Nat × Timer)) :
    entries (raiseFirst timeDiff cells) = DeltaList.adjust timeDiff (entries cells) := by
  cases cells <;> simp [entries, DeltaList.adjust, raiseFirst, raise]

theorem seqs_append (left right : List (Nat × Timer)) :
    seqs (left ++ right) = seqs left ++ seqs right :=
  List.map_append

theorem seqs_lowerFirst (timeDiff : Rat) (cells : List (Nat × Timer)) :
    seqs (lowerFirst timeDiff cells) = seqs cells := by
  cases cells <;> rfl

theorem seqs_raiseFirst (timeDiff : Rat) (cells : List (Nat × Timer)) :
    seqs (raiseFirst timeDiff cells) = seqs cells := by
  cases cells <;> rfl

section Add

variable (wellFormed : WellFormed heap head cells) (fresh : heap newNode = none)
  (absent : pack.seq ∉ seqs cells) (later : 0 ≤ pack.time)

include wellFormed fresh in
theorem fresh_outside : newNode ∉ addresses cells := by
  intro inside
  obtain ⟨cell, member, rfl⟩ := List.mem_map.mp inside
  obtain ⟨next, prev, found⟩ := segment_found wellFormed.linked member
  cases fresh.symm.trans found

-- The list that `addNode` leaves.
def addedCells (newNode : Nat) (timer : Timer) (left right : List (Nat × Timer)) : List (Nat × Timer) :=
  left ++ (newNode, timer.after left) :: lowerFirst (timer.after left).timeDiff right

theorem absolute_added (timer : Timer) (left right : List (Nat × Timer)) :
    ∃ before after, absolute (left ++ right) = before ++ after ∧
      absolute (addedCells newNode timer left right) =
        before ++ ((newNode, timer.port, timer.seq), timer.timeDiff) :: after := by
  have inserted := DeltaList.absolute_insert 0 timer.timeDiff (newNode, timer.port, timer.seq)
    (entries left) (entries right)
  rw [zero_add] at inserted
  refine ⟨absolute left, DeltaList.absolute (0 + DeltaList.total (entries left)) (entries right), ?_, ?_⟩
  · rw [absolute, entries_append, DeltaList.absolute_append]
    rfl
  · rw [absolute, addedCells, entries_append, absolute, ← inserted]
    exact congrArg (fun rest => DeltaList.absolute 0 (entries left ++ _ :: rest))
      (entries_lowerFirst (timer.after left).timeDiff right)

theorem wellFormed_added {timer : Timer} {heap' : Heap Timer}
    (wellFormed : WellFormed heap head cells) (absent : timer.seq ∉ seqs cells)
    (placed : Placed heap' cells newNode timer left right) {heap : Heap Timer}
    (linked : Segment heap none (addedCells newNode timer left right) none) :
    WellFormed heap (first left (some newNode)) (addedCells newNode timer left right) where
  head := by rw [addedCells, first_append, first_cons]
  linked := linked
  distinct := by
    have perm : (seqs (addedCells newNode timer left right)).Perm (timer.seq :: seqs cells) := by
      rw [addedCells, placed.cells, seqs_append, seqs_append]
      rw [← seqs_lowerFirst (timer.after left).timeDiff right]
      exact List.perm_middle
    exact perm.nodup_iff.mpr (List.nodup_cons.mpr ⟨absent, wellFormed.distinct⟩)
  nonneg := by
    have nonneg := placed.cells ▸ wellFormed.nonneg
    intro cell inside
    rcases List.mem_append.mp inside with before | inside
    · exact nonneg cell (List.mem_append_left _ before)
    rcases List.mem_cons.mp inside with rfl | behind
    · exact placed.early
    · cases right with
      | nil => cases behind
      | cons second rest =>
        rcases List.mem_cons.mp behind with rfl | behind
        · exact sub_nonneg.mpr (placed.late second rfl)
        · exact nonneg cell (by simp [behind])

include wellFormed fresh absent later in
theorem addNode_adds (several : ¬ Single cells fun only => only.timeDiff ≤ pack.time) :
    Adds newNode pack heap head cells := by
  have outside := fresh_outside wellFormed fresh
  have nodup := addresses_nodup (fun timer : Timer => timer.seq) wellFormed.linked wellFormed.distinct
  have segment := segment_elsewhere (elsewhere_update heap newNode (some pack.newTimer)) outside
    wellFormed.linked
  have detached : Segment (Function.update heap newNode (some pack.newTimer)) none
      [(newNode, pack.newTimer.value)] none := ⟨Function.update_self _ _ _, trivial⟩
  have enough : cells.length < cells.length + 1 := Nat.lt_succ_self _
  have checked : checkForNode _ pack.seq _ _ = _ := checkForNode_first segment enough
  obtain ⟨heap₁, left, right, linked, placed⟩ :=
    addLinks_placed segment wellFormed.distinct outside detached later enough several
  obtain ⟨heap₂, settled, segment⟩ := addDifference_linked placed nodup outside
  refine ⟨cells.length + 1, heap₂, _, _, ?_, wellFormed_added wellFormed absent placed segment, ?_⟩
  · have time : pack.newTimer.value.timeDiff = pack.time := rfl
    rw [time] at linked
    simp [addNode, wellFormed.head, checked, absent, linked, settled]
  · rw [placed.cells]
    exact absolute_added pack.newTimer.value left right

theorem addLoop_null (fuel : Nat) : addLoop newNode fuel heap none = none := by
  cases fuel <;> rfl

-- The search goes on from the only node, whatever the fuel.
include wellFormed fresh in
theorem addNode_single (single : Single cells fun only => only.timeDiff ≤ pack.time) :
    ¬ Adds newNode pack heap head cells := by
  obtain ⟨address, only, rfl, sooner⟩ := single
  have outside := fresh_outside wellFormed fresh
  have segment := segment_elsewhere (elsewhere_update heap newNode (some pack.newTimer)) outside
    wellFormed.linked
  have found : Function.update heap newNode (some pack.newTimer) address = _ := segment.1
  rintro ⟨fuel, heap', head', cells', ran, -⟩
  have stuck : addLinks newNode fuel (Function.update heap newNode (some pack.newTimer))
      (some address) pack.time = none := by
    simp [addLinks, found, not_lt.mpr sooner, setValue, store, addLoop_null]
  have start : head = some address := wellFormed.head
  simp only [addNode, start] at ran
  cases checked : checkForNode (Function.update heap newNode (some pack.newTimer)) pack.seq fuel
      (some address) with
  | none => simp [checked] at ran
  | some known => cases known <;> simp [checked, stuck] at ran

end Add

section Delete

variable (wellFormed : WellFormed heap head cells)

theorem filter_absent (start : Rat) (absent : seq ∉ seqs cells) :
    (DeltaList.absolute start (entries cells)).filter (fun node => node.1.2.2 ≠ seq) =
      DeltaList.absolute start (entries cells) := by
  apply List.filter_eq_self.mpr
  intro node inside
  have item : node.1 ∈ (entries cells).map Prod.fst := by
    rw [← DeltaList.absolute_items start (entries cells)]
    exact List.mem_map_of_mem inside
  have other : node.1.2.2 ≠ seq := by
    rintro rfl
    obtain ⟨cell, member, same⟩ : ∃ cell ∈ cells, (cell.1, cell.2.port, cell.2.seq) = node.1 := by
      simpa [entries] using item
    exact absent (List.mem_map.mpr ⟨cell, member, by rw [← same]⟩)
  simpa using other

theorem absolute_deleted {cell : Nat × Timer} (distinct : (seqs (left ++ cell :: right)).Nodup) :
    absolute (left ++ raiseFirst cell.2.timeDiff right) =
      (absolute (left ++ cell :: right)).filter (fun node => node.1.2.2 ≠ cell.2.seq) := by
  rw [seqs_append, seqs, seqs, List.map_cons, List.nodup_middle, List.nodup_cons, List.mem_append,
    not_or] at distinct
  have others := filter_absent 0 distinct.1.1
  have others' := filter_absent (0 + DeltaList.total (entries left) + cell.2.timeDiff) distinct.1.2
  have deleted := DeltaList.absolute_delete 0 ((cell.1, cell.2.port, cell.2.seq), cell.2.timeDiff)
    (entries left) (entries right)
  rw [absolute, absolute, entries_append, entries_append, entries_raiseFirst, deleted,
    DeltaList.absolute_append, List.filter_append, others]
  simpa [entries, DeltaList.absolute] using others'.symm

theorem wellFormed_deleted {cell : Nat × Timer} {heap' : Heap Timer}
    (wellFormed : WellFormed heap head cells) (deleted : Deleted heap' cells seq left cell right) :
    WellFormed heap' (first (left ++ raiseFirst cell.2.timeDiff right) none)
      (left ++ raiseFirst cell.2.timeDiff right) where
  head := rfl
  linked := deleted.linked
  distinct := by
    have distinct := deleted.cells ▸ wellFormed.distinct
    rw [seqs_append, seqs_raiseFirst]
    rw [seqs_append] at distinct
    exact distinct.sublist ((List.sublist_cons_self _ _).append_left _)
  nonneg := by
    have nonneg := deleted.cells ▸ wellFormed.nonneg
    intro node inside
    rcases List.mem_append.mp inside with before | behind
    · exact nonneg node (List.mem_append_left _ before)
    · cases right with
      | nil => cases behind
      | cons second rest =>
        rcases List.mem_cons.mp behind with rfl | behind
        · exact add_nonneg (nonneg second (by simp)) (nonneg cell (by simp))
        · exact nonneg node (by simp [behind])

theorem first_raiseFirst (timeDiff : Rat) (cells : List (Nat × Timer)) (next : Option Nat) :
    first (raiseFirst timeDiff cells) next = first cells next := by
  cases cells <;> rfl

include wellFormed in
theorem deleteNode_deletes (several : ¬ Single cells fun only => only.seq ≠ seq) :
    Deletes seq heap head cells := by
  have nodup := addresses_nodup (fun timer : Timer => timer.seq) wellFormed.linked wellFormed.distinct
  cases cells with
  | nil =>
    refine ⟨0, heap, none, [], 0, ?_, ⟨rfl, trivial, .nil, by simp⟩, rfl, .inr ⟨?_, rfl, rfl, ?_⟩⟩
    · rw [wellFormed.head]
      rfl
    · simp [seqs]
    · rw [wellFormed.head]
      rfl
  | cons cell rest =>
    have found : heap cell.1 = _ := wellFormed.linked.1
    by_cases chosen : cell.2.seq = seq
    next =>
      obtain ⟨heap', ran, linked⟩ := deleteFirst_segment nodup wellFormed.linked
      have deleted : Deleted heap' (cell :: rest) seq [] cell rest := ⟨rfl, chosen, linked⟩
      refine ⟨0, heap', _, _, 1, ?_, wellFormed_deleted wellFormed deleted, ?_, .inl ⟨?_, rfl⟩⟩
      · rw [List.nil_append, first_raiseFirst]
        simp [deleteNode, wellFormed.head, found, chosen, ran]
      · rw [absolute_deleted wellFormed.distinct, chosen]
        rfl
      · simp [seqs, chosen]
    next =>
      cases rest with
      | nil => exact absurd ⟨_, _, rfl, chosen⟩ several
      | cons second rest =>
        have enough : rest.length < rest.length + 1 := Nat.lt_succ_self _
        obtain ⟨heap₁, temp, del, ran, heap₂, done, last, result⟩ :=
          deleteLoop_deleted seq [] wellFormed.distinct wellFormed.linked enough
        cases done with
        | true =>
          obtain ⟨passed, node, others, deleted⟩ := result
          have parts : cell :: second :: rest = (cell :: passed) ++ node :: others := deleted.cells
          refine ⟨rest.length + 1, heap₂, _, _, 1, ?_, wellFormed_deleted wellFormed deleted, ?_,
            .inl ⟨?_, rfl⟩⟩
          · simp [deleteNode, wellFormed.head, found, chosen, ran, last]
          · rw [List.nil_append, absolute_deleted (parts ▸ wellFormed.distinct), deleted.chosen, ← parts]
          · rw [parts, seqs_append]
            simp [seqs, deleted.chosen]
        | false =>
          obtain ⟨rfl, absent⟩ := result
          have absent : seq ∉ seqs (cell :: second :: rest) := by
            intro inside
            rcases List.mem_cons.mp inside with here | later
            · exact chosen here.symm
            · exact absent later
          refine ⟨rest.length + 1, heap₂, head, _, 0, ?_, wellFormed, (filter_absent 0 absent).symm,
            .inr ⟨absent, rfl, rfl, rfl⟩⟩
          simp [deleteNode, wellFormed.head, found, chosen, ran, last]

theorem deleteLoop_null (fuel : Nat) : deleteLoop seq fuel heap none = none := by
  cases fuel <;> rfl

include wellFormed in
theorem deleteNode_single (single : Single cells fun only => only.seq ≠ seq) :
    ¬ Deletes seq heap head cells := by
  obtain ⟨address, only, rfl, other⟩ := single
  have found : heap address = _ := wellFormed.linked.1
  rintro ⟨fuel, heap', head', cells', del, ran, -⟩
  simp [deleteNode, wellFormed.head, found, other, deleteLoop_null] at ran

end Delete

/-- `addNode` and `deleteNode` keep the list, but for the list of a single node that the search goes
behind. -/
theorem timer_list_operations (newNode : Nat) (pack : TimerPacket)
    (wellFormed : WellFormed heap head cells) (fresh : heap newNode = none)
    (absent : pack.seq ∉ seqs cells) (later : 0 ≤ pack.time) :
    (Adds newNode pack heap head cells ↔ ¬ Single cells fun only => only.timeDiff ≤ pack.time) ∧
      ∀ seq, Deletes seq heap head cells ↔ ¬ Single cells fun only => only.seq ≠ seq :=
  ⟨⟨fun adds single => addNode_single wellFormed fresh single adds,
      addNode_adds wellFormed fresh absent later⟩,
    fun _ => ⟨fun deletes single => deleteNode_single wellFormed single deletes,
      deleteNode_deletes wellFormed⟩⟩

section Lists

-- Two timers, of 5 and 3 more; and the first of them alone.
def twoCells : List (Nat × Timer) :=
  [(1, { timeDiff := 5, port := 0, seq := 1 }), (2, { timeDiff := 3, port := 0, seq := 2 })]

def twoTimers : Heap Timer := fun address =>
  match address with
  | 1 => some { next := some 2, prev := none, value := { timeDiff := 5, port := 0, seq := 1 } }
  | 2 => some { next := none, prev := some 1, value := { timeDiff := 3, port := 0, seq := 2 } }
  | _ => none

def oneCell : List (Nat × Timer) :=
  [(1, { timeDiff := 5, port := 0, seq := 1 })]

def oneTimer : Heap Timer := fun address =>
  match address with
  | 1 => some { next := none, prev := none, value := { timeDiff := 5, port := 0, seq := 1 } }
  | _ => none

def laterPacket : TimerPacket where
  returnPort := 0
  seq := 3
  time := 6

theorem twoTimers_wellFormed : WellFormed twoTimers (some 1) twoCells where
  head := rfl
  linked := ⟨rfl, rfl, trivial⟩
  distinct := by decide
  nonneg := by simp [twoCells]

theorem oneTimer_wellFormed : WellFormed oneTimer (some 1) oneCell where
  head := rfl
  linked := ⟨rfl, trivial⟩
  distinct := by decide
  nonneg := by simp [oneCell]

theorem timer_list_operations_two : Adds 3 laterPacket twoTimers (some 1) twoCells ∧
    Deletes 2 twoTimers (some 1) twoCells := by
  obtain ⟨adds, deletes⟩ := timer_list_operations 3 laterPacket twoTimers_wellFormed rfl
    (by decide) (by decide)
  have several (chosen : Timer → Prop) : ¬ Single twoCells chosen := by
    rintro ⟨_, _, ⟨⟩, _⟩
  exact ⟨adds.mpr (several _), (deletes 2).mpr (several _)⟩

/-- Behind a single node the loops of both operations start at `NULL`. -/
theorem timer_list_operations_one : WellFormed oneTimer (some 1) oneCell ∧
    laterPacket.seq ∉ seqs oneCell ∧ 0 ≤ laterPacket.time ∧
    ¬ Adds 2 laterPacket oneTimer (some 1) oneCell ∧ ¬ Deletes 2 oneTimer (some 1) oneCell :=
  ⟨oneTimer_wellFormed, by decide, by decide,
    addNode_single oneTimer_wellFormed rfl ⟨1, _, rfl, by decide⟩,
    deleteNode_single oneTimer_wellFormed ⟨1, _, rfl, by decide⟩⟩

end Lists

end NetworkProj.Turner
