import NetworkProj.Model.TurnerTimer
import NetworkProj.Shared.DeltaList

set_option autoImplicit false

namespace NetworkProj.Turner

open DoublyLinked

variable {heap heap' : Heap Timer} {left right : List (Nat × Timer)} {before cell behind : Nat × Timer}
  {newNode fuel : Nat} {timer : Timer} {seq : Int} {prev next : Option Nat}

def seqs (cells : List (Nat × Timer)) : List Int :=
  cells.map fun cell => cell.2.seq

-- Each node with its time difference.
def entries (cells : List (Nat × Timer)) : List ((Nat × Int × Int) × Rat) :=
  cells.map fun cell => ((cell.1, cell.2.port, cell.2.seq), cell.2.timeDiff)

theorem checkForNode_first {cells : List (Nat × Timer)} (segment : Segment heap prev cells none)
    (enough : cells.length < fuel) :
    checkForNode heap seq fuel (first cells none) = some ((seqs cells).contains seq) := by
  induction fuel generalizing prev cells with
  | zero => cases Nat.not_lt_zero _ enough
  | succ fuel ih =>
    cases cells with
    | nil => rfl
    | cons cell rest =>
      have later := ih segment.2 (Nat.lt_of_succ_lt_succ enough)
      by_cases here : cell.2.seq = seq
      next => simp [checkForNode, segment.1, here, seqs]
      next =>
        have other : (seq == cell.2.seq) = false := by simpa using Ne.symm here
        simpa [checkForNode, segment.1, here, seqs, other] using later

section Surgery

variable (nodup : (addresses (left ++ before :: cell :: right)).Nodup)
  (segment : Segment heap prev (left ++ before :: cell :: right) next)

include nodup in
theorem halves_apart : (addresses (left ++ [before])).Nodup ∧ (addresses (cell :: right)).Nodup ∧
    before.1 ∉ addresses (cell :: right) ∧ cell.1 ∉ addresses (left ++ [before]) := by
  rw [List.append_cons, addresses, List.map_append, List.nodup_append] at nodup
  refine ⟨nodup.1, nodup.2.1, fun inside => ?_, fun inside => ?_⟩
  · exact nodup.2.2 before.1 (by simp) _ inside rfl
  · exact nodup.2.2 _ inside cell.1 (by simp) rfl

include segment in
omit nodup in
theorem halves_linked : Segment heap prev (left ++ [before]) (some cell.1) ∧
    Segment heap (some before.1) (cell :: right) next := by
  rw [List.append_cons, segment_append, last_append] at segment
  exact segment

include nodup segment in
theorem addBefore_segment (fresh : newNode ∉ addresses (left ++ before :: cell :: right))
    {prev' next' : Option Nat} (detached : Segment heap prev' [(newNode, timer)] next') :
    ∃ heap', addBefore newNode heap (some cell.1) = some heap' ∧
      Segment heap' prev (left ++ before :: (newNode, timer) :: cell :: right) next := by
  obtain ⟨nodupLeft, nodupRight, outside, outside'⟩ := halves_apart nodup
  obtain ⟨front, back⟩ := halves_linked segment
  rw [List.append_cons, addresses, List.map_append, List.mem_append, not_or] at fresh
  obtain ⟨freshLeft, freshRight⟩ : newNode ∉ addresses (left ++ [before]) ∧
      newNode ∉ addresses (cell :: right) := fresh
  have apart : before.1 ≠ newNode := fun same => freshLeft (by simp [addresses, ← same])
  have apart' : cell.1 ≠ newNode := fun same => freshRight (by simp [addresses, ← same])
  -- The new node's own links, then the links of its two neighbours.
  obtain ⟨heap₁, set₁, only₁, detached⟩ := setNext_single detached (some cell.1)
  replace front := segment_elsewhere only₁ freshLeft front
  replace back := segment_elsewhere only₁ freshRight back
  have load₁ := back.1
  obtain ⟨heap₂, set₂, only₂, detached⟩ := setPrev_single detached (some before.1)
  replace front := segment_elsewhere only₂ freshLeft front
  replace back := segment_elsewhere only₂ freshRight back
  have load₂ := back.1
  obtain ⟨heap₃, set₃, only₃, front⟩ := setNext_segment _ front nodupLeft (some newNode)
  replace detached := single_elsewhere only₃ apart detached
  replace back := segment_elsewhere only₃ outside back
  obtain ⟨heap₄, set₄, only₄, back⟩ := setPrev_segment back nodupRight (some newNode)
  replace detached := single_elsewhere only₄ apart' detached
  replace front := segment_elsewhere only₄ outside' front
  refine ⟨heap₄, ?_, ?_⟩
  · simp [addBefore, set₁, load₁, set₂, load₂, set₃, set₄]
  · rw [List.append_cons, segment_append]
    refine ⟨front, ?_, back⟩
    simpa using detached.1

end Surgery

section Insertion

-- What is left of a new node's time behind the nodes passed.
def Timer.after (timer : Timer) (passed : List (Nat × Timer)) : Timer :=
  lower (DeltaList.total (entries passed)) timer

@[simp] theorem after_nil (timer : Timer) : timer.after [] = timer := by
  simp [Timer.after, lower, DeltaList.total, entries]

theorem lower_after (left : List (Nat × Timer)) (cell : Nat × Timer) (timer : Timer) :
    lower cell.2.timeDiff (timer.after left) = timer.after (left ++ [cell]) := by
  simp [Timer.after, lower, DeltaList.total, entries, sub_sub]

/-- The new node stands between two parts of the list, with what is left of its time. -/
structure Placed (heap : Heap Timer) (cells : List (Nat × Timer)) (newNode : Nat) (timer : Timer)
    (left right : List (Nat × Timer)) : Prop where
  cells : cells = left ++ right
  linked : Segment heap none (left ++ (newNode, timer.after left) :: right) none
  early : 0 ≤ (timer.after left).timeDiff
  late : ∀ cell ∈ right.head?, (timer.after left).timeDiff ≤ cell.2.timeDiff

-- Behind the last node.
theorem addLast_behind (left : List (Nat × Timer)) (nodup : (addresses (left ++ [cell])).Nodup)
    (segment : Segment heap none (left ++ [cell]) none) (fresh : newNode ∉ addresses (left ++ [cell]))
    (detached : Segment heap none [(newNode, timer)] none)
    (later : cell.2.timeDiff < timer.timeDiff) :
    ∃ heap', addLast newNode heap (some cell.1) false = some heap' ∧
      Segment heap' none (left ++ [cell] ++ [(newNode, lower cell.2.timeDiff timer)]) none := by
  have found := segment_at _ segment
  have new : heap newNode = _ := detached.1
  have apart : cell.1 ≠ newNode := fun same => fresh (by simp [addresses, ← same])
  obtain ⟨heap₁, set₁, only₁, detached⟩ := setPrev_single detached (some cell.1)
  replace segment := segment_elsewhere only₁ fresh segment
  obtain ⟨heap₂, set₂, only₂, detached⟩ := setValue_single detached (lower cell.2.timeDiff)
  replace segment := segment_elsewhere only₂ fresh segment
  obtain ⟨heap₃, set₃, only₃, segment⟩ := setNext_segment left segment nodup (some newNode)
  replace detached := single_elsewhere only₃ apart detached
  refine ⟨heap₃, by simp [addLast, found, new, later, set₁, set₂, set₃], ?_⟩
  rw [segment_append, last_append]
  exact ⟨segment, detached⟩

theorem addLoop_placed (left : List (Nat × Timer))
    (distinct : (seqs (left ++ before :: cell :: right)).Nodup)
    (segment : Segment heap none (left ++ before :: cell :: right) none)
    (fresh : newNode ∉ addresses (left ++ before :: cell :: right))
    (detached : Segment heap none [(newNode, timer.after (left ++ [before]))] none)
    (early : 0 ≤ (timer.after (left ++ [before])).timeDiff)
    (enough : right.length < fuel) :
    ∃ heap' temp added, addLoop newNode fuel heap (some cell.1) = some (heap', temp, added) ∧
      ∃ heap'', addLast newNode heap' temp added = some heap'' ∧
        ∃ passed rest, Placed heap'' (left ++ before :: cell :: right) newNode timer
          (left ++ before :: passed) rest := by
  induction fuel generalizing left before cell right heap with
  | zero => cases Nat.not_lt_zero _ enough
  | succ fuel ih =>
    have nodup := addresses_nodup (fun timer : Timer => timer.seq) segment distinct
    have split : left ++ before :: cell :: right = (left ++ [before]) ++ cell :: right := by simp
    have found := segment_at _ (split ▸ segment)
    have new : heap newNode = _ := detached.1
    by_cases sooner :
      (timer.after (left ++ [before])).timeDiff ≤ cell.2.timeDiff
    next =>
      -- Directly before `cell`: in the loop or, at the last node, behind it.
      obtain ⟨heap', added, linked⟩ := addBefore_segment nodup segment fresh detached
      have placed : Placed heap' (left ++ before :: cell :: right) newNode timer
          (left ++ before :: []) (cell :: right) :=
        ⟨split, by simpa using linked, early, by simpa using sooner⟩
      cases right with
      | nil =>
        refine ⟨heap, some cell.1, false, by simp [addLoop, found], heap', ?_, [], _, placed⟩
        simp [addLast, found, new, added, sooner, not_lt.mpr sooner]
      | cons behind right =>
        have new' : heap' newNode = _ := segment_at _ placed.linked
        have found' := segment_at (left ++ [before, (newNode, _)]) (by simpa using linked)
        refine ⟨heap', some cell.1, true, ?_, heap', ?_, [], _, placed⟩
        · simp [addLoop, found, new, added, sooner]
        · simp [addLast, found', new']
    next =>
      have left' : 0 ≤ (lower cell.2.timeDiff
          (timer.after (left ++ [before]))).timeDiff :=
        sub_nonneg.mpr (not_le.mp sooner).le
      cases right with
      | nil =>
        rw [split] at nodup segment fresh
        obtain ⟨heap', last, linked⟩ :=
          addLast_behind _ nodup segment fresh detached (not_le.mp sooner)
        rw [lower_after] at linked left'
        refine ⟨heap, some cell.1, false, by simp [addLoop, found], heap', last, [cell], [], by simp,
          ?_, ?_, by simp⟩
        · simpa using linked
        · simpa using left'
      | cons behind right =>
        obtain ⟨heap', lowered, only, detached⟩ :=
          setValue_single detached (lower cell.2.timeDiff)
        have segment' := segment_elsewhere only fresh segment
        rw [split] at distinct segment' fresh
        obtain ⟨final, temp, added, ran, last, set, passed, rest, placed⟩ :=
          ih _ distinct segment' fresh (by simpa [lower_after] using detached)
            (lower_after _ cell timer ▸ left') (by simpa using enough)
        refine ⟨final, temp, added, ?_, last, set, cell :: passed, rest, ?_⟩
        · simpa [addLoop, found, new, sooner, lowered] using ran
        · simpa using placed

-- The only node of a list: the code goes on from it to `NULL`.
def Single (cells : List (Nat × Timer)) (chosen : Timer → Prop) : Prop :=
  ∃ address timer, cells = [(address, timer)] ∧ chosen timer

theorem addLinks_placed {cells : List (Nat × Timer)} (segment : Segment heap none cells none)
    (distinct : (seqs cells).Nodup) (fresh : newNode ∉ addresses cells)
    (detached : Segment heap none [(newNode, timer)] none) (start : 0 ≤ timer.timeDiff)
    (enough : cells.length < fuel)
    (several : ¬ Single cells fun only => only.timeDiff ≤ timer.timeDiff) :
    ∃ heap' left right,
      addLinks newNode fuel heap (first cells none) timer.timeDiff =
        some (heap', first left (some newNode)) ∧ Placed heap' cells newNode timer left right := by
  cases cells with
  | nil =>
    refine ⟨heap, [], [], rfl, rfl, ?_, ?_, by simp⟩
    · simpa using detached
    · simpa using start
  | cons cell rest =>
    by_cases sooner : timer.timeDiff < cell.2.timeDiff
    next =>
      have apart : cell.1 ≠ newNode := fun same => fresh (by simp [addresses, ← same])
      have nodup := addresses_nodup (fun timer : Timer => timer.seq) segment distinct
      have found : heap cell.1 = _ := segment.1
      obtain ⟨heap₁, set₁, only₁, detached⟩ := setNext_single detached (some cell.1)
      replace segment := segment_elsewhere only₁ fresh segment
      obtain ⟨heap₂, set₂, only₂, segment⟩ := setPrev_segment segment nodup (some newNode)
      replace detached := single_elsewhere only₂ apart detached
      refine ⟨heap₂, [], cell :: rest, ?_, rfl, ?_, ?_, ?_⟩
      · simp [addLinks, found, sooner, set₁, set₂]
      · exact ⟨by simpa using detached.1, segment⟩
      · simpa using start
      · simpa using sooner.le
    next =>
      cases rest with
      | nil => exact absurd ⟨_, _, rfl, not_lt.mp sooner⟩ several
      | cons second rest =>
        have found : heap cell.1 = _ := segment.1
        obtain ⟨heap₁, lowered, only, detached⟩ := setValue_single detached (lower cell.2.timeDiff)
        replace segment := segment_elsewhere only fresh segment
        have left : timer.after ([] ++ [cell]) = lower cell.2.timeDiff timer := by
          rw [← lower_after, after_nil]
        have early : 0 ≤ (lower cell.2.timeDiff timer).timeDiff := sub_nonneg.mpr (not_lt.mp sooner)
        obtain ⟨heap₂, temp, added, ran, heap₃, set, passed, rest, placed⟩ :=
          addLoop_placed [] distinct segment fresh (left ▸ detached) (left ▸ early)
            (Nat.lt_of_succ_lt (Nat.lt_of_succ_lt enough))
        refine ⟨heap₃, cell :: passed, rest, ?_, placed⟩
        simp [addLinks, found, sooner, lowered, ran, set]

-- The node behind the new one is left with the difference.
def lowerFirst (timeDiff : Rat) (cells : List (Nat × Timer)) : List (Nat × Timer) :=
  cells.modifyHead fun cell => (cell.1, lower timeDiff cell.2)

theorem addDifference_linked {cells : List (Nat × Timer)}
    (placed : Placed heap cells newNode timer left right)
    (nodup : (addresses cells).Nodup) (fresh : newNode ∉ addresses cells) :
    ∃ heap', addDifference newNode heap = some heap' ∧
      Segment heap' none
        (left ++ (newNode, timer.after left) :: lowerFirst (timer.after left).timeDiff right) none := by
  have found := segment_at left placed.linked
  have linked := placed.linked
  cases right with
  | nil => exact ⟨heap, by simp [addDifference, found], linked⟩
  | cons cell right =>
    have nodup' : (addresses (left ++ (newNode, timer.after left) :: cell :: right)).Nodup := by
      have perm : (addresses (left ++ (newNode, timer.after left) :: cell :: right)).Perm
          (newNode :: addresses cells) := by
        rw [placed.cells, addresses, addresses, List.map_append, List.map_append]
        exact List.perm_middle
      exact perm.nodup_iff.mpr (List.nodup_cons.mpr ⟨fresh, nodup⟩)
    rw [List.append_cons] at linked nodup'
    obtain ⟨heap', lowered, _, linked⟩ := setValue_segment _ linked nodup'
      (lower (timer.after left).timeDiff)
    refine ⟨heap', ?_, by simpa [lowerFirst] using linked⟩
    simpa [addDifference, found] using lowered

end Insertion

section Deletion

-- The node behind a deleted one makes up for its time.
def raiseFirst (timeDiff : Rat) (cells : List (Nat × Timer)) : List (Nat × Timer) :=
  cells.modifyHead fun cell => (cell.1, raise timeDiff cell.2)

structure Deleted (heap : Heap Timer) (cells : List (Nat × Timer)) (seq : Int)
    (left : List (Nat × Timer)) (cell : Nat × Timer) (right : List (Nat × Timer)) : Prop where
  cells : cells = left ++ cell :: right
  chosen : cell.2.seq = seq
  linked : Segment heap none (left ++ raiseFirst cell.2.timeDiff right) none

theorem deleteMiddle_segment
    (nodup : (addresses (left ++ before :: cell :: behind :: right)).Nodup)
    (segment : Segment heap prev (left ++ before :: cell :: behind :: right) next) :
    ∃ heap', deleteMiddle heap (some cell.1) = some heap' ∧
      Segment heap' prev (left ++ before :: raiseFirst cell.2.timeDiff (behind :: right)) next := by
  obtain ⟨nodupLeft, nodupRight, outside, outside'⟩ := halves_apart nodup
  obtain ⟨front, rest⟩ := halves_linked segment
  obtain ⟨middle, back⟩ : Segment heap (some before.1) [cell] (some behind.1) ∧
      Segment heap (some cell.1) (behind :: right) next := ⟨⟨rest.1, trivial⟩, rest.2⟩
  obtain ⟨absent, nodupRight⟩ : cell.1 ∉ addresses (behind :: right) ∧
      (addresses (behind :: right)).Nodup := List.nodup_cons.mp nodupRight
  have apart : before.1 ≠ cell.1 := fun same => outside (by simp [addresses, same])
  have apart' : behind.1 ≠ cell.1 := fun same => absent (by simp [addresses, ← same])
  have outsideBack : before.1 ∉ addresses (behind :: right) := fun inside =>
    outside (List.mem_cons_of_mem _ inside)
  have behindFront : behind.1 ∉ addresses (left ++ [before]) := fun inside => by
    rw [List.append_cons, addresses, List.map_append, List.nodup_append] at nodup
    exact nodup.2.2 _ inside _ (by simp) rfl
  have load₀ : heap cell.1 = _ := middle.1
  -- The time of the node behind, the links of the two neighbours, and the node itself.
  obtain ⟨heap₁, set₁, only₁, back⟩ : ∃ heap', setValue heap (some behind.1) (raise cell.2.timeDiff) =
      some heap' ∧ Elsewhere behind.1 heap heap' ∧ Segment heap' (some cell.1)
        (raiseFirst cell.2.timeDiff (behind :: right)) next :=
    setValue_segment [] back nodupRight (raise cell.2.timeDiff)
  have same : addresses (raiseFirst cell.2.timeDiff (behind :: right)) = addresses (behind :: right) :=
    rfl
  rw [← same] at nodupRight outsideBack absent
  replace front := segment_elsewhere only₁ behindFront front
  replace middle := single_elsewhere only₁ apart' middle
  have load₁ : heap₁ cell.1 = _ := middle.1
  obtain ⟨heap₂, set₂, only₂, front⟩ := setNext_segment _ front nodupLeft (some behind.1)
  replace middle := single_elsewhere only₂ apart middle
  replace back := segment_elsewhere only₂ outsideBack back
  have load₂ : heap₂ cell.1 = _ := middle.1
  obtain ⟨heap₃, set₃, only₃, back⟩ := setPrev_segment back nodupRight (some before.1)
  replace middle := single_elsewhere only₃ apart' middle
  replace front := segment_elsewhere only₃ behindFront front
  obtain ⟨heap₄, freed, only₄⟩ := free_single middle
  replace front := segment_elsewhere only₄ outside' front
  replace back := segment_elsewhere only₄ absent back
  refine ⟨heap₄, ?_, ?_⟩
  · simp [deleteMiddle, load₀, set₁, load₁, set₂, load₂, set₃, freed]
  · rw [List.append_cons, segment_append, last_append]
    exact ⟨front, back⟩

theorem deleteLast_segment (nodup : (addresses (left ++ [before, cell])).Nodup)
    (segment : Segment heap prev (left ++ [before, cell]) none) :
    (cell.2.seq = seq → ∃ heap', deleteLast seq heap (some cell.1) false = some (heap', true) ∧
        Segment heap' prev (left ++ [before]) none) ∧
      (cell.2.seq ≠ seq → deleteLast seq heap (some cell.1) false = some (heap, false)) := by
  obtain ⟨nodupLeft, _, outside, outside'⟩ := halves_apart nodup
  obtain ⟨front, last⟩ := halves_linked segment
  have load₀ : heap cell.1 = _ := last.1
  have apart : before.1 ≠ cell.1 := fun same => outside (by simp [addresses, same])
  constructor
  · intro chosen
    obtain ⟨heap₁, set₁, only₁, front⟩ := setNext_segment _ front nodupLeft none
    replace last := single_elsewhere only₁ apart last
    obtain ⟨heap₂, freed, only₂⟩ := free_single last
    replace front := segment_elsewhere only₂ outside' front
    exact ⟨heap₂, by simp [deleteLast, load₀, chosen, set₁, freed], front⟩
  · intro other
    simp [deleteLast, load₀, other]

theorem deleteFirst_segment {cells : List (Nat × Timer)} (nodup : (addresses (cell :: cells)).Nodup)
    (segment : Segment heap none (cell :: cells) none) :
    ∃ heap', deleteFirst heap (some cell.1) = some (heap', first cells none) ∧
      Segment heap' none (raiseFirst cell.2.timeDiff cells) none := by
  have load₀ : heap cell.1 = _ := segment.1
  cases cells with
  | nil =>
    obtain ⟨heap₁, freed, _⟩ := free_single segment
    exact ⟨heap₁, by simp [deleteFirst, load₀, freed], trivial⟩
  | cons behind right =>
    obtain ⟨absent, nodupRight⟩ : cell.1 ∉ addresses (behind :: right) ∧
        (addresses (behind :: right)).Nodup := List.nodup_cons.mp nodup
    obtain ⟨front, back⟩ : Segment heap none [cell] (some behind.1) ∧
        Segment heap (some cell.1) (behind :: right) none := ⟨⟨segment.1, trivial⟩, segment.2⟩
    have apart : behind.1 ≠ cell.1 := fun same => absent (by simp [addresses, ← same])
    obtain ⟨heap₁, set₁, only₁, back⟩ := setPrev_segment back nodupRight none
    replace front := single_elsewhere only₁ apart front
    have load₁ : heap₁ cell.1 = _ := front.1
    obtain ⟨heap₂, set₂, only₂, back⟩ := setValue_segment [] back nodupRight (raise cell.2.timeDiff)
    replace front := single_elsewhere only₂ apart front
    obtain ⟨heap₃, freed, only₃⟩ := free_single front
    replace back := segment_elsewhere only₃ (by exact absent) back
    exact ⟨heap₃, by simp [deleteFirst, load₀, set₁, load₁, set₂, freed], back⟩

theorem deleteLoop_deleted (seq : Int) (left : List (Nat × Timer))
    (distinct : (seqs (left ++ before :: cell :: right)).Nodup)
    (segment : Segment heap none (left ++ before :: cell :: right) none)
    (enough : right.length < fuel) :
    ∃ heap' temp del, deleteLoop seq fuel heap (some cell.1) = some (heap', temp, del) ∧
      ∃ heap'' done, deleteLast seq heap' temp del = some (heap'', done) ∧
        if done then
          ∃ passed node rest, Deleted heap'' (left ++ before :: cell :: right) seq
            (left ++ before :: passed) node rest
        else
          heap'' = heap ∧ seq ∉ seqs (cell :: right) := by
  induction fuel generalizing left before cell right with
  | zero => cases Nat.not_lt_zero _ enough
  | succ fuel ih =>
    have nodup := addresses_nodup (fun timer : Timer => timer.seq) segment distinct
    have split : left ++ before :: cell :: right = (left ++ [before]) ++ cell :: right := by simp
    have found := segment_at _ (split ▸ segment)
    cases right with
    | nil =>
      obtain ⟨deleted, kept⟩ := deleteLast_segment nodup segment
      have ran : deleteLoop seq (fuel + 1) heap (some cell.1) = some (heap, some cell.1, false) := by
        simp [deleteLoop, found]
      by_cases chosen : cell.2.seq = seq
      next =>
        obtain ⟨heap', last, linked⟩ := deleted chosen
        exact ⟨heap, _, false, ran, heap', true, last, [], cell, [], by simp, chosen,
          by simpa [raiseFirst] using linked⟩
      next =>
        exact ⟨heap, _, false, ran, heap, false, kept chosen, rfl, by simpa [seqs] using Ne.symm chosen⟩
    | cons behind right =>
      by_cases chosen : cell.2.seq = seq
      next =>
        obtain ⟨heap', deleted, linked⟩ := deleteMiddle_segment nodup segment
        refine ⟨heap', some cell.1, true, ?_, heap', true, rfl, [], cell, behind :: right, by simp,
          chosen, by simpa using linked⟩
        simp [deleteLoop, found, chosen, deleted]
      next =>
        obtain ⟨heap', temp, del, ran, heap'', done, last, result⟩ :=
          ih _ (split ▸ distinct) (split ▸ segment) (Nat.lt_of_succ_lt_succ enough)
        refine ⟨heap', temp, del, by simpa [deleteLoop, found, chosen] using ran, heap'', done, last, ?_⟩
        cases done with
        | true =>
          obtain ⟨passed, node, rest, deleted⟩ := result
          exact ⟨cell :: passed, node, rest, by simpa using deleted⟩
        | false =>
          obtain ⟨same, absent⟩ := result
          refine ⟨same, fun inside => ?_⟩
          rcases List.mem_cons.mp inside with here | later
          · exact chosen here.symm
          · exact absent later

end Deletion

end NetworkProj.Turner
