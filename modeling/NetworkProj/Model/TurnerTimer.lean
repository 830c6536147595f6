import Mathlib.Data.Rat.Defs
import NetworkProj.Shared.DoublyLinked

set_option autoImplicit false

/-!
# The list of `Turner/timer.c`

Times are rationals. `none` is a run that dereferences `NULL`, or that the fuel of a
`while` loop ends.
-/

namespace NetworkProj.Turner

open DoublyLinked

-- `struct node`, without its links.
structure Timer where
  timeDiff : Rat
  port : Int
  seq : Int

-- What `addNode` reads of the global `pack`.
structure TimerPacket where
  returnPort : Int
  seq : Int
  time : Rat

def checkForNode (heap : Heap Timer) (seq : Int) : Nat → Option Nat → Option Bool
  | 0, _ => none
  | _ + 1, none => some false
  | fuel + 1, some head => do
    let node ← heap head
    if node.value.seq = seq then
      return true
    else
      checkForNode heap seq fuel node.next

section Add

variable (newNode : Nat)

def TimerPacket.newTimer (pack : TimerPacket) : Node Timer where
  next := none
  prev := none
  value := { timeDiff := pack.time, port := pack.returnPort, seq := pack.seq }

def lower (timeDiff : Rat) (timer : Timer) : Timer :=
  { timer with timeDiff := timer.timeDiff - timeDiff }

-- The four assignments that put the new node directly before `temp`.
def addBefore (heap : Heap Timer) (temp : Option Nat) : Option (Heap Timer) := do
  let heap ← setNext heap (some newNode) temp
  let node ← load heap temp
  let heap ← setPrev heap (some newNode) node.prev
  let node ← load heap temp
  let heap ← setNext heap node.prev (some newNode)
  setPrev heap temp (some newNode)

-- The `while` loop of `addNode`, to `temp` and `added`.
def addLoop : Nat → Heap Timer → Option Nat → Option (Heap Timer × Option Nat × Bool)
  | 0, _, _ => none
  | fuel + 1, heap, temp => do
    let node ← load heap temp
    if node.next = none then
      return (heap, temp, false)
    else
      let new ← heap newNode
      if new.value.timeDiff ≤ node.value.timeDiff then
        let heap ← addBefore newNode heap temp
        return (heap, temp, true)
      else
        let heap ← setValue heap (some newNode) (lower node.value.timeDiff)
        addLoop fuel heap node.next

-- The tests after the loop: after the last node, directly before it, or already added.
def addLast (heap : Heap Timer) (temp : Option Nat) (added : Bool) : Option (Heap Timer) := do
  let node ← load heap temp
  let new ← heap newNode
  if node.next = none ∧ node.value.timeDiff < new.value.timeDiff ∧ added = false then
    let heap ← setPrev heap (some newNode) temp
    let heap ← setValue heap (some newNode) (lower node.value.timeDiff)
    setNext heap temp (some newNode)
  else if node.next = none ∧ node.value.timeDiff ≥ new.value.timeDiff ∧ added = false then
    addBefore newNode heap temp
  else
    return heap

-- The branches of `addNode` that link the new node.
def addLinks (fuel : Nat) (heap : Heap Timer) (head : Option Nat) (time : Rat) :
    Option (Heap Timer × Option Nat) :=
  match head with
  | none => some (heap, some newNode)
  | some first => do
    let temp ← heap first
    if temp.value.timeDiff > time then
      let heap ← setNext heap (some newNode) head
      let heap ← setPrev heap head (some newNode)
      return (heap, some newNode)
    else
      let heap ← setValue heap (some newNode) (lower temp.value.timeDiff)
      let (heap, temp, added) ← addLoop newNode fuel heap temp.next
      let heap ← addLast newNode heap temp added
      return (heap, head)

-- The node behind the new one gets the difference.
def addDifference (heap : Heap Timer) : Option (Heap Timer) := do
  let new ← heap newNode
  if new.next ≠ none then
    setValue heap new.next (lower new.value.timeDiff)
  else
    return heap

/-- `addNode`, where `newNode` is what `malloc` returns: the list and the return value. -/
def addNode (fuel : Nat) (pack : TimerPacket) (heap : Heap Timer) (head : Option Nat) :
    Option (Heap Timer × Option Nat × Int) := do
  let heap := Function.update heap newNode (some pack.newTimer)
  if ← checkForNode heap pack.seq fuel head then
    return (heap, head, 0)
  else
    let (heap, head) ← addLinks newNode fuel heap head pack.time
    let heap ← addDifference newNode heap
    return (heap, head, 1)

end Add

section Delete

variable (seq : Int)

def raise (timeDiff : Rat) (timer : Timer) : Timer :=
  { timer with timeDiff := timer.timeDiff + timeDiff }

-- The middle nodes: `temp`'s successor is there by the test of the loop.
def deleteMiddle (heap : Heap Timer) (temp : Option Nat) : Option (Heap Timer) := do
  let node ← load heap temp
  let heap ← setValue heap node.next (raise node.value.timeDiff)
  let node ← load heap temp
  let heap ← setNext heap node.prev node.next
  let node ← load heap temp
  let heap ← setPrev heap node.next node.prev
  free heap temp

-- The `while` loop of `deleteNode`, to `temp` and `del`.
def deleteLoop : Nat → Heap Timer → Option Nat → Option (Heap Timer × Option Nat × Bool)
  | 0, _, _ => none
  | fuel + 1, heap, temp => do
    let node ← load heap temp
    if node.next = none then
      return (heap, temp, false)
    else if node.value.seq = seq then
      let heap ← deleteMiddle heap temp
      return (heap, temp, true)
    else
      deleteLoop fuel heap node.next

-- The test after the loop.
def deleteLast (heap : Heap Timer) (temp : Option Nat) (del : Bool) :
    Option (Heap Timer × Bool) :=
  if del then
    some (heap, del)
  else do
    let node ← load heap temp
    if node.value.seq = seq then
      let heap ← setNext heap node.prev node.next
      let heap ← free heap temp
      return (heap, true)
    else
      return (heap, del)

def deleteFirst (heap : Heap Timer) (head : Option Nat) : Option (Heap Timer × Option Nat) := do
  let node ← load heap head
  let next := node.next
  let heap ←
    if next ≠ none then do
      let heap ← setPrev heap node.next none
      let node ← load heap head
      setValue heap node.next (raise node.value.timeDiff)
    else
      some heap
  let heap ← free heap head
  return (heap, next)

def deleteNode (fuel : Nat) (heap : Heap Timer) (head : Option Nat) :
    Option (Heap Timer × Option Nat × Int) :=
  match head with
  | none => some (heap, head, 0)
  | some first => do
    let temp ← heap first
    if temp.value.seq = seq then
      let (heap, head) ← deleteFirst heap head
      return (heap, head, 1)
    else
      let (heap, temp, del) ← deleteLoop seq fuel heap temp.next
      let (heap, del) ← deleteLast seq heap temp del
      return (heap, head, if del then 1 else 0)

end Delete

end NetworkProj.Turner
