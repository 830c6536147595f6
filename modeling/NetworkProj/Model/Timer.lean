import NetworkProj.Shared.Machine
import NetworkProj.Model.Header
import NetworkProj.Model.TimerRequest

set_option autoImplicit false

namespace NetworkProj

structure TimerNode where
  session : Int32
  seqNum : Int32
  remainSeconds : Rat
  requestAddr : SockAddr
deriving DecidableEq

def TimerNode.named (session seqNum : Int32) (node : TimerNode) : Bool :=
  node.session == session && node.seqNum == seqNum

def TimerNode.expired (node : TimerNode) : TimerExpired where
  session := node.session
  seqNum := node.seqNum

-- The search for the position in `InsertRequest`, and the repair of the node behind it.
def insertNode (now : TimerNode) : List TimerNode → List TimerNode
  | [] => [now]
  | l :: rest =>
    if now.remainSeconds < l.remainSeconds then
      now :: { l with remainSeconds := l.remainSeconds - now.remainSeconds } :: rest
    else
      l :: insertNode { now with remainSeconds := now.remainSeconds - l.remainSeconds } rest

def insertRequest (list : List TimerNode) (request : TimerRequest) (requestAddr : SockAddr) :
    List TimerNode :=
  if list.any (TimerNode.named request.session request.seqNum) then
    list
  else
    insertNode
      { session := request.session
        seqNum := request.seqNum
        remainSeconds := request.seconds
        requestAddr := requestAddr } list

def cancelNode (session seqNum : Int32) : List TimerNode → List TimerNode
  | [] => []
  | l :: rest =>
    if l.named session seqNum then
      match rest with
      | [] => []
      | next :: others =>
        { next with remainSeconds := next.remainSeconds + l.remainSeconds } :: others
    else
      l :: cancelNode session seqNum rest

def cancelRequest (list : List TimerNode) (request : TimerRequest) : List TimerNode :=
  cancelNode request.session request.seqNum list

-- The loop of `UpdateTimerList`; `leftover` is what the previous node has added to this one.
def carryOver (leftover : Rat) : List TimerNode → List TimerNode
  | [] => []
  | l :: rest =>
    if l.remainSeconds + leftover > 0 then
      { l with remainSeconds := l.remainSeconds + leftover } :: rest
    else
      { l with remainSeconds := 0 } :: carryOver (l.remainSeconds + leftover) rest

def updateTimerList (elapsedSeconds : Rat) (list : List TimerNode) : List TimerNode :=
  carryOver (-elapsedSeconds) list

def sendCallbacks : List TimerNode → List TimerNode × List (SockAddr × TimerExpired)
  | [] => ([], [])
  | first :: rest =>
    if first.remainSeconds > 0 then
      (first :: rest, [])
    else
      let (list, sent) := sendCallbacks rest
      (list, (first.requestAddr, first.expired) :: sent)

/-- One pass of the main loop: the time since the last one, and the request received, if any. -/
structure TimerRound where
  elapsedSeconds : Rat
  request : Option (TimerRequest × SockAddr)

def receiveRequest (list : List TimerNode) : Option (TimerRequest × SockAddr) → List TimerNode
  | none => list
  | some (request, requestAddr) =>
    match request.type with
    | .start => insertRequest list request requestAddr
    | .cancel => cancelRequest list request

def timerRound (list : List TimerNode) (round : TimerRound) :
    List TimerNode × List (SockAddr × TimerExpired) :=
  sendCallbacks (receiveRequest (updateTimerList round.elapsedSeconds list) round.request)

-- A conversion of a `double` to `unsigned` is defined only within its range.
def toUnsigned (value : Rat) : Option Nat :=
  if 0 ≤ value ∧ value < 2 ^ 32 then some value.floor.toNat else none

def sec2Usec : Rat := 1000000

-- The timeout that the main loop hands to `select`, in seconds and microseconds.
def sleepTime : List TimerNode → Option (Nat × Nat)
  | [] => some (1000, 0)
  | first :: _ => do
    let sec ← toUnsigned first.remainSeconds
    let usec ← toUnsigned (sec2Usec * (first.remainSeconds - sec))
    return (sec, usec)

def timerStep : Machine.Step (List TimerNode) TimerRound (SockAddr × TimerExpired) Stop :=
  fun list round => .ok (timerRound list round)

end NetworkProj
