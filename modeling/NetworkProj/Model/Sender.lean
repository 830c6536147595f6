import NetworkProj.Shared.Machine
import NetworkProj.Shared.Table
import NetworkProj.Model.Header
import NetworkProj.Model.TimerRequest

set_option autoImplicit false

namespace NetworkProj

structure ConnectedSocket where
  socketFD : Int32
  session : UInt32
  base : UInt32
  minSeq : UInt32
  serverAddr : SockAddr
  packages : List TrollMessage
  pendingPackages : List TrollMessage

structure Estimator where
  sendTime : TimeVal
  ackTime : TimeVal
  elapsedSeconds : Rat
  estimatedRTT : Rat
  estimatedRTTprev : Rat
  estimatedDEV : Rat
  estimatedDEVprev : Rat
  estimatedRTO : Rat

structure Sender where
  connectedSockets : Table Int32 ConnectedSocket
  inBufferPackages : Int
  estimator : Estimator

inductive SenderEvent where
  | connect (front : SockAddr) (sockfd : Int32) (addr : SockAddr) (rand : UInt32)
  | send (front : SockAddr) (sockfd : Int32) (len : UInt64) (buf : Block bufLen) (malloc : TrollMessage)
  | ack (sockfd : Int32) (ack : TrollAck) (now : TimeVal)
  | expired (expired : TimerExpired)
  -- The clock is read once for each package sent.
  | solveSend (clock : Nat → TimeVal)

inductive SenderEffect where
  | connectReturn (addr : SockAddr) (value : Int32)
  | sendReturn (addr : SockAddr) (value : UInt64)
  | data (sockfd : Int32) (message : TrollMessage)
  | timer (request : TimerRequest)
  | free (message : TrollMessage)

def SenderEffect.frame? : SenderEffect → Option TrollMessage
  | .data _ message => some message
  | _ => none

def SenderEffect.request? : SenderEffect → Option TimerRequest
  | .timer request => some request
  | _ => none

def Estimator.initial : Estimator where
  sendTime := ⟨0, 0⟩
  ackTime := ⟨0, 0⟩
  elapsedSeconds := 0
  estimatedRTT := 0
  estimatedRTTprev := 1 / 100
  estimatedDEV := 0
  estimatedDEVprev := 1 / 100
  estimatedRTO := 0

def Sender.initial : Sender where
  connectedSockets := .empty
  inBufferPackages := 0
  estimator := .initial

section FrontCalls

def newSock (sockfd : Int32) (addr : SockAddr) (rand : UInt32) : ConnectedSocket where
  socketFD := sockfd
  session := rand
  base := 0
  minSeq := 0
  serverAddr := addr
  packages := []
  pendingPackages := []

def tcpdConnect (state : Sender) (front : SockAddr) (sockfd : Int32) (addr : SockAddr)
    (rand : UInt32) : Sender × List SenderEffect :=
  ({ state with
      connectedSockets := state.connectedSockets.insert sockfd (newSock sockfd addr rand) },
    [.connectReturn front 0])

-- The package that SEND wraps around the first `len` bytes of `buf`.
def wrapPackage (sock : ConnectedSocket) (len : UInt64) (body : Block bufLen)
    (malloc : TrollMessage) : TrollMessage :=
  TrollMessage.sealed
    { malloc with
      header := { sock.serverAddr with sinFamily := htonsAfInet }
      session := sock.session
      seqNum := sock.base
      len := len
      body := body }

def tcpdSend (state : Sender) (front : SockAddr) (sockfd : Int32) (len : UInt64)
    (buf : Block bufLen) (malloc : TrollMessage) : Except Stop (Sender × List SenderEffect) :=
  if bufLen < len.toNat then
    .error (.exit 5)
  else
    match state.connectedSockets.find sockfd with
    | none => .error (.exit 1)
    | some now =>
      match buf.bcopy 0 malloc.body 0 len.toNat with
      | none => .error .fault
      | some body =>
        .ok ({ state with
            connectedSockets := state.connectedSockets.insert sockfd
              { now with
                base := now.base + 1
                pendingPackages := now.pendingPackages ++ [wrapPackage now len body malloc] }
            inBufferPackages := state.inBufferPackages + 1 },
          [.sendReturn front len])

end FrontCalls

section RecvAck

def Estimator.acked (estimator : Estimator) (now : TimeVal) : Estimator :=
  let elapsed := estimator.sendTime.since now
  { estimator with
    ackTime := now
    elapsedSeconds := if elapsed < 0 then -elapsed else elapsed }

def TrollMessage.named (session seqNum : UInt32) (message : TrollMessage) : Bool :=
  message.session == session && message.seqNum == seqNum

-- The part of `RecvAck` behind the checksum test. The timer is cancelled in any case.
def freeAcked (state : Sender) (sockfd : Int32) (sock : ConnectedSocket) (ack : TrollAck) :
    Sender × List SenderEffect :=
  let cancel := SenderEffect.timer (cancelTimerRequest ack.session ack.seqNum)
  match sock.packages.find? (TrollMessage.named ack.session ack.seqNum) with
  | none => (state, [cancel])
  | some message =>
    ({ state with
        connectedSockets := state.connectedSockets.insert sockfd
          { sock with packages := sock.packages.eraseP (TrollMessage.named ack.session ack.seqNum) }
        inBufferPackages := state.inBufferPackages - 1 },
      [.free message, cancel])

-- `RecvAck` on a connected socket. The clock is read before the checksum test.
def recvAck (state : Sender) (sockfd : Int32) (sock : ConnectedSocket) (ack : TrollAck)
    (now : TimeVal) : Sender × List SenderEffect :=
  let state := { state with estimator := state.estimator.acked now }
  if ack.Intact then freeAcked state sockfd sock ack else (state, [])

end RecvAck

section RecvTimer

def findSession (order : IterOrder Int32) (state : Sender) (session : UInt32) :
    Option (Int32 × ConnectedSocket) :=
  (order.visit state.connectedSockets.keys).findSome? fun sockfd =>
    match state.connectedSockets.find sockfd with
    | none => none
    | some sock => if sock.session = session then some (sockfd, sock) else none

def recvTimer (order : IterOrder Int32) (state : Sender) (expired : TimerExpired) :
    Except Stop (Sender × List SenderEffect) :=
  match findSession order state expired.session.toUInt32 with
  | none => .error (.exit 5)
  | some (sockfd, sock) =>
    let named := TrollMessage.named expired.session.toUInt32 expired.seqNum.toUInt32
    match sock.packages.find? named with
    | none => .ok (state, [])
    | some message =>
      .ok ({ state with
        connectedSockets := state.connectedSockets.insert sockfd
          { sock with
            packages := sock.packages.eraseP named
            pendingPackages := sock.pendingPackages ++ [message] } }, [])

end RecvTimer

section SolveSendCallback

-- `abs` takes an `int`: its argument is first truncated towards zero. Out of range the conversion
-- gives the least `int`, which `abs` gives back.
def intAbs (value : Rat) : Rat :=
  let truncated := if 0 ≤ value then value.floor else value.ceil
  if truncated.natAbs < 2 ^ 31 then (truncated.natAbs : Rat) else -2 ^ 31

def Estimator.sent (estimator : Estimator) (now : TimeVal) : Estimator :=
  let elapsed := if estimator.elapsedSeconds ≤ 0 then 1 / 100 else estimator.elapsedSeconds
  let rtt := 875 / 1000 * estimator.estimatedRTTprev + (1 - 875 / 1000) * elapsed
  let dev := (1 - 25 / 100) * estimator.estimatedDEVprev +
    25 / 100 * intAbs (elapsed - estimator.estimatedRTTprev)
  { sendTime := now
    ackTime := estimator.ackTime
    elapsedSeconds := elapsed
    estimatedRTT := rtt
    estimatedRTTprev := rtt
    estimatedDEV := dev
    estimatedDEVprev := dev
    estimatedRTO := estimator.estimatedRTTprev + 4 * estimator.estimatedDEVprev }

def minSeqOf (packages : List TrollMessage) : UInt32 :=
  packages.foldl (fun minSeq tmp => if tmp.seqNum < minSeq then tmp.seqNum else minSeq) 100000000

-- The estimator, and how often this callback has read the clock.
abbrev SendShared : Type := Estimator × Nat

/-- The loop over `PendingPackages`: what it leaves pending, what it moves to `Packages`, and the
datagrams it sends. -/
def sendPending (clock : Nat → TimeVal) (sockfd : Int32) (limit : UInt32) :
    SendShared → List TrollMessage →
      SendShared × List TrollMessage × List TrollMessage × List SenderEffect
  | shared, [] => (shared, [], [], [])
  | shared, now :: rest =>
    if now.seqNum ≥ limit then
      let (shared, pending, sent, effects) := sendPending clock sockfd limit shared rest
      (shared, now :: pending, sent, effects)
    else
      let estimator := shared.1.sent (clock shared.2)
      let (shared, pending, sent, effects) :=
        sendPending clock sockfd limit (estimator, shared.2 + 1) rest
      (shared, pending, now :: sent,
        .data sockfd now ::
          .timer (sendTimerRequest now.session now.seqNum estimator.estimatedRTO) :: effects)

def solveSendSocket (clock : Nat → TimeVal) (shared : SendShared) (sock : ConnectedSocket) :
    SendShared × ConnectedSocket × List SenderEffect :=
  let minSeq := minSeqOf sock.packages
  let (shared, pending, sent, effects) :=
    sendPending clock sock.socketFD (minSeq + UInt32.ofNat maxBufferPackages) shared
      sock.pendingPackages
  (shared, { sock with minSeq, packages := sock.packages ++ sent, pendingPackages := pending }, effects)

def solveSendCallback (order : IterOrder Int32) (state : Sender) (clock : Nat → TimeVal) :
    Except Stop (Sender × List SenderEffect) :=
  match Table.sweep (fun shared _ sock => .ok (solveSendSocket clock shared sock))
      (order.visit state.connectedSockets.keys) (state.estimator, 0) state.connectedSockets with
  | .error stop => .error stop
  | .ok (shared, connectedSockets, effects) =>
    .ok ({ state with connectedSockets, estimator := shared.1 }, effects)

end SolveSendCallback

-- The main loop reads front calls only while fewer than `MAX_BUFFER_PACKAGES` are buffered.
def Sender.Ready (state : Sender) : Prop :=
  state.inBufferPackages < maxBufferPackages

instance (state : Sender) : Decidable state.Ready :=
  inferInstanceAs (Decidable (_ < _))

def Sender.step (order : IterOrder Int32) :
    Machine.Step Sender SenderEvent SenderEffect Stop := fun state event =>
  match event with
  | .connect front sockfd addr rand =>
    if state.Ready then .ok (tcpdConnect state front sockfd addr rand) else .error .blocked
  | .send front sockfd len buf malloc =>
    if state.Ready then tcpdSend state front sockfd len buf malloc else .error .blocked
  | .ack sockfd ack now =>
    match state.connectedSockets.find sockfd with
    | none => .error .blocked
    | some sock => .ok (recvAck state sockfd sock ack now)
  | .expired expired => recvTimer order state expired
  | .solveSend clock => solveSendCallback order state clock

end NetworkProj
