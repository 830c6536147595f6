import NetworkProj.Model.Receiver
import NetworkProj.Model.Sender

set_option autoImplicit false

namespace NetworkProj

structure Tcpd where
  receiver : Receiver
  sender : Sender

inductive TcpdEvent where
  | socket (front : SockAddr) (retSock : Int32)
  | receiver (event : ReceiverEvent)
  | sender (event : SenderEvent)

inductive TcpdEffect where
  | socketReturn (addr : SockAddr) (value : Int32)
  | receiver (effect : ReceiverEffect)
  | sender (effect : SenderEffect)

structure TcpdOrder where
  accepted : IterOrder UInt32
  connected : IterOrder Int32

def Tcpd.initial : Tcpd where
  receiver := .initial
  sender := .initial

def tcpdSocket (state : Tcpd) (front : SockAddr) (retSock : Int32) :
    Except Stop (Tcpd × List TcpdEffect) :=
  if retSock < 0 then .error (.exit 2) else .ok (state, [.socketReturn front retSock])

def Tcpd.step (order : TcpdOrder) : Machine.Step Tcpd TcpdEvent TcpdEffect Stop := fun state event =>
  match event with
  | .socket front retSock => tcpdSocket state front retSock
  | .receiver event =>
    match Receiver.step order.accepted state.receiver event with
    | .error stop => .error stop
    | .ok (receiver, emitted) => .ok ({ state with receiver }, emitted.map .receiver)
  | .sender event =>
    match Sender.step order.connected state.sender event with
    | .error stop => .error stop
    | .ok (sender, emitted) => .ok ({ state with sender }, emitted.map .sender)

section MainLoop

/-- What one datagram on `TcpdMsgSocket` calls, with its arguments. -/
inductive FrontCall where
  | socket (front : SockAddr) (retSock : Int32)
  | bind (front : SockAddr) (sockfd : Int32) (granted : Bool)
  | accept (front : SockAddr) (sockfd : Int32)
  | recv (front : SockAddr) (sockfd : Int32) (len : UInt64)
  | connect (front : SockAddr) (sockfd : Int32) (addr : SockAddr) (rand : UInt32)
  | send (front : SockAddr) (sockfd : Int32) (len : UInt64) (buf : Block bufLen) (malloc : TrollMessage)

def FrontCall.event : FrontCall → TcpdEvent
  | .socket front retSock => .socket front retSock
  | .bind front sockfd granted => .receiver (.bind front sockfd granted)
  | .accept front sockfd => .receiver (.accept front sockfd)
  | .recv front sockfd len => .receiver (.recv front sockfd len)
  | .connect front sockfd addr rand => .sender (.connect front sockfd addr rand)
  | .send front sockfd len buf malloc => .sender (.send front sockfd len buf malloc)

structure Arrival where
  message : TrollMessage
  remoteTroll : SockAddr
  malloc : AcceptedSocket

def Arrival.event (sockfd : Int32) (arrival : Arrival) : TcpdEvent :=
  .receiver (.data sockfd arrival.message arrival.remoteTroll arrival.malloc)

structure AckArrival where
  ack : TrollAck
  now : TimeVal

def AckArrival.event (sockfd : Int32) (arrival : AckArrival) : TcpdEvent :=
  .sender (.ack sockfd arrival.ack arrival.now)

/-- What a round finds ready: at most one datagram on each socket. -/
structure TcpdRound where
  front : Option FrontCall
  data : Int32 → Option Arrival
  acks : Int32 → Option AckArrival
  timer : Option TimerExpired
  clock : Nat → TimeVal

def Tcpd.boundSockets (state : Tcpd) : List Int32 :=
  state.receiver.bindedSockets.map BindedSocket.socketFD

-- `WaitingSocketSet`, but for the sockets of the front processes and of the timer.
def Tcpd.waitingSocketSet (state : Tcpd) : List Int32 :=
  state.boundSockets ++ state.sender.connectedSockets.keys

/-- The calls of a round behind the front call. A socket is read when `select` was asked for it,
which was before the front call. -/
def roundEvents (order : TcpdOrder) (waiting : List Int32) (state : Tcpd) (round : TcpdRound) :
    List TcpdEvent :=
  ((state.boundSockets.filter (· ∈ waiting)).filterMap fun sockfd =>
      (round.data sockfd).map (Arrival.event sockfd)) ++
    (((order.connected.visit state.sender.connectedSockets.keys).filter (· ∈ waiting)).filterMap
      fun sockfd => (round.acks sockfd).map (AckArrival.event sockfd)) ++
    (round.timer.toList.map fun expired => .sender (.expired expired)) ++
    [.receiver .solveAccept, .receiver .solveRecv, .sender (.solveSend round.clock)]

def frontEvents (round : TcpdRound) : List TcpdEvent :=
  (round.front.map FrontCall.event).toList

-- One round. Its output is the list of the calls it makes, each with what they send.
def mainLoop (order : TcpdOrder) :
    Machine.Step Tcpd TcpdRound (TcpdEvent × List TcpdEffect) Stop := fun state round =>
  if round.front.isSome ∧ ¬ state.sender.Ready then
    .error .blocked
  else
    match Machine.exec (Tcpd.step order) state (frontEvents round) with
    | .error stop => .error stop
    | .ok (called, calls) =>
      match Machine.exec (Tcpd.step order) called
          (roundEvents order state.waitingSocketSet called round) with
      | .error stop => .error stop
      | .ok (final, rest) => .ok (final, calls ++ rest)

end MainLoop

end NetworkProj
