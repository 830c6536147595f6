import NetworkProj.Model.Tcpudp

set_option autoImplicit false

/-!
# `TcpdMsgSocket`: how the daemon reads a call

All front processes send to one socket. The main loop reads the name of a call
and its handler the arguments, each from the next datagram in the receive queue.
-/

namespace NetworkProj

structure Datagram where
  sender : SockAddr
  bytes : List UInt8

structure TcpdMsgSocket where
  buf : Block bufLen
  queue : List Datagram

/-- What the operating system and the memory give while a call is handled. -/
structure FrontEnv where
  -- `tcpd_msg` is not cleared before its bytes are received.
  tcpdMsg : Block tcpdMsgLen
  retSock : Int32
  granted : Int32 → SockAddr → Bool
  rand : UInt32
  malloc : TrollMessage

inductive FrontStop where
  | tcpd (stop : Stop)
  -- A handler waits for a datagram that nobody sends.
  | waiting
deriving DecidableEq

section Handlers

abbrev Fetch (α : Type) : Type := StateT TcpdMsgSocket (Except FrontStop) α

def bzero (count : Nat) : Fetch Unit :=
  modify fun socket => { socket with buf := socket.buf.receive (List.replicate count 0) }

-- `recvfrom(sock, buf, count, ..)` with the `FrontAddr` it sets.
def recvBuf (count : Nat) : Fetch SockAddr := fun socket =>
  match socket.queue with
  | [] => .error .waiting
  | datagram :: queue =>
    .ok (datagram.sender, { buf := socket.buf.receive (datagram.bytes.take count), queue })

-- One argument of `count` bytes: `bzero`, `recvfrom` and `bcopy`.
def recvArgument {α : Type} (count : Nat) (decode : List UInt8 → α) : Fetch (SockAddr × α) := do
  bzero count
  let front ← recvBuf count
  return (front, decode ((← get).buf.take count))

def recvInt : Fetch (SockAddr × Int32) :=
  recvArgument 4 fun bytes => (ofBytes32 bytes).toInt32

def recvSize : Fetch (SockAddr × UInt64) :=
  recvArgument 8 ofBytes64

def recvSockAddr : Fetch (SockAddr × SockAddr) :=
  recvArgument 16 SockAddr.ofBytes

-- The handlers up to their last `recvfrom`. Each `recvfrom` overwrites `FrontAddr`.
def handler (env : FrontEnv) (front : SockAddr) : CallName → Fetch FrontCall
  | .socket => return .socket front env.retSock
  | .bind => do
    let (_, sockfd) ← recvInt
    let (front, addr) ← recvSockAddr
    return .bind front sockfd (env.granted sockfd addr)
  | .accept => do
    let (front, sockfd) ← recvInt
    return .accept front sockfd
  | .recv => do
    let (_, sockfd) ← recvInt
    let (front, len) ← recvSize
    return .recv front sockfd len
  | .connect => do
    let (_, sockfd) ← recvInt
    let (front, addr) ← recvSockAddr
    return .connect front sockfd addr env.rand
  | .send => do
    let (_, sockfd) ← recvInt
    let (_, len) ← recvSize
    if bufLen < len.toNat then
      throw (.tcpd (.exit 5))
    else
      -- `buf` is not cleared here.
      let front ← recvBuf len.toNat
      return .send front sockfd len (← get).buf env.malloc

end Handlers

section Dispatch

-- `strcmp(tcpd_msg, ..) == 0`.
def CallName.Matches (name : CallName) (msg : Block tcpdMsgLen) : Prop :=
  msg.take (name.text.length + 1) = name.text ++ [0]

instance (name : CallName) (msg : Block tcpdMsgLen) : Decidable (name.Matches msg) :=
  inferInstanceAs (Decidable (_ = _))

def dispatch (msg : Block tcpdMsgLen) : Option CallName :=
  [CallName.socket, .bind, .accept, .recv, .connect, .send].find? fun name => name.Matches msg

-- The main loop reads one call. A datagram that names no call is dropped.
def fetchCall (env : FrontEnv) : Fetch (Option FrontCall) := fun socket =>
  match socket.queue with
  | [] => .error (.tcpd .blocked)
  | datagram :: queue =>
    match dispatch (env.tcpdMsg.receive datagram.bytes) with
    | none => .ok (none, { socket with queue })
    | some name => (handler env datagram.sender name { socket with queue }).map (Prod.map some id)

end Dispatch

section Daemon

-- `RecvAck` reads `sizeof(struct TrollAckStruct)` bytes.
def trollAckLen : Nat := 28

def TrollAck.ofBytes (bytes : List UInt8) : TrollAck where
  header := SockAddr.ofBytes bytes
  checkSum := ofBytes32 (bytes.drop 16)
  session := ofBytes32 (bytes.drop 20)
  seqNum := ofBytes32 (bytes.drop 24)

/-- The steps of the daemon that do not read `TcpdMsgSocket`. What its other sockets bring is up to
the environment, also when a call has connected the socket of the timer. -/
inductive BackgroundEvent where
  | data (sockfd : Int32) (arrival : Arrival)
  | ack (sockfd : Int32) (arrival : AckArrival)
  | expired (expired : TimerExpired)
  | solveAccept
  | solveRecv
  | solveSend (clock : Nat → TimeVal)

def BackgroundEvent.event : BackgroundEvent → TcpdEvent
  | .data sockfd arrival => arrival.event sockfd
  | .ack sockfd arrival => arrival.event sockfd
  | .expired request => .sender (.expired request)
  | .solveAccept => .receiver .solveAccept
  | .solveRecv => .receiver .solveRecv
  | .solveSend clock => .sender (.solveSend clock)

def BackgroundEvent.socketFD? : BackgroundEvent → Option Int32
  | .data sockfd _ | .ack sockfd _ => some sockfd
  | .expired _ | .solveAccept | .solveRecv | .solveSend _ => none

inductive FrontEvent where
  | front (env : FrontEnv)
  -- A call has connected `TcpdMsgSocket` itself, and `RecvAck` reads it.
  | recvAck (malloc : Block trollAckLen) (now : TimeVal)
  | background (event : BackgroundEvent)

def FrontEvent.background? : FrontEvent → Option BackgroundEvent
  | .front _ | .recvAck .. => none
  | .background event => some event

-- `Tcpd.step` with the stops of a daemon that reads datagrams.
def Tcpd.act (order : TcpdOrder) : Machine.Step Tcpd TcpdEvent TcpdEffect FrontStop :=
  fun state event =>
    match Tcpd.step order state event with
    | .error stop => .error (.tcpd stop)
    | .ok result => .ok result

def Tcpd.background (order : TcpdOrder) (socketFD : Int32) :
    Machine.Step Tcpd BackgroundEvent TcpdEffect FrontStop := fun state event =>
  if event.socketFD? = some socketFD then .error (.tcpd .blocked)
  else Tcpd.act order state event.event

structure FrontTcpd where
  tcpd : Tcpd
  socketFD : Int32
  socket : TcpdMsgSocket

def FrontTcpd.step (order : TcpdOrder) :
    Machine.Step FrontTcpd FrontEvent TcpdEffect FrontStop := fun state event =>
  match event with
  | .background event =>
    match Tcpd.background order state.socketFD state.tcpd event with
    | .error stop => .error stop
    | .ok (tcpd, emitted) => .ok ({ state with tcpd }, emitted)
  | .recvAck malloc now =>
    if state.socketFD ∈ state.tcpd.sender.connectedSockets.keys then
      match state.socket.queue with
      | [] => .error .waiting
      | datagram :: queue =>
        let ack := TrollAck.ofBytes (malloc.receive datagram.bytes).bytes
        match Tcpd.act order state.tcpd (.sender (.ack state.socketFD ack now)) with
        | .error stop => .error stop
        | .ok (tcpd, emitted) =>
          .ok ({ state with tcpd, socket := { state.socket with queue } }, emitted)
    else
      .error (.tcpd .blocked)
  | .front env =>
    if state.tcpd.sender.Ready then
      match fetchCall env state.socket with
      | .error stop => .error stop
      | .ok (none, socket) => .ok ({ state with socket }, [])
      | .ok (some call, socket) =>
        match Tcpd.act order state.tcpd call.event with
        | .error stop => .error stop
        | .ok (tcpd, emitted) => .ok ({ state with tcpd, socket }, emitted)
    else
      .error (.tcpd .blocked)

end Daemon

end NetworkProj
