import NetworkProj.Shared.Machine
import NetworkProj.Shared.Loop
import NetworkProj.Shared.Table
import NetworkProj.Model.Header

set_option autoImplicit false

namespace NetworkProj

structure BindedSocket where
  socketFD : Int32
  accepting : Bool
  acceptingAddr : SockAddr

structure AcceptedSocket where
  socketFD : Int32
  session : UInt32
  base : UInt32
  receivingLength : UInt64
  receivingAddr : SockAddr
  packages : List TrollMessage
  recvBuffer : Block bufLen
  recvBufferSize : UInt64
deriving Inhabited

structure Receiver where
  bindedSockets : List BindedSocket
  acceptedSockets : Table UInt32 AcceptedSocket
  waitingAcceptSocketsList : List AcceptedSocket

inductive ReceiverEvent where
  | bind (front : SockAddr) (sockfd : Int32) (granted : Bool)
  | accept (front : SockAddr) (sockfd : Int32)
  | recv (front : SockAddr) (sockfd : Int32) (len : UInt64)
  | data (sockfd : Int32) (message : TrollMessage) (remoteTroll : SockAddr) (malloc : AcceptedSocket)
  | solveAccept
  | solveRecv

/-- The datagrams sent, and the packages freed after their bytes were copied out. The first
argument of the answers to ACCEPT and RECV says which socket or session is answered. -/
inductive ReceiverEffect where
  | bindReturn (addr : SockAddr) (value : Int32)
  | acceptReturn (sockfd : Int32) (addr : SockAddr) (session : UInt32)
  | acceptError (sockfd : Int32) (addr : SockAddr) (value : Int32)
  | recvReturn (session : UInt32) (addr : SockAddr) (data : List UInt8)
  | recvError (addr : SockAddr) (value : Int32)
  | ack (sockfd : Int32) (ack : TrollAck)
  | free (session : UInt32) (message : TrollMessage)

def Receiver.initial : Receiver where
  bindedSockets := []
  acceptedSockets := .empty
  waitingAcceptSocketsList := []

section FrontCalls

-- The operating system refuses to bind a socket twice; any failure of `bind` ends the daemon.
def tcpdBind (state : Receiver) (front : SockAddr) (sockfd : Int32) (granted : Bool) :
    Except Stop (Receiver × List ReceiverEffect) :=
  if state.bindedSockets.any (fun tmp => tmp.socketFD == sockfd) || !granted then
    .error (.exit 2)
  else
    .ok ({ state with
        bindedSockets := state.bindedSockets ++
          [{ socketFD := sockfd, accepting := false, acceptingAddr := default }] },
      [.bindReturn front 0])

-- The loop of `tcpd_ACCEPT`, with the `AcceptResult` so far.
def requestAccept (front : SockAddr) (sockfd : Int32) (acceptResult : Int32) :
    List BindedSocket → Int32 × List BindedSocket
  | [] => (acceptResult, [])
  | tmp :: rest =>
    if tmp.socketFD ≠ sockfd then
      let (result, sockets) := requestAccept front sockfd acceptResult rest
      (result, tmp :: sockets)
    else if tmp.accepting then
      (-2, tmp :: rest)
    else
      let (result, sockets) := requestAccept front sockfd 0 rest
      (result, { tmp with accepting := true, acceptingAddr := front } :: sockets)

def tcpdAccept (state : Receiver) (front : SockAddr) (sockfd : Int32) :
    Receiver × List ReceiverEffect :=
  let (acceptResult, sockets) := requestAccept front sockfd (-1) state.bindedSockets
  ({ state with bindedSockets := sockets },
    if acceptResult ≠ 0 then [.acceptError sockfd front (-1)] else [])

def tcpdRecv (state : Receiver) (front : SockAddr) (sockfd : Int32) (len : UInt64) :
    Receiver × List ReceiverEffect :=
  if len = 0 then
    (state, [.recvError front 0])
  else
    let session := sockfd.toUInt32
    match state.acceptedSockets.find session with
    | none => (state, [.recvError front (-2)])
    | some now =>
      if now.receivingLength ≠ 0 then
        (state, [.recvError front (-3)])
      else
        ({ state with
          acceptedSockets := state.acceptedSockets.insert session
            { now with receivingLength := len, receivingAddr := front } }, [])

end FrontCalls

section RecvData

-- Search the position of a package; no answer for a duplicate.
def insertPackage (now : TrollMessage) : List TrollMessage → Option (List TrollMessage)
  | [] => some [now]
  | tmp :: rest =>
    if tmp.seqNum = now.seqNum then none
    else if tmp.seqNum > now.seqNum then some (now :: tmp :: rest)
    else (insertPackage now rest).map (tmp :: ·)

def storePackage (sock : AcceptedSocket) (now : TrollMessage) : AcceptedSocket :=
  -- An outdated package is not inserted, whatever the search finds.
  if sock.base > now.seqNum then sock
  else
    match insertPackage now sock.packages with
    | none => sock
    | some packages => { sock with packages }

-- The fields that `RecvData` sets in a fresh record; the others keep what `malloc` left there.
def newSocket (malloc : AcceptedSocket) (sockfd : Int32) (session : UInt32) : AcceptedSocket :=
  { malloc with
    socketFD := sockfd
    session := session
    base := 0
    packages := []
    receivingLength := 0
    recvBufferSize := 0 }

-- Update the first waiting record of a session in place.
def storeWaiting (now : TrollMessage) : List AcceptedSocket → List AcceptedSocket
  | [] => []
  | sock :: rest =>
    if sock.session = now.session then storePackage sock now :: rest
    else sock :: storeWaiting now rest

def ackOf (now : TrollMessage) (remoteTroll : SockAddr) : TrollAck :=
  TrollAck.sealed
    { header := { now.header with sinFamily := htonsAfInet, sinAddr := remoteTroll.sinAddr }
      checkSum := 0
      session := now.session
      seqNum := now.seqNum }

def storeData (state : Receiver) (sockfd : Int32) (now : TrollMessage) (malloc : AcceptedSocket) :
    Receiver :=
  match state.acceptedSockets.find now.session with
  | some sock =>
    { state with acceptedSockets := state.acceptedSockets.insert now.session (storePackage sock now) }
  | none =>
    if state.waitingAcceptSocketsList.any (fun sock => sock.session == now.session) then
      { state with waitingAcceptSocketsList := storeWaiting now state.waitingAcceptSocketsList }
    else
      { state with
        waitingAcceptSocketsList := state.waitingAcceptSocketsList ++
          [storePackage (newSocket malloc sockfd now.session) now] }

-- `RecvData` on a bound socket, from the checksum test on.
def recvData (state : Receiver) (sockfd : Int32) (now : TrollMessage) (remoteTroll : SockAddr)
    (malloc : AcceptedSocket) : Receiver × List ReceiverEffect :=
  if now.Intact then
    (storeData state sockfd now malloc, [.ack sockfd (ackOf now remoteTroll)])
  else
    (state, [])

end RecvData

section SolveAcceptCallback

-- The loop of `SolveAcceptCallback` over the bound sockets.
def acceptWaiting : List BindedSocket → Table UInt32 AcceptedSocket → List AcceptedSocket →
    List BindedSocket × Table UInt32 AcceptedSocket × List AcceptedSocket × List ReceiverEffect
  | [], accepted, waiting => ([], accepted, waiting, [])
  | tmp :: rest, accepted, waiting =>
    match if tmp.accepting then waiting.find? (fun sock => sock.socketFD == tmp.socketFD) else none with
    | none =>
      let (sockets, accepted, waiting, effects) := acceptWaiting rest accepted waiting
      (tmp :: sockets, accepted, waiting, effects)
    | some sock =>
      let (sockets, accepted, waiting, effects) :=
        acceptWaiting rest (accepted.insert sock.session sock)
          (waiting.eraseP (fun sock => sock.socketFD == tmp.socketFD))
      ({ tmp with accepting := false } :: sockets, accepted, waiting,
        .acceptReturn tmp.socketFD tmp.acceptingAddr sock.session :: effects)

def solveAcceptCallback (state : Receiver) : Receiver × List ReceiverEffect :=
  if state.waitingAcceptSocketsList.isEmpty then
    (state, [])
  else
    let (sockets, accepted, waiting, effects) :=
      acceptWaiting state.bindedSockets state.acceptedSockets state.waitingAcceptSocketsList
    ({ bindedSockets := sockets, acceptedSockets := accepted, waitingAcceptSocketsList := waiting },
      effects)

end SolveAcceptCallback

section SolveRecvCallback

-- The copy loop of `SolveRecvCallback`: its condition, its two breaks and its two branches.
def copyBody (session : UInt32) : Loop.Body AcceptedSocket ReceiverEffect Stop := fun sock =>
  if sock.recvBufferSize < sock.receivingLength then
    match sock.packages with
    | [] => .ok none
    | now :: rest =>
      if now.seqNum ≠ sock.base then
        .ok none
      else if sock.recvBufferSize + now.len ≤ sock.receivingLength then
        match now.body.bcopy 0 sock.recvBuffer sock.recvBufferSize.toNat now.len.toNat with
        | none => .error .fault
        | some recvBuffer =>
          .ok (some ({ sock with
            recvBuffer
            recvBufferSize := sock.recvBufferSize + now.len
            packages := rest
            base := sock.base + 1 }, [.free session now]))
      else
        let remainSize := sock.receivingLength - sock.recvBufferSize
        match now.body.bcopy 0 sock.recvBuffer sock.recvBufferSize.toNat remainSize.toNat,
            now.body.bcopy remainSize.toNat now.body 0 (now.len - remainSize).toNat with
        | some recvBuffer, some body =>
          -- The source does not add `remainSize` to `RecvBufferSize` here.
          .ok (some ({ sock with
            recvBuffer
            packages := { now with body, len := now.len - remainSize } :: rest }, []))
        | _, _ => .error .fault
  else
    .ok none

-- Each pass of the copy loop removes a package or shortens one.
def copyVariant (sock : AcceptedSocket) : Nat :=
  (sock.packages.map fun now => now.len.toNat + 1).sum

def copyLoop (session : UInt32) (sock : AcceptedSocket) :
    Except Stop (AcceptedSocket × List ReceiverEffect) :=
  Loop.run (copyBody session) (copyVariant sock + 1) sock

-- The body of the iteration of `SolveRecvCallback`.
def solveRecvSocket (session : UInt32) (sock : AcceptedSocket) :
    Except Stop (AcceptedSocket × List ReceiverEffect) :=
  if sock.receivingLength > 0 then
    if sock.receivingLength.toNat > bufLen then
      .error (.exit 5)
    else
      match copyLoop session sock with
      | .error stop => .error stop
      | .ok (sock, freed) =>
        if sock.recvBufferSize = sock.receivingLength then
          .ok ({ sock with recvBufferSize := 0, receivingLength := 0 },
            freed ++ [.recvReturn session sock.receivingAddr
              (sock.recvBuffer.take sock.recvBufferSize.toNat)])
        else
          .ok (sock, freed)
  else
    .ok (sock, [])

def solveRecvCallback (order : IterOrder UInt32) (state : Receiver) :
    Except Stop (Receiver × List ReceiverEffect) :=
  match Table.sweep (fun (_ : Unit) session sock =>
      match solveRecvSocket session sock with
      | .error stop => .error stop
      | .ok (sock, effects) => .ok ((), sock, effects))
      (order.visit state.acceptedSockets.keys) () state.acceptedSockets with
  | .error stop => .error stop
  | .ok (_, acceptedSockets, effects) => .ok ({ state with acceptedSockets }, effects)

end SolveRecvCallback

-- One event of the receiving half. `RecvData` runs only on bound sockets.
def Receiver.step (order : IterOrder UInt32) :
    Machine.Step Receiver ReceiverEvent ReceiverEffect Stop := fun state event =>
  match event with
  | .bind front sockfd granted => tcpdBind state front sockfd granted
  | .accept front sockfd => .ok (tcpdAccept state front sockfd)
  | .recv front sockfd len => .ok (tcpdRecv state front sockfd len)
  | .data sockfd message remoteTroll malloc =>
    if state.bindedSockets.any (fun tmp => tmp.socketFD == sockfd) then
      .ok (recvData state sockfd message remoteTroll malloc)
    else
      .error .blocked
  | .solveAccept => .ok (solveAcceptCallback state)
  | .solveRecv => solveRecvCallback order state

end NetworkProj
