import NetworkProj.Model.Transport
import NetworkProj.Model.Tcpudp

set_option autoImplicit false

/-!
# `ftpc.c` and `ftps.c` over the two daemons

Any number of `ftpc` processes on the client's machine, one `ftps` on the server's.
A file is its bytes: `stat`, `fopen`, `fread` and `fwrite` do not fail and nothing
else writes to it. `CLOSE` does nothing.
-/

namespace NetworkProj

section Client

inductive FtpcPoint where
  | connect
  | fileSize
  | fileName
  | body (fileLeft : UInt64) (position : Nat)
  | exited (code : Nat)

structure Ftpc where
  fileName : List UInt8
  file : List UInt8
  point : FtpcPoint

def Ftpc.fileSize (ftpc : Ftpc) : UInt64 :=
  UInt64.ofNat ftpc.file.length

def Ftpc.fread (ftpc : Ftpc) (position : Nat) : List UInt8 :=
  (ftpc.file.drop position).take bufLen

-- `r_val`, after the test for the last turn.
def Ftpc.rVal (ftpc : Ftpc) (fileLeft : UInt64) (position : Nat) : Nat :=
  if (ftpc.fread position).length > fileLeft.toNat then fileLeft.toNat
  else (ftpc.fread position).length

def Ftpc.message (ftpc : Ftpc) : Option (List UInt8) :=
  match ftpc.point with
  | .fileSize =>
    some [(ftpc.fileSize >>> 24).toUInt8, (ftpc.fileSize >>> 16).toUInt8,
      (ftpc.fileSize >>> 8).toUInt8, ftpc.fileSize.toUInt8]
  | .fileName => some ((Block.pad bufLen ftpc.fileName).take 20)
  | .body fileLeft position => some ((ftpc.fread position).take (ftpc.rVal fileLeft position))
  | .connect | .exited _ => none

def Ftpc.loop (fileLeft : UInt64) (position : Nat) : FtpcPoint :=
  if fileLeft = 0 then .exited 0 else .body fileLeft position

-- The program goes on with the value that CONNECT or SEND has returned.
def Ftpc.returned (ftpc : Ftpc) (value : Int32) : Ftpc :=
  if value < 0 then
    { ftpc with point := .exited 1 }
  else
    match ftpc.point with
    | .connect => { ftpc with point := .fileSize }
    | .fileSize => { ftpc with point := .fileName }
    | .fileName => { ftpc with point := Ftpc.loop ftpc.fileSize 0 }
    | .body fileLeft position =>
      { ftpc with
        point := Ftpc.loop (fileLeft - UInt64.ofNat (ftpc.rVal fileLeft position))
          (position + (ftpc.fread position).length) }
    | .exited _ => ftpc

-- The daemon answers CONNECT and SEND at once, with `sizeof(int)` bytes.
def SenderEffect.value? : SenderEffect → Option Int32
  | .connectReturn _ value => some value
  | .sendReturn _ value => some value.toUInt32.toInt32
  | _ => none

end Client

section Server

inductive FtpsPoint where
  | bind
  | accept
  | fileSize (sockClient : Int32)
  | fileName (sockClient : Int32) (fileSize : UInt32)
  | body (sockClient : Int32) (fileSize fileLeft : UInt32)
  | exited (code : Nat)
deriving DecidableEq

/-- `addr` is where the daemon sends its answers; `waiting` says that the call at `point` is made and
not yet answered. -/
structure Ftps where
  addr : SockAddr
  sock : Int32
  bufIn : Block bufLen
  point : FtpsPoint
  waiting : Bool

inductive FtpsEffect where
  | opened (sockClient : Int32) (fileSize : UInt32) (fileName : List UInt8)
  | wrote (sockClient : Int32) (data : List UInt8)
  | closed (sockClient : Int32)

def FtpsPoint.recv? : FtpsPoint → Option (Int32 × Nat)
  | .fileSize sockClient => some (sockClient, 4)
  | .fileName sockClient _ => some (sockClient, 20)
  | .body sockClient _ fileLeft =>
    some (sockClient, if fileLeft.toNat < bufLen then fileLeft.toNat else bufLen)
  | .bind | .accept | .exited _ => none

def Ftps.makes (ftps : Ftps) : ReceiverEvent → Bool
  | .bind front sockfd _ =>
    !ftps.waiting && ftps.point == .bind && front == ftps.addr && sockfd == ftps.sock
  | .accept front sockfd =>
    !ftps.waiting && ftps.point == .accept && front == ftps.addr && sockfd == ftps.sock
  | .recv front sockfd len =>
    !ftps.waiting && ftps.point.recv? == some (sockfd, len.toNat) && front == ftps.addr
  | .data .. | .solveAccept | .solveRecv => false

def Ftps.loop (ftps : Ftps) (sockClient : Int32) (fileSize fileLeft : UInt32) :
    Ftps × List FtpsEffect :=
  if fileLeft = 0 then
    ({ ftps with point := .accept, waiting := false }, [.closed sockClient])
  else
    ({ ftps with point := .body sockClient fileSize fileLeft, waiting := false }, [])

-- `recvfrom` returns with a datagram, and the program runs to its next call.
def Ftps.received (ftps : Ftps) (datagram : List UInt8) : Ftps × List FtpsEffect :=
  match ftps.point with
  | .bind =>
    ({ ftps with
      point := if (ofBytes32 datagram).toInt32 < 0 then .exited 1 else .accept
      waiting := false }, [])
  | .accept =>
    if (ofBytes32 datagram).toInt32 = -1 then
      ({ ftps with point := .exited 1, waiting := false }, [])
    else
      ({ ftps with
        bufIn := .fill bufLen 0
        point := .fileSize (ofBytes32 datagram).toInt32
        waiting := false }, [])
  | .fileSize sockClient =>
    let bufIn := ftps.bufIn.receive (datagram.take 4)
    let fileSize := word32 (bufIn.bytes.getD 0 0) (bufIn.bytes.getD 1 0) (bufIn.bytes.getD 2 0)
      (bufIn.bytes.getD 3 0)
    ({ ftps with bufIn, point := .fileName sockClient fileSize, waiting := false }, [])
  | .fileName sockClient fileSize =>
    let data := datagram.take 20
    let bufIn := (ftps.bufIn.receive data).set data.length 0
    let (ftps, effects) := { ftps with bufIn }.loop sockClient fileSize fileSize
    (ftps, .opened sockClient fileSize (bufIn.bytes.takeWhile (· ≠ 0)) :: effects)
  | .body sockClient fileSize fileLeft =>
    let data := datagram.take (if fileLeft.toNat < bufLen then fileLeft.toNat else bufLen)
    let bufIn := ftps.bufIn.receive data
    let rVal := if data.length > fileLeft.toNat then fileLeft.toNat else data.length
    let (ftps, effects) :=
      { ftps with bufIn }.loop sockClient fileSize (fileLeft - UInt32.ofNat rVal)
    (ftps, .wrote sockClient (bufIn.take rVal) :: effects)
  | .exited _ => (ftps, [])

end Server

section Composition

structure Transfer where
  ftpcs : Table Int32 Ftpc
  transport : Transport
  ftps : Ftps
  inbox : List (List UInt8)

/-- Each `ftpc` is known by the socket that SOCKET has given it. -/
inductive TransferEvent where
  | start (sockfd : Int32) (fileName file : List UInt8)
  | client (event : SenderEvent)
  | server (event : ReceiverEvent)
  | read

inductive TransferEffect where
  | transport (effect : TransportEffect)
  | ftps (effect : FtpsEffect)

def Transfer.initial (addr : SockAddr) (sock : Int32) : Transfer where
  ftpcs := .empty
  transport := .initial
  ftps := { addr, sock, bufIn := .fill bufLen 0, point := .bind, waiting := false }
  inbox := []

/-- The `ftpc` processes when the client's daemon has taken an event; no answer to a call that none
of them makes. -/
def Transfer.called (ftpcs : Table Int32 Ftpc) (emitted : List SenderEffect) :
    SenderEvent → Option (Table Int32 Ftpc)
  | .connect _ sockfd _ _ =>
    match ftpcs.find sockfd with
    | some ftpc =>
      match ftpc.point with
      | .connect => some (returned sockfd ftpc)
      | _ => none
    | none => none
  | .send _ sockfd len buf _ =>
    match ftpcs.find sockfd with
    | some ftpc =>
      match ftpc.message with
      | some data =>
        if len.toNat = data.length ∧ buf.take len.toNat = data then some (returned sockfd ftpc)
        else none
      | none => none
    | none => none
  | .ack .. | .expired _ | .solveSend _ => some ftpcs
where
  returned (sockfd : Int32) (ftpc : Ftpc) : Table Int32 Ftpc :=
    match emitted.findSome? SenderEffect.value? with
    | some value => ftpcs.insert sockfd (ftpc.returned value)
    | none => ftpcs

-- `ftps` when it has made its call, or when its daemon works on its own.
def Ftps.called (ftps : Ftps) (event : ReceiverEvent) : Option Ftps :=
  match event with
  | .data .. | .solveAccept | .solveRecv => some ftps
  | .bind .. | .accept .. | .recv .. =>
    if ftps.makes event then some { ftps with waiting := true } else none

def Transfer.step (order : TcpdOrder) :
    Machine.Step Transfer TransferEvent TransferEffect Stop := fun state event =>
  match event with
  | .start sockfd fileName file =>
    match state.ftpcs.find sockfd with
    | some _ => .error .blocked
    | none =>
      .ok ({ state with
        ftpcs := state.ftpcs.insert sockfd { fileName, file, point := .connect } }, [])
  | .client event =>
    match Transport.step order state.transport (.client event) with
    | .error stop => .error stop
    | .ok (transport, emitted) =>
      match Transfer.called state.ftpcs (emitted.filterMap Transport.clientEffect) event with
      | none => .error .blocked
      | some ftpcs => .ok ({ state with ftpcs, transport }, emitted.map .transport)
  | .server event =>
    match state.ftps.called event, Transport.step order state.transport (.server event) with
    | some ftps, .ok (transport, emitted) =>
      .ok ({ state with
          ftps
          transport
          inbox := state.inbox ++ (emitted.filterMap Transport.serverEffect).filterMap
            (ReceiverEffect.datagram? ftps.addr) },
        emitted.map .transport)
    | _, .error stop => .error stop
    | none, _ => .error .blocked
  | .read =>
    match state.ftps.waiting, state.inbox with
    | true, datagram :: rest =>
      let (ftps, effects) := state.ftps.received datagram
      .ok ({ state with ftps, inbox := rest }, effects.map .ftps)
    | _, _ => .error .blocked

end Composition

end NetworkProj
