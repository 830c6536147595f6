import NetworkProj.Shared.LossyQueue
import NetworkProj.Model.Transfer

set_option autoImplicit false

/-!
# `Lab3`: `ftpc.c` and `ftps.c` over datagrams

The daemons of this laboratory keep nothing: a SEND is one datagram to the troll, a RECV the next
datagram that arrives. One `ftpc` runs after the other, as the daemon takes the arguments of its
calls from any process. Neither the calls on files nor those on sockets fail. `LISTEN` and `CLOSE`
do nothing, and `ACCEPT` returns the socket it is given.
-/

namespace NetworkProj.Lab3

section Daemon

structure TrollMessage where
  header : SockAddr
  body : Block bufLen
deriving DecidableEq

def sockAddrLen : Nat := 16

def trollMessageLen : Nat := sockAddrLen + bufLen

/-- `peer` is what `getpeername` finds, `stack` what `troll_message` has in it before. The answer
is the datagram and the count that the program gets. -/
def tcpdSend (peer : Option SockAddr) (len : Nat) (buf : List UInt8) (stack : Block bufLen) :
    Except Stop (TrollMessage × Int32) :=
  if bufLen < len then
    .error (.exit 5)
  else
    match peer with
    | none => .error (.exit 5)
    | some peerAddr =>
      .ok ({ header := { peerAddr with sinFamily := htonsAfInet }
             body := stack.receive (buf.take len) }, Int32.ofNat trollMessageLen)

def tcpdRecv (len : Nat) (message : TrollMessage) : Except Stop (List UInt8) :=
  if bufLen < len then
    .error (.exit 5)
  else
    let retRecv := trollMessageLen - sockAddrLen
    .ok (message.body.take (if len > retRecv then retRecv else len))

end Daemon

section Client

structure Ftpc extends NetworkProj.Ftpc where
  buf : Block bufLen
  peer : Option SockAddr

def Ftpc.sending (ftpc : Ftpc) : Option (Nat × Block bufLen) :=
  match ftpc.point with
  | .fileSize =>
    some (4, ftpc.buf.receive [(ftpc.fileSize >>> 24).toUInt8, (ftpc.fileSize >>> 16).toUInt8,
      (ftpc.fileSize >>> 8).toUInt8, ftpc.fileSize.toUInt8])
  | .fileName => some (20, Block.pad bufLen ftpc.fileName)
  -- A short last block leaves the bytes of the one before behind it.
  | .body _ position => some (bufLen, ftpc.buf.receive (ftpc.fread position))
  | .connect | .exited _ => none

def Ftpc.running (ftpc : Ftpc) : Bool :=
  match ftpc.point with
  | .exited _ => false
  | .connect | .fileSize | .fileName | .body _ _ => true

end Client

section Server

inductive FtpsPoint where
  | fileSize
  | fileName (fileSize : UInt32)
  | body (fileName : List UInt8) (fileLeft : UInt32) (written : List UInt8)
deriving DecidableEq

structure Ftps where
  bufIn : Block bufLen
  point : FtpsPoint

abbrev File : Type := List UInt8 × List UInt8

def FtpsPoint.len : FtpsPoint → Nat
  | .fileSize => 4
  | .fileName _ => 20
  | .body .. => bufLen

-- `while(file_left)`; behind it the file is closed and the next ACCEPT returns at once.
def Ftps.loop (bufIn : Block bufLen) (fileName : List UInt8) (fileLeft : UInt32)
    (written : List UInt8) : Ftps × Option File :=
  if fileLeft = 0 then
    ({ bufIn := .fill bufLen 0, point := .fileSize }, some (fileName, written))
  else
    ({ bufIn, point := .body fileName fileLeft written }, none)

-- RECV returns, and the program runs to its next one.
def Ftps.received (ftps : Ftps) (data : List UInt8) : Ftps × Option File :=
  let bufIn := ftps.bufIn.receive data
  match ftps.point with
  | .fileSize =>
    ({ bufIn
       point := .fileName (word32 (bufIn.bytes.getD 0 0) (bufIn.bytes.getD 1 0)
         (bufIn.bytes.getD 2 0) (bufIn.bytes.getD 3 0)) }, none)
  | .fileName fileSize =>
    let bufIn := bufIn.set data.length 0
    Ftps.loop bufIn (bufIn.bytes.takeWhile (· ≠ 0)) fileSize []
  | .body fileName fileLeft written =>
    let rVal := if data.length > fileLeft.toNat then fileLeft.toNat else data.length
    Ftps.loop bufIn fileName (fileLeft - UInt32.ofNat rVal) (written ++ bufIn.take rVal)

end Server

section System

/-- `wire` has what is on its way to the server, `files` those that it has closed. -/
structure Transfers where
  ftpc : Option Ftpc
  wire : List TrollMessage
  ftps : Ftps
  files : List File

inductive TransfersEvent where
  -- What lies in `buf` at the start is not known.
  | start (fileName file : List UInt8) (buf : Block bufLen)
  | connect
  | send (stack : Block bufLen)
  | lose (index : Nat)
  | copy (index : Nat)
  | damage (index : Nat) (message : TrollMessage)
  | recv (index : Nat)

abbrev TransfersEffect : Type := LossyQueue.Effect TrollMessage

def Transfers.initial : Transfers where
  ftpc := none
  wire := []
  ftps := { bufIn := .fill bufLen 0, point := .fileSize }
  files := []

def Transfers.idle (state : Transfers) : Bool :=
  !state.ftpc.any Ftpc.running

def Transfers.step (server : SockAddr) :
    Machine.Step Transfers TransfersEvent TransfersEffect Stop := fun state event =>
  match event with
  | .start fileName file buf =>
    if state.idle then
      .ok ({ state with ftpc := some { fileName, file, point := .connect, buf, peer := none } }, [])
    else .error .blocked
  | .connect =>
    match state.ftpc with
    | none => .error .blocked
    | some ftpc =>
      match ftpc.point with
      | .connect =>
        .ok ({ state with
          ftpc := some { ftpc with toFtpc := ftpc.returned 0, peer := some server } }, [])
      | .fileSize | .fileName | .body .. | .exited _ => .error .blocked
  | .send stack =>
    match state.ftpc with
    | none => .error .blocked
    | some ftpc =>
      match ftpc.sending with
      | none => .error .blocked
      | some (len, buf) =>
        match tcpdSend ftpc.peer len buf.bytes stack with
        | .error stop => .error stop
        | .ok (message, value) =>
          .ok ({ state with
            ftpc := some { ftpc with toFtpc := ftpc.returned value, buf }
            wire := state.wire ++ [message] }, [.sent message])
  | .lose index =>
    match state.wire[index]? with
    | none => .error .blocked
    | some message => .ok ({ state with wire := state.wire.eraseIdx index }, [.lost message])
  | .copy index =>
    match state.wire[index]? with
    | none => .error .blocked
    | some message => .ok ({ state with wire := state.wire ++ [message] }, [])
  | .damage index message =>
    .ok ({ state with wire := state.wire.set index message }, [])
  | .recv index =>
    match state.wire[index]? with
    | none => .error .blocked
    | some message =>
      match tcpdRecv state.ftps.point.len message with
      | .error stop => .error stop
      | .ok data =>
        let (ftps, file) := state.ftps.received data
        .ok ({ state with
          wire := state.wire.eraseIdx index
          ftps
          files := state.files ++ file.toList }, [.received message])

end System

end NetworkProj.Lab3
