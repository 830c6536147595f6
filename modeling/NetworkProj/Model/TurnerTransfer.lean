import NetworkProj.Shared.LossyQueue
import NetworkProj.Model.Header
import NetworkProj.Model.TurnerTcpd

set_option autoImplicit false

/-!
# `Turner/ftpc.c` and `Turner/ftps.c` over the two `tcpd`

One file. The troll writes the address of a datagram anew and may lose it. Neither the calls on
files nor those on sockets fail; `CONNECT` and `ACCEPT` do nothing.
-/

namespace NetworkProj.Turner

section Client

def titleLen : Nat := 20

inductive FtpcPoint where
  | fileSize
  | title
  | body (position : Nat)
  | exited
deriving DecidableEq

/-- `argv` has the bytes from `argv[1]` on. -/
structure Ftpc where
  file : List UInt8
  argv : Block titleLen
  point : FtpcPoint

-- `htonl(file_size)`, where `ftell` has given an `int`.
def sizeBytes (file : List UInt8) : List UInt8 :=
  let fileSize := UInt32.ofNat file.length
  [(fileSize >>> 24).toUInt8, (fileSize >>> 16).toUInt8, (fileSize >>> 8).toUInt8, fileSize.toUInt8]

def Ftpc.sending (ftpc : Ftpc) : Option (List UInt8 × Ftpc) :=
  match ftpc.point with
  | .fileSize => some (sizeBytes ftpc.file, { ftpc with point := .title })
  | .title => some (ftpc.argv.bytes, { ftpc with point := .body 0 })
  | .body position =>
    let read := (ftpc.file.drop position).take mesgLen
    -- `feof` holds once a read has come short.
    some (read, { ftpc with
      point := if read.length < mesgLen then .exited else .body (position + read.length) })
  | .exited => none

-- `mesg` is what the daemon's `pack` has in it before.
def sendPacket (mesg : Block mesgLen) (data : List UInt8) : Packet where
  sender := 1
  len := Int32.ofNat data.length
  mesg := mesg.receive data

end Client

section Server

inductive FtpsPoint where
  | fileSize
  | title (convertedSize : Int32)
  | body (file : List UInt8) (convertedSize : Int32) (bytes : Nat)
  | exited (file : List UInt8)
deriving DecidableEq

structure Ftps where
  size : Block 4
  title : Block titleLen
  point : FtpsPoint
  written : List UInt8

def FtpsPoint.len : FtpsPoint → Option Int32
  | .fileSize => some 4
  | .title _ => some 20
  | .body .. => some 1000
  | .exited _ => none

-- `while(bytes<convertedSize)`, and what follows it.
def FtpsPoint.loop (file : List UInt8) (convertedSize : Int32) (bytes : Nat) : FtpsPoint :=
  if (bytes : Int) < convertedSize.toInt then .body file convertedSize bytes else .exited file

-- RECV returns, and the program runs to its next one.
def Ftps.received (ftps : Ftps) (data : List UInt8) : Except Stop Ftps :=
  match ftps.point with
  | .fileSize =>
    let size := ftps.size.receive data
    let convertedSize := word32 (size.bytes.getD 0 0) (size.bytes.getD 1 0) (size.bytes.getD 2 0)
      (size.bytes.getD 3 0)
    .ok { ftps with size, point := .title convertedSize.toInt32 }
  | .title convertedSize =>
    let title := ftps.title.receive data
    -- `sprintf` runs past the end of a title without a zero.
    if 0 ∈ title.bytes then
      .ok { ftps with title, point := .loop (title.bytes.takeWhile (· ≠ 0)) convertedSize 0 }
    else
      .error .fault
  | .body file convertedSize bytes =>
    if intMax < bytes + data.length then
      .error .fault
    else
      .ok { ftps with
        point := .loop file convertedSize (bytes + data.length)
        written := ftps.written ++ data }
  | .exited _ => .error .blocked

def recvPacket (mesg : Block mesgLen) (len : Int32) : Packet where
  sender := 2
  len
  mesg

end Server

section System

structure FileTransfer where
  link : Link
  ftpc : Ftpc
  wire : List (List UInt8)
  ftps : Ftps

inductive FileTransferEvent where
  | send (mesg : Block mesgLen)
  | lose (index : Nat)
  | recv (mesg : Block mesgLen) (header : Block sizeofSockaddr)

abbrev FileTransferEffect : Type := LossyQueue.Effect (List UInt8)

def TcpdEffect.toTroll? : TcpdEffect → Option (List UInt8)
  | .toTroll datagram => some datagram
  | .checked .. | .toServer _ => none

def TcpdEffect.toServer? : TcpdEffect → Option (List UInt8)
  | .toServer body => some body
  | .checked .. | .toTroll _ => none

-- No `struct` and no array of the programs is initialised.
def FileTransfer.initial (link : Link) (file : List UInt8) (argv : Block titleLen) (size : Block 4)
    (title : Block titleLen) : FileTransfer where
  link
  ftpc := { file, argv, point := .fileSize }
  wire := []
  ftps := { size, title, point := .fileSize, written := [] }

def FileTransfer.step (order : ByteOrder) :
    Machine.Step FileTransfer FileTransferEvent FileTransferEffect Stop := fun state event =>
  match event with
  | .send mesg =>
    match state.ftpc.sending with
    | none => .error .blocked
    | some (data, ftpc) =>
      match Link.step order state.link (.client (sendPacket mesg data)) with
      | .error _ => .error .fault
      | .ok (link, effects) =>
        .ok ({ state with link, ftpc, wire := state.wire ++ effects.filterMap TcpdEffect.toTroll? },
          (effects.filterMap TcpdEffect.toTroll?).map .sent)
  | .lose index =>
    match state.wire[index]? with
    | none => .error .blocked
    | some datagram => .ok ({ state with wire := state.wire.eraseIdx index }, [.lost datagram])
  | .recv mesg header =>
    match state.ftps.point.len, state.wire with
    | some len, datagram :: rest =>
      match Link.step order state.link
          (.server (recvPacket mesg len) (header.bytes ++ datagram.drop sizeofSockaddr)) with
      | .error _ => .error .fault
      | .ok (link, effects) =>
        match effects.findSome? TcpdEffect.toServer? with
        | none => .error .blocked
        | some body =>
          match state.ftps.received (body.take len.toInt.toNat) with
          | .error stop => .error stop
          | .ok ftps => .ok ({ state with link, wire := rest, ftps }, [.received datagram])
    | _, _ => .error .blocked

end System

end NetworkProj.Turner
