import NetworkProj.Shared.Loop
import NetworkProj.Shared.Machine
import NetworkProj.Model.ByteOrder

set_option autoImplicit false

/-!
# `Turner/tcpd.c`

The structures are their bytes: `message` is a `sockaddr_in` of 16 bytes, a `tcphdr`
of 20, whose `check` is at offset 16, and a body of 1000. What the program
prints besides the two check values is left out.
-/

namespace NetworkProj.Turner

section Crc16

def intMax : Nat := 2 ^ 31 - 1

structure Crc16 where
  acc : UInt16
  i : Nat

-- `acc+=ntohs(word)`, and the test below it.
def Crc16.accumulate (acc word : UInt16) : UInt16 :=
  let acc := acc + word
  if acc.toNat > 0xffff then acc - 0xffff else acc

-- The `for` loop over complete blocks; `i` is an `int`, and the program is undefined when it overflows.
def Crc16.block (order : ByteOrder) (data : List UInt8) : Loop.Body Crc16 Empty Unit := fun state =>
  if state.i + 1 < data.length then
    let word := order.word16 (data.getD state.i 0) (data.getD (state.i + 1) 0)
    if state.i + 2 ≤ intMax then
      .ok (some ({ acc := Crc16.accumulate state.acc (order.swap16 word), i := state.i + 2 }, []))
    else
      .error ()
  else
    .ok none

def crc16 (order : ByteOrder) (data : List UInt8) : Option UInt16 :=
  match Loop.run (Crc16.block order data) (data.length + 1) { acc := 0xffff, i := 0 } with
  | .error _ => none
  | .ok (state, _) =>
    let acc :=
      if data.length % 2 = 1 then
        let word := order.word16 (data.getD (data.length - 1) 0) 0
        Crc16.accumulate state.acc (order.swap16 word)
      else
        state.acc
    some (order.swap16 (~~~ acc))

end Crc16

section Tcpd

def sizeofSockaddr : Nat := 16
def sizeofTcphdr : Nat := 20
def mesgLen : Nat := 1000

-- `struct packet`, as `recvfrom` has left it.
structure Packet where
  sender : Int32
  len : Int32
  mesg : Block mesgLen

-- An `int` as a `size_t`.
def toSize (len : Int32) : UInt64 :=
  len.toInt64.toUInt64

structure Tcpd where
  message : Block (sizeofSockaddr + sizeofTcphdr + mesgLen)
  chksum : Block (sizeofTcphdr + mesgLen)

inductive TcpdEffect where
  | toTroll (datagram : List UInt8)
  | checked (test check : UInt16)
  | toServer (body : List UInt8)
deriving DecidableEq

-- `sin_family`, `sin_port` and `sin_addr` of the server, in network byte order.
def serverAddress : List UInt8 :=
  [0, 2, 0x1F, 0x4A, 164, 107, 113, 10]

def checkOffset : Nat := sizeofSockaddr + 16

def Tcpd.check (order : ByteOrder) (tcpd : Tcpd) : UInt16 :=
  order.word16 (tcpd.message.bytes.getD checkOffset 0) (tcpd.message.bytes.getD (checkOffset + 1) 0)

def Tcpd.setCheck (order : ByteOrder) (tcpd : Tcpd) (check : UInt16) : Tcpd :=
  { tcpd with
    message := tcpd.message.write checkOffset (order.bytes16 check) (by
      rw [order.length_bytes16]
      decide) }

-- `chksum.head=message.tcpHeader; memcpy(chksum.body,message.body,len)`.
def Tcpd.copyChksum (tcpd : Tcpd) (len : Nat) : Option Tcpd := do
  let chksum ← tcpd.message.bcopy sizeofSockaddr tcpd.chksum 0 sizeofTcphdr
  let chksum ← tcpd.message.bcopy (sizeofSockaddr + sizeofTcphdr) chksum sizeofTcphdr len
  return { tcpd with chksum }

-- The check field is cleared, and takes the checksum over `chksum`.
def Tcpd.computeCheck (order : ByteOrder) (tcpd : Tcpd) (len : Nat) : Option Tcpd := do
  let tcpd := tcpd.setCheck order 0
  let check ← crc16 order (tcpd.chksum.take (sizeofTcphdr + len))
  return tcpd.setCheck order check

def Tcpd.fromClient (order : ByteOrder) (tcpd : Tcpd) (pack : Packet) :
    Option (Tcpd × List TcpdEffect) := do
  let message := tcpd.message.write 0 serverAddress (by decide)
  let message ← pack.mesg.bcopy 0 message (sizeofSockaddr + sizeofTcphdr) (toSize pack.len).toNat
  let tcpd := { tcpd with message }
  let tcpd ← tcpd.copyChksum (toSize pack.len).toNat
  let tcpd ← tcpd.computeCheck order (toSize pack.len).toNat
  return (tcpd, [.toTroll
    (tcpd.message.take (sizeofSockaddr + sizeofTcphdr + (toSize pack.len).toNat))])

-- `recvfrom` into `message` cuts a longer datagram off.
def Tcpd.fromServer (order : ByteOrder) (tcpd : Tcpd) (pack : Packet) (datagram : List UInt8) :
    Option (Tcpd × List TcpdEffect) := do
  let received := datagram.take
    (UInt64.ofNat (sizeofSockaddr + sizeofTcphdr) + toSize pack.len).toNat
  if received.length ≤ sizeofSockaddr + sizeofTcphdr + mesgLen ∧
      sizeofSockaddr + sizeofTcphdr ≤ received.length then
    let read := received.length - sizeofSockaddr - sizeofTcphdr
    let tcpd := { tcpd with message := tcpd.message.receive received }
    let tcpd ← tcpd.copyChksum read
    let test := tcpd.check order
    let tcpd ← tcpd.computeCheck order read
    return (tcpd, [.checked test (tcpd.check order),
      .toServer ((tcpd.message.bytes.drop (sizeofSockaddr + sizeofTcphdr)).take read)])
  else
    none

/-- One pass of the main loop; `datagram` is what a `recvfrom` from the troll would return. -/
def Tcpd.step (order : ByteOrder) :
    Machine.Step Tcpd (Packet × List UInt8) TcpdEffect Unit := fun tcpd (pack, datagram) =>
  let outcome :=
    if pack.sender = 1 then tcpd.fromClient order pack
    else if pack.sender = 2 then tcpd.fromServer order pack datagram
    else some (tcpd, [])
  match outcome with
  | none => .error ()
  | some result => .ok result

end Tcpd

section Link

/-- The client's `tcpd` and the server's. The troll between them delivers any datagram: one that was
sent, late, twice or never, or one that it made. -/
structure Link where
  client : Tcpd
  server : Tcpd

inductive LinkEvent where
  | client (pack : Packet)
  | server (request : Packet) (datagram : List UInt8)

def Link.step (order : ByteOrder) : Machine.Step Link LinkEvent TcpdEffect Unit := fun link event =>
  match event with
  | .client pack =>
    match Tcpd.step order link.client (pack, []) with
    | .error stop => .error stop
    | .ok (client, effects) => .ok ({ link with client }, effects)
  | .server request datagram =>
    match Tcpd.step order link.server (request, datagram) with
    | .error stop => .error stop
    | .ok (server, effects) => .ok ({ link with server }, effects)

end Link

end NetworkProj.Turner
