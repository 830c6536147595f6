import NetworkProj.Model.Tcpd

set_option autoImplicit false

namespace NetworkProj

section Calls

inductive CallName where
  | socket
  | bind
  | accept
  | recv
  | connect
  | send
deriving DecidableEq

def CallName.text : CallName → List UInt8
  | .socket => ['S', 'O', 'C', 'K', 'E', 'T'].map Char.toUInt8
  | .bind => ['B', 'I', 'N', 'D'].map Char.toUInt8
  | .accept => ['A', 'C', 'C', 'E', 'P', 'T'].map Char.toUInt8
  | .recv => ['R', 'E', 'C', 'V'].map Char.toUInt8
  | .connect => ['C', 'O', 'N', 'N', 'E', 'C', 'T'].map Char.toUInt8
  | .send => ['S', 'E', 'N', 'D'].map Char.toUInt8

-- `char tcpd_msg[TCPD_MSG_LEN]`, initialised with the name.
def CallName.tcpdMsg (name : CallName) : Block tcpdMsgLen :=
  .pad tcpdMsgLen name.text

/-- A call with the arguments that reach the daemon. -/
inductive Call where
  | socket
  | bind (sockfd : Int32) (addr : SockAddr) (sinZero : Block 8)
  | accept (sockfd : Int32)
  | recv (sockfd : Int32) (len : UInt64)
  | connect (sockfd : Int32) (addr : SockAddr) (sinZero : Block 8)
  | send (sockfd : Int32) (len : UInt64) (buffer : Block len.toNat)

def Call.request : Call → List (List UInt8)
  | .socket => [CallName.socket.tcpdMsg.bytes]
  | .bind sockfd addr sinZero =>
    [CallName.bind.tcpdMsg.bytes, bytes32 sockfd.toUInt32, addr.bytes sinZero]
  | .accept sockfd => [CallName.accept.tcpdMsg.bytes, bytes32 sockfd.toUInt32]
  | .recv sockfd len => [CallName.recv.tcpdMsg.bytes, bytes32 sockfd.toUInt32, bytes64 len]
  | .connect sockfd addr sinZero =>
    [CallName.connect.tcpdMsg.bytes, bytes32 sockfd.toUInt32, addr.bytes sinZero]
  | .send sockfd len _ => [CallName.send.tcpdMsg.bytes, bytes32 sockfd.toUInt32, bytes64 len]

def Call.datagrams : Call → List (List UInt8)
  | .send sockfd len buffer => (Call.send sockfd len buffer).request ++ [buffer.bytes]
  | call => call.request

end Calls

section Answers

-- The bytes that an answer of the daemon brings to a front program.
def ReceiverEffect.datagram? (addr : SockAddr) : ReceiverEffect → Option (List UInt8)
  | .bindReturn front value | .acceptError _ front value | .recvError front value =>
    if front = addr then some (bytes32 value.toUInt32) else none
  | .acceptReturn _ front session => if front = addr then some (bytes32 session) else none
  | .recvReturn _ front data => if front = addr then some data else none
  | .ack .. | .free .. => none

def SenderEffect.datagram? (addr : SockAddr) : SenderEffect → Option (List UInt8)
  | .connectReturn front value => if front = addr then some (bytes32 value.toUInt32) else none
  -- The count is a `ssize_t`, of which `sizeof(int)` bytes are sent.
  | .sendReturn front value => if front = addr then some (bytes32 value.toUInt32) else none
  | .data .. | .timer _ | .free _ => none

def TcpdEffect.datagram? (addr : SockAddr) : TcpdEffect → Option (List UInt8)
  | .socketReturn front value => if front = addr then some (bytes32 value.toUInt32) else none
  | .receiver effect => effect.datagram? addr
  | .sender effect => effect.datagram? addr

-- The buffer and the result; bytes of the datagram beyond `len` are lost.
def recvfrom (buffer : List UInt8) (len : Nat) (datagram : List UInt8) : List UInt8 × Nat :=
  (datagram.take len ++ buffer.drop (datagram.take len).length, (datagram.take len).length)

namespace Tcpudp

-- The end of `RECV`, which reads the answer into the caller's buffer.
def recv (buffer : List UInt8) (len : UInt64) (answer : List UInt8) : List UInt8 × Int64 :=
  let (buffer, ret) := recvfrom buffer len.toNat answer
  (buffer, Int64.ofNat ret)

-- The end of `SEND`, which reads `sizeof(ssize_t)` bytes.
def send (buf : Block bufLen) (answer : List UInt8) : Int64 :=
  let buf := buf.receive (List.replicate 8 0)
  let buf := buf.receive (answer.take 8)
  (ofBytes64 (buf.take 8)).toInt64

end Tcpudp

end Answers

end NetworkProj
