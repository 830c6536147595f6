import Mathlib.Algebra.Group.Nat.Defs
import NetworkProj.Shared.Block
import NetworkProj.Model.Crc32

set_option autoImplicit false

/-!
# `Header.h`: the messages between the daemons

The structures are laid out for a little-endian machine with eight-byte
`size_t`: `TrollMessageStruct` has four bytes of padding before `len`.
-/

namespace NetworkProj

def tcpdMsgLen : Nat := 8
def bufLen : Nat := 1000
def maxBufferPackages : Nat := 64

-- `htons(AF_INET)`.
def htonsAfInet : UInt16 := 0x0200

theorem toInt32_inj {left right : UInt32} (same : left.toInt32 = right.toInt32) : left = right := by
  have back := congrArg Int32.toUInt32 same
  simpa using back

theorem toNat_offset {base : UInt32} {offset : Nat} (unwrapped : base.toNat + offset < 2 ^ 32) :
    (base + UInt32.ofNat offset).toNat = base.toNat + offset := by
  have small : offset < 2 ^ 32 := by omega
  rw [UInt32.toNat_add, UInt32.toNat_ofNat_of_lt' small]
  exact Nat.mod_eq_of_lt unwrapped

theorem toNat_succ {base : UInt32} (unwrapped : base.toNat + 1 < 2 ^ 32) :
    (base + 1).toNat = base.toNat + 1 :=
  toNat_offset unwrapped

theorem toNat_sub_ofNat {word : UInt32} {count : Nat} (within : count ≤ word.toNat) :
    (word - UInt32.ofNat count).toNat = word.toNat - count := by
  have small : (UInt32.ofNat count).toNat = count :=
    UInt32.toNat_ofNat_of_lt' (Nat.lt_of_le_of_lt within word.toNat_lt)
  have most : UInt32.ofNat count ≤ word := by
    rw [UInt32.le_iff_toNat_le, small]
    exact within
  rw [UInt32.toNat_sub_of_le _ _ most, small]

structure SockAddr where
  sinFamily : UInt16
  sinPort : UInt16
  sinAddr : UInt32
deriving DecidableEq, Inhabited

structure TrollMessage where
  header : SockAddr
  checkSum : UInt32
  session : UInt32
  seqNum : UInt32
  padding : Block 4
  len : UInt64
  body : Block bufLen
deriving DecidableEq, Inhabited

structure TrollAck where
  header : SockAddr
  checkSum : UInt32
  session : UInt32
  seqNum : UInt32
deriving DecidableEq, Inhabited

def bytes32 (word : UInt32) : List UInt8 :=
  [word.toUInt8, (word >>> 8).toUInt8, (word >>> 16).toUInt8, (word >>> 24).toUInt8]

def bytes64 (word : UInt64) : List UInt8 :=
  bytes32 word.toUInt32 ++ bytes32 (word >>> 32).toUInt32

def word32 (first second third fourth : UInt8) : UInt32 :=
  first.toUInt32 <<< 24 ||| second.toUInt32 <<< 16 ||| third.toUInt32 <<< 8 ||| fourth.toUInt32

-- The `int` whose bytes a datagram brings.
def ofBytes32 (datagram : List UInt8) : UInt32 :=
  word32 (datagram.getD 3 0) (datagram.getD 2 0) (datagram.getD 1 0) (datagram.getD 0 0)

theorem word32_bit (first second third fourth : UInt8) (i : Nat) :
    (word32 first second third fourth).toBitVec.getLsbD i =
      if i < 8 then fourth.toBitVec.getLsbD i
      else if i < 16 then third.toBitVec.getLsbD (i - 8)
      else if i < 24 then second.toBitVec.getLsbD (i - 16)
      else first.toBitVec.getLsbD (i - 24) := by
  have beyond (byte : UInt8) (start : Nat) (high : 8 ≤ start) :
      byte.toBitVec.getLsbD start = false :=
    BitVec.getLsbD_of_ge _ _ high
  simp [word32]
  split
  · grind
  · split
    · grind
    · split <;> grind

theorem word32_received {size : Nat} (buf : Block size) (large : 4 ≤ size)
    (first second third fourth : UInt8) :
    word32 ((buf.receive [first, second, third, fourth]).bytes.getD 0 0)
        ((buf.receive [first, second, third, fourth]).bytes.getD 1 0)
        ((buf.receive [first, second, third, fourth]).bytes.getD 2 0)
        ((buf.receive [first, second, third, fourth]).bytes.getD 3 0) =
      word32 first second third fourth := by
  have short : [first, second, third, fourth].length ≤ size := large
  rw [Block.receive_bytes buf short]
  rfl

theorem word32_bytes (word : UInt32) :
    word32 (word >>> 24).toUInt8 (word >>> 16).toUInt8 (word >>> 8).toUInt8 word.toUInt8 = word := by
  apply UInt32.toBitVec_inj.mp
  apply BitVec.eq_of_getLsbD_eq
  intro i small
  rw [word32_bit]
  simp
  grind

theorem word32_bytes_long (word : UInt64) :
    word32 (word >>> 24).toUInt8 (word >>> 16).toUInt8 (word >>> 8).toUInt8 word.toUInt8 =
      word.toUInt32 := by
  apply UInt32.toBitVec_inj.mp
  apply BitVec.eq_of_getLsbD_eq
  intro i small
  rw [word32_bit]
  simp
  grind

@[simp] theorem ofBytes32_bytes32 (word : UInt32) : ofBytes32 (bytes32 word) = word :=
  word32_bytes word

def bytes16 (word : UInt16) : List UInt8 :=
  [word.toUInt8, (word >>> 8).toUInt8]

def ofBytes16 (datagram : List UInt8) : UInt16 :=
  (datagram.getD 1 0).toUInt16 <<< 8 ||| (datagram.getD 0 0).toUInt16

@[simp] theorem ofBytes16_bytes16 (word : UInt16) : ofBytes16 (bytes16 word) = word := by
  apply UInt16.toBitVec_inj.mp
  apply BitVec.eq_of_getLsbD_eq
  intro i small
  simp [ofBytes16, bytes16, -UInt16.toUInt16_toUInt8]
  grind

-- `struct sockaddr_in` with its `sin_zero`, in which a caller may leave anything.
def SockAddr.bytes (addr : SockAddr) (sinZero : Block 8) : List UInt8 :=
  bytes16 addr.sinFamily ++ bytes16 addr.sinPort ++ bytes32 addr.sinAddr ++ sinZero.bytes

def SockAddr.ofBytes (datagram : List UInt8) : SockAddr where
  sinFamily := ofBytes16 datagram
  sinPort := ofBytes16 (datagram.drop 2)
  sinAddr := ofBytes32 (datagram.drop 4)

theorem SockAddr.length_bytes (addr : SockAddr) (sinZero : Block 8) :
    (addr.bytes sinZero).length = 16 := by
  simp [SockAddr.bytes, bytes16, bytes32, sinZero.sized]

@[simp] theorem SockAddr.ofBytes_bytes (addr : SockAddr) (sinZero : Block 8) :
    SockAddr.ofBytes (addr.bytes sinZero) = addr := by
  have family : ofBytes16 (addr.bytes sinZero) = addr.sinFamily := ofBytes16_bytes16 _
  have port : ofBytes16 ((addr.bytes sinZero).drop 2) = addr.sinPort := ofBytes16_bytes16 _
  have address : ofBytes32 ((addr.bytes sinZero).drop 4) = addr.sinAddr := ofBytes32_bytes32 _
  rw [SockAddr.ofBytes, family, port, address]

-- The `size_t` whose bytes a datagram brings.
def ofBytes64 (datagram : List UInt8) : UInt64 :=
  (ofBytes32 datagram).toUInt64 ||| (ofBytes32 (datagram.drop 4)).toUInt64 <<< 32

theorem ofBytes64_words (low high : UInt32) :
    ofBytes64 (bytes32 low ++ bytes32 high) = low.toUInt64 ||| high.toUInt64 <<< 32 := by
  have first : ofBytes32 (bytes32 low ++ bytes32 high) = low := ofBytes32_bytes32 low
  have second : ofBytes32 ((bytes32 low ++ bytes32 high).drop 4) = high := ofBytes32_bytes32 high
  rw [ofBytes64, first, second]

@[simp] theorem ofBytes64_bytes64 (word : UInt64) : ofBytes64 (bytes64 word) = word := by
  rw [bytes64, ofBytes64_words]
  apply UInt64.toBitVec_inj.mp
  apply BitVec.eq_of_getLsbD_eq
  intro i small
  simp [-UInt64.toUInt64_toUInt32]
  grind

/-- What the checksum of a data package covers, from `CheckSumOffset` to its end. -/
structure Content where
  session : UInt32
  seqNum : UInt32
  padding : Block 4
  len : UInt64
  body : Block bufLen
deriving DecidableEq

def TrollMessage.content (message : TrollMessage) : Content where
  session := message.session
  seqNum := message.seqNum
  padding := message.padding
  len := message.len
  body := message.body

def Content.bytes (content : Content) : List UInt8 :=
  bytes32 content.session ++ bytes32 content.seqNum ++ content.padding.bytes ++
    bytes64 content.len ++ content.body.bytes

def TrollMessage.checksumAlgorithm (message : TrollMessage) : UInt32 :=
  crc32 0 message.content.bytes

def TrollAck.checksumAlgorithm (ack : TrollAck) : UInt32 :=
  crc32 0 (bytes32 ack.session ++ bytes32 ack.seqNum)

-- The package passes the checksum test of `RecvData`.
def TrollMessage.Intact (message : TrollMessage) : Prop :=
  message.checksumAlgorithm = message.checkSum

instance (message : TrollMessage) : Decidable message.Intact :=
  inferInstanceAs (Decidable (_ = _))

-- The ack passes the checksum test of `RecvAck`.
def TrollAck.Intact (ack : TrollAck) : Prop :=
  ack.checksumAlgorithm = ack.checkSum

instance (ack : TrollAck) : Decidable ack.Intact :=
  inferInstanceAs (Decidable (_ = _))

-- The bytes a package carries to the reader.
def TrollMessage.payload (message : TrollMessage) : List UInt8 :=
  message.body.take message.len.toNat

def TrollMessage.sealed (message : TrollMessage) : TrollMessage :=
  { message with checkSum := message.checksumAlgorithm }

def TrollAck.sealed (ack : TrollAck) : TrollAck :=
  { ack with checkSum := ack.checksumAlgorithm }

@[simp] theorem TrollMessage.sealed_intact (message : TrollMessage) : message.sealed.Intact := rfl

@[simp] theorem TrollAck.sealed_intact (ack : TrollAck) : ack.sealed.Intact := rfl

/-- Why the daemon does not go on: a call of `exit`, a copy outside its blocks, or a socket that
the main loop does not read in this round. -/
inductive Stop where
  | exit (code : Nat)
  | fault
  | blocked
deriving DecidableEq

end NetworkProj
