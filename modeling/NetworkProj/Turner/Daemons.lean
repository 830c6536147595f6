import NetworkProj.Model.TurnerTransfer
import NetworkProj.Turner.CheckField

set_option autoImplicit false

namespace NetworkProj.Turner

section Paths

variable {tcpd : Tcpd} {pack request : Packet}

def headerLen : Nat := sizeofSockaddr + sizeofTcphdr

def payload (datagram : List UInt8) : List UInt8 :=
  datagram.drop headerLen

theorem payload_take (bytes : List UInt8) (count : Nat) :
    payload (bytes.take (headerLen + count)) = (payload bytes).take count := by
  rw [payload, payload, List.drop_take, Nat.add_sub_cancel_left]

theorem setCheck_payload (order : ByteOrder) (tcpd : Tcpd) (check : UInt16) :
    payload (tcpd.setCheck order check).message.bytes = payload tcpd.message.bytes := by
  have length : (tcpd.message.bytes.take checkOffset ++ order.bytes16 check).length = checkEnd := by
    rw [List.length_append, checkOffset_within, order.length_bytes16]
    rfl
  rw [payload, setCheck_bytes, show headerLen = checkEnd + 2 from rfl, ← List.drop_drop,
    List.drop_left' length, List.drop_drop]
  rfl

theorem fromClient_payload (order : ByteOrder) (tcpd : Tcpd) (fits : lenOf pack ≤ mesgLen) :
    ∃ next datagram, tcpd.fromClient order pack = some (next, [.toTroll datagram]) ∧
      datagram.length = headerLen + lenOf pack ∧ payload datagram = pack.mesg.take (lenOf pack) := by
  have address : (0 : Nat) + serverAddress.length ≤ sizeofSockaddr + sizeofTcphdr + mesgLen := by decide
  have room : headerLen + lenOf pack ≤ sizeofSockaddr + sizeofTcphdr + mesgLen :=
    Nat.add_le_add_left fits headerLen
  obtain ⟨message, copied⟩ := pack.mesg.bcopy_inside (tcpd.message.write 0 serverAddress address) 0
    headerLen (lenOf pack) (by omega) room
  obtain ⟨chksum, check, summed, stored, _⟩ := checksum_stored order { tcpd with message } fits
  refine ⟨Tcpd.setCheck order { message, chksum } check,
    (Tcpd.setCheck order { message, chksum } check).message.take (headerLen + lenOf pack), ?_,
    Block.length_take _ _ room, ?_⟩
  · unfold lenOf headerLen at *
    simp only [Tcpd.fromClient, copied, summed, stored, Option.bind_eq_bind, Option.bind_some]
    rfl
  · have filled := Block.bcopy_bytes _ _ copied
    have head : ((tcpd.message.write 0 serverAddress address).bytes.take headerLen).length =
        headerLen :=
      Block.length_take _ _ (by decide)
    have body : (pack.mesg.bytes.take (lenOf pack)).length = lenOf pack := pack.mesg.length_take _ fits
    rw [Block.take, payload_take, setCheck_payload, payload, filled, List.append_assoc, List.drop_left' head,
      List.drop_zero, List.take_left' body]
    rfl

-- A longer datagram is cut off at the length of the request.
theorem fromServer_payload (order : ByteOrder) (tcpd : Tcpd) {datagram : List UInt8} {len : Nat}
    (asked : (toSize request.len).toNat = len) (fits : len ≤ mesgLen)
    (whole : headerLen ≤ datagram.length) :
    ∃ next test check, tcpd.fromServer order request datagram =
      some (next, [.checked test check, .toServer ((payload datagram).take len)]) := by
  have room : (UInt64.ofNat (sizeofSockaddr + sizeofTcphdr) + toSize request.len).toNat =
      headerLen + len := by
    rw [UInt64.toNat_add, asked]
    unfold mesgLen at fits
    exact Nat.mod_eq_of_lt (show 36 + len < 2 ^ 64 by omega)
  have length : (datagram.take (headerLen + len)).length =
      headerLen + min len (payload datagram).length := by
    rw [List.length_take, payload, List.length_drop]
    omega
  have short : min len (payload datagram).length ≤ mesgLen := (Nat.min_le_left _ _).trans fits
  have inside : headerLen + min len (payload datagram).length ≤
        sizeofSockaddr + sizeofTcphdr + mesgLen ∧
      sizeofSockaddr + sizeofTcphdr ≤ headerLen + min len (payload datagram).length :=
    ⟨Nat.add_le_add_left short headerLen, Nat.le_add_right headerLen _⟩
  have read : headerLen + min len (payload datagram).length - sizeofSockaddr - sizeofTcphdr =
      min len (payload datagram).length := by
    rw [Nat.sub_sub]
    exact Nat.add_sub_cancel_left headerLen _
  have body : (payload (tcpd.message.receive (datagram.take (headerLen + len))).bytes).take
      (min len (payload datagram).length) = (payload datagram).take len := by
    have stored := Block.receive_take tcpd.message (length.le.trans inside.1)
    rw [length, Block.take] at stored
    have cut := congrArg payload stored
    rw [payload_take, payload_take] at cut
    exact cut
  obtain ⟨chksum, check, copied, stored, _⟩ := checksum_stored order
    { tcpd with message := tcpd.message.receive (datagram.take (headerLen + len)) } short
  rw [← body, ← setCheck_payload order { message := _, chksum } check]
  refine ⟨Tcpd.setCheck order
      { message := tcpd.message.receive (datagram.take (headerLen + len)), chksum } check,
    Tcpd.check order { message := tcpd.message.receive (datagram.take (headerLen + len)), chksum },
    Tcpd.check order (Tcpd.setCheck order
      { message := tcpd.message.receive (datagram.take (headerLen + len)), chksum } check), ?_⟩
  simp only [Tcpd.fromServer, room, length, if_pos inside, read, copied, stored,
    Option.bind_eq_bind, Option.bind_some]
  rfl

end Paths

end NetworkProj.Turner
