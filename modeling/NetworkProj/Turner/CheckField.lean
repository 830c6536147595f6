import NetworkProj.Shared.Reachability
import NetworkProj.Turner.Crc16

set_option autoImplicit false

namespace NetworkProj.Turner

variable {order : ByteOrder} {tcpd next : Tcpd} {pack request : Packet}

section Words

theorem bigEndianWords_append {first second : List UInt8} (even : first.length % 2 = 0) :
    bigEndianWords (first ++ second) = bigEndianWords first ++ bigEndianWords second := by
  fun_induction bigEndianWords first with
  | case1 one two rest ih =>
    have even' : rest.length % 2 = 0 := by
      simp only [List.length_cons] at even
      omega
    simp [bigEndianWords, ih even']
  | case2 last => cases even
  | case3 => rfl

theorem not_truncated (sum : UInt16) : ~~~ (0xffff + sum) = -sum := by
  have complement := UInt16.neg_eq_not_add (0xffff + sum)
  grind

-- The words before the check field, the check field, and what follows.
theorem crc16_field (order : ByteOrder) {before after : List UInt8} (even : before.length % 2 = 0)
    (short : before.length + 2 + after.length ≤ intMax) (check : UInt16) :
    crc16 order (before ++ order.bytes16 check ++ after) = some (order.swap16
      (-(order.swap16 check) -
        UInt16.ofNat ((bigEndianWords before).sum + (bigEndianWords after).sum))) := by
  obtain ⟨first, second, stored⟩ : ∃ first second, order.bytes16 check = [first, second] :=
    List.length_eq_two.mp (order.length_bytes16 check)
  have loaded := (order.word16_eq_iff first second check).mpr stored
  have length : (before ++ [first, second] ++ after).length ≤ intMax := by
    simp only [List.length_append, List.length_cons, List.length_nil]
    exact short
  have sum : (bigEndianWords (before ++ [first, second] ++ after)).sum =
      (bigEndianWords before).sum +
        (256 * first.toNat + second.toNat + (bigEndianWords after).sum) := by
    rw [List.append_assoc, bigEndianWords_append even, List.sum_append]
    rfl
  have word : order.swap16 check = UInt16.ofNat (256 * first.toNat + second.toNat) := by
    rw [← loaded, swap16_ofNat]
  rw [stored, crc16_eq order length, not_truncated, sum, word]
  simp only [UInt16.ofNat_add]
  congr 2
  grind

end Words

section Structures

def lenOf (pack : Packet) : Nat :=
  (toSize pack.len).toNat

def checkEnd : Nat := checkOffset + 2

theorem field_bytes (order : ByteOrder) (tcpd : Tcpd) :
    tcpd.message.bytes = tcpd.message.bytes.take checkOffset ++ order.bytes16 (tcpd.check order) ++
      tcpd.message.bytes.drop checkEnd := by
  have first : checkOffset < tcpd.message.bytes.length := by
    rw [tcpd.message.sized]
    decide
  have second : checkOffset + 1 < tcpd.message.bytes.length := by
    rw [tcpd.message.sized]
    decide
  have stored := (order.word16_eq_iff _ _ (tcpd.check order)).mp rfl
  rw [stored, List.getD_eq_getElem _ _ first, List.getD_eq_getElem _ _ second]
  conv_lhs => rw [← List.take_append_drop checkOffset tcpd.message.bytes,
    List.drop_eq_getElem_cons first, List.drop_eq_getElem_cons second]
  simp [checkEnd]

theorem setCheck_bytes (order : ByteOrder) (tcpd : Tcpd) (check : UInt16) :
    (tcpd.setCheck order check).message.bytes =
      tcpd.message.bytes.take checkOffset ++ order.bytes16 check ++
        tcpd.message.bytes.drop checkEnd := by
  simp only [Tcpd.setCheck, Block.write, order.length_bytes16]
  rfl

theorem checkOffset_within (tcpd : Tcpd) : (tcpd.message.bytes.take checkOffset).length = checkOffset := by
  rw [List.length_take, tcpd.message.sized]
  rfl

-- What lies on both sides of the check field, and the field itself.
theorem eq_of_field {tcpd : Tcpd} {before after : List UInt8} {check : UInt16}
    (length : before.length = checkOffset)
    (bytes : tcpd.message.bytes = before ++ order.bytes16 check ++ after) :
    tcpd.message.bytes.take checkOffset = before ∧ tcpd.check order = check ∧
      tcpd.message.bytes.drop checkEnd = after := by
  have whole := field_bytes order tcpd
  have first : (tcpd.message.bytes.take checkOffset).length = before.length := by
    rw [checkOffset_within, length]
  have fields : (order.bytes16 (tcpd.check order)).length = (order.bytes16 check).length := by
    rw [order.length_bytes16, order.length_bytes16]
  have parts := whole.symm.trans bytes
  rw [List.append_assoc, List.append_assoc] at parts
  obtain ⟨head, rest⟩ := List.append_inj parts first
  obtain ⟨field, tail⟩ := List.append_inj rest fields
  exact ⟨head, order.bytes16_inj field, tail⟩

theorem setCheck_setCheck (order : ByteOrder) (tcpd : Tcpd) (old check : UInt16) :
    (tcpd.setCheck order old).setCheck order check = tcpd.setCheck order check := by
  obtain ⟨head, _, tail⟩ := eq_of_field (checkOffset_within tcpd) (setCheck_bytes order tcpd old)
  have message : ((tcpd.setCheck order old).setCheck order check).message =
      (tcpd.setCheck order check).message := by
    apply Block.ext
    rw [setCheck_bytes order (tcpd.setCheck order old), head, tail, setCheck_bytes]
  simpa [Tcpd.setCheck] using message

/-- The words of the header and the first `len` bytes of the body, without the check field. -/
def otherWords (tcpd : Tcpd) (len : Nat) : Nat :=
  (bigEndianWords ((tcpd.message.bytes.drop sizeofSockaddr).take 16)).sum +
    (bigEndianWords ((tcpd.message.bytes.drop checkEnd).take (2 + len))).sum

theorem setCheck_words (order : ByteOrder) (tcpd : Tcpd) (check : UInt16) (len : Nat) :
    (tcpd.setCheck order check).check order = check ∧
      otherWords (tcpd.setCheck order check) len = otherWords tcpd len := by
  obtain ⟨head, field, tail⟩ := eq_of_field (checkOffset_within tcpd) (setCheck_bytes order tcpd check)
  have before := congrArg (List.drop sizeofSockaddr) head
  rw [List.drop_take, List.drop_take] at before
  refine ⟨field, ?_⟩
  rw [otherWords, otherWords, tail]
  exact congrArg (fun words => (bigEndianWords words).sum + _) before

-- `chksum` holds the same bytes as `message` behind the address.
theorem copyChksum_take (tcpd : Tcpd) {len : Nat} (fits : len ≤ mesgLen) :
    ∃ chksum, tcpd.copyChksum len = some { tcpd with chksum } ∧
      chksum.take (sizeofTcphdr + len) =
        (tcpd.message.bytes.drop sizeofSockaddr).take (sizeofTcphdr + len) := by
  obtain ⟨head, copied⟩ := tcpd.message.bcopy_inside tcpd.chksum sizeofSockaddr 0 sizeofTcphdr
    (by decide) (by decide)
  obtain ⟨whole, copied'⟩ := tcpd.message.bcopy_inside head (sizeofSockaddr + sizeofTcphdr)
    sizeofTcphdr len (by omega) (by omega)
  have first := Block.bcopy_bytes _ _ copied
  have both := Block.bcopy_bytes _ _ copied'
  have headLength : (head.bytes.take sizeofTcphdr).length = sizeofTcphdr := by
    rw [List.length_take, head.sized]
    rfl
  have bodyLength : ((tcpd.message.bytes.drop (sizeofSockaddr + sizeofTcphdr)).take len).length =
      len := by
    rw [List.length_take, List.length_drop, tcpd.message.sized]
    omega
  have header : head.bytes.take sizeofTcphdr =
      (tcpd.message.bytes.drop sizeofSockaddr).take sizeofTcphdr := by
    rw [first, List.take_zero, List.nil_append]
    apply List.take_left'
    rw [List.length_take, List.length_drop, tcpd.message.sized]
    rfl
  refine ⟨whole, by simp [Tcpd.copyChksum, copied, copied'], ?_⟩
  rw [Block.take, both, List.take_left' (by rw [List.length_append, headLength, bodyLength]), header,
    List.take_add, List.drop_drop]

theorem field_slice (order : ByteOrder) (tcpd : Tcpd) :
    (tcpd.message.bytes.drop checkOffset).take 2 = order.bytes16 (tcpd.check order) := by
  have whole := field_bytes order tcpd
  rw [List.append_assoc] at whole
  rw [whole, List.drop_left' (checkOffset_within tcpd), List.take_left' (order.length_bytes16 _)]

theorem summed_bytes (order : ByteOrder) (tcpd : Tcpd) (len : Nat) :
    (tcpd.message.bytes.drop sizeofSockaddr).take (sizeofTcphdr + len) =
      (tcpd.message.bytes.drop sizeofSockaddr).take 16 ++ order.bytes16 (tcpd.check order) ++
        (tcpd.message.bytes.drop checkEnd).take (2 + len) := by
  have parts : sizeofTcphdr + len = 16 + (2 + (2 + len)) := by
    unfold sizeofTcphdr
    omega
  rw [parts, List.take_add, List.take_add, List.drop_drop, List.drop_drop, List.append_assoc,
    ← field_slice]
  rfl

/-- Both paths: the check field takes the complement of a sum in which it has its old value. -/
theorem checksum_stored (order : ByteOrder) (tcpd : Tcpd) {len : Nat} (fits : len ≤ mesgLen) :
    ∃ chksum check, tcpd.copyChksum len = some { tcpd with chksum } ∧
      Tcpd.computeCheck order { tcpd with chksum } len =
        some ({ tcpd with chksum }.setCheck order check) ∧
      order.swap16 check = -(order.swap16 (tcpd.check order)) - UInt16.ofNat (otherWords tcpd len) := by
  obtain ⟨chksum, copied, summed⟩ := copyChksum_take tcpd fits
  rw [summed_bytes order] at summed
  have even : ((tcpd.message.bytes.drop sizeofSockaddr).take 16).length % 2 = 0 := by
    rw [List.length_take, List.length_drop, tcpd.message.sized]
    rfl
  have short : ((tcpd.message.bytes.drop sizeofSockaddr).take 16).length + 2 +
      ((tcpd.message.bytes.drop checkEnd).take (2 + len)).length ≤ intMax := by
    simp only [List.length_take]
    unfold mesgLen at fits
    unfold intMax
    omega
  refine ⟨chksum, order.swap16 (-(order.swap16 (tcpd.check order)) - UInt16.ofNat (otherWords tcpd len)),
    copied, ?_, order.swap16_swap16 _⟩
  have check := crc16_field order even short (tcpd.check order)
  rw [← summed] at check
  simp only [Option.bind_eq_bind, Tcpd.computeCheck]
  rw [show (Tcpd.setCheck order { tcpd with chksum } 0).chksum = chksum from rfl, check]
  simp only [Option.bind_some, setCheck_setCheck]
  rfl

end Structures

section Paths

def packWords (tcpd : Tcpd) (pack : Packet) : Nat :=
  (bigEndianWords ((tcpd.message.bytes.drop sizeofSockaddr).take 16)).sum +
    (bigEndianWords ((tcpd.message.bytes.drop checkEnd).take 2 ++ pack.mesg.take (lenOf pack))).sum

-- Messages that agree in the header and the body, so far as it is sent, have the same check field and
-- the same other words.
theorem same_words {tcpd other : Tcpd} {len : Nat}
    (same : (tcpd.message.bytes.drop sizeofSockaddr).take (sizeofTcphdr + len) =
      (other.message.bytes.drop sizeofSockaddr).take (sizeofTcphdr + len)) :
    tcpd.check order = other.check order ∧ otherWords tcpd len = otherWords other len := by
  rw [summed_bytes order, summed_bytes order, List.append_assoc, List.append_assoc] at same
  obtain ⟨before, rest⟩ := List.append_inj same (by
    simp only [List.length_take, List.length_drop, tcpd.message.sized, other.message.sized])
  obtain ⟨field, after⟩ := List.append_inj rest (by
    rw [order.length_bytes16, order.length_bytes16])
  exact ⟨order.bytes16_inj field, by rw [otherWords, otherWords, before, after]⟩

-- The address and the body are filled in, the rest of the header is as before.
theorem filled_words {tcpd filled : Tcpd} {pack : Packet} (fits : lenOf pack ≤ mesgLen)
    (bytes : filled.message.bytes =
      (serverAddress ++ tcpd.message.bytes.drop 8).take (sizeofSockaddr + sizeofTcphdr) ++
        pack.mesg.bytes.take (lenOf pack) ++
          (serverAddress ++ tcpd.message.bytes.drop 8).drop
            (sizeofSockaddr + sizeofTcphdr + lenOf pack)) :
    filled.check order = tcpd.check order ∧
      otherWords filled (lenOf pack) = packWords tcpd pack := by
  have base : ((serverAddress ++ tcpd.message.bytes.drop 8).take
      (sizeofSockaddr + sizeofTcphdr)).length = sizeofSockaddr + sizeofTcphdr := by
    rw [List.length_take, List.length_append, List.length_drop, tcpd.message.sized]
    rfl
  have mesg : (pack.mesg.bytes.take (lenOf pack)).length = lenOf pack := by
    rw [List.length_take, pack.mesg.sized]
    omega
  have head : (filled.message.bytes.drop 8).take 28 = (tcpd.message.bytes.drop 8).take 28 := by
    have first : filled.message.bytes.take (sizeofSockaddr + sizeofTcphdr) =
        (serverAddress ++ tcpd.message.bytes.drop 8).take (sizeofSockaddr + sizeofTcphdr) := by
      rw [bytes, List.append_assoc, List.take_left' base]
    have behind := congrArg (List.drop 8) first
    rw [List.drop_take, List.drop_take, List.drop_left' (show serverAddress.length = 8 from rfl)]
      at behind
    exact behind
  have slice (start count : Nat) (within : start + count ≤ 28) :
      (filled.message.bytes.drop (8 + start)).take count =
        (tcpd.message.bytes.drop (8 + start)).take count := by
    have part := congrArg (fun bytes => (bytes.drop start).take count) head
    simp only [List.drop_take, List.take_take, List.drop_drop] at part
    rwa [Nat.min_eq_left (by omega)] at part
  have body : (filled.message.bytes.drop (sizeofSockaddr + sizeofTcphdr)).take (lenOf pack) =
      pack.mesg.take (lenOf pack) := by
    rw [bytes, List.append_assoc, List.drop_left' base, List.take_left' mesg, Block.take]
  constructor
  · apply order.bytes16_inj
    rw [← field_slice, ← field_slice]
    exact slice 24 2 (by decide)
  · have before := slice 8 16 (by decide)
    have urgent := slice 26 2 (by decide)
    have after : (filled.message.bytes.drop checkEnd).take (2 + lenOf pack) =
        (tcpd.message.bytes.drop checkEnd).take 2 ++ pack.mesg.take (lenOf pack) := by
      rw [List.take_add, List.drop_drop, ← body]
      exact congrArg (· ++ _) urgent
    rw [otherWords, packWords, after]
    exact congrArg (fun words => (bigEndianWords words).sum + _) before

theorem fromClient_sends (order : ByteOrder) (tcpd : Tcpd) {pack : Packet}
    (fits : lenOf pack ≤ mesgLen) :
    ∃ next : Tcpd, tcpd.fromClient order pack = some (next,
        [.toTroll (next.message.take (sizeofSockaddr + sizeofTcphdr + lenOf pack))]) ∧
      order.swap16 (next.check order) =
        -(order.swap16 (tcpd.check order)) - UInt16.ofNat (packWords tcpd pack) ∧
      otherWords next (lenOf pack) = packWords tcpd pack := by
  have address : (0 : Nat) + serverAddress.length ≤ sizeofSockaddr + sizeofTcphdr + mesgLen := by decide
  obtain ⟨message, copied⟩ := pack.mesg.bcopy_inside (tcpd.message.write 0 serverAddress address) 0
    (sizeofSockaddr + sizeofTcphdr) (lenOf pack) (by omega) (by omega)
  obtain ⟨same, words⟩ : Tcpd.check order { tcpd with message } = tcpd.check order ∧
      otherWords { tcpd with message } (lenOf pack) = packWords tcpd pack :=
    filled_words fits (Block.bcopy_bytes _ _ copied)
  obtain ⟨chksum, check, summed, stored, value⟩ := checksum_stored order { tcpd with message } fits
  obtain ⟨field, others⟩ := setCheck_words order { message, chksum } check (lenOf pack)
  refine ⟨Tcpd.setCheck order { message, chksum } check, ?_, ?_, others.trans words⟩
  · unfold lenOf at copied summed stored ⊢
    simp only [Tcpd.fromClient, copied, summed, stored, Option.bind_eq_bind, Option.bind_some]
    rfl
  · rw [field, value, same, words]

theorem fromServer_checks (order : ByteOrder) (tcpd sender : Tcpd) {request : Packet} {len : Nat}
    (fits : len ≤ mesgLen)
    (whole : sizeofSockaddr + sizeofTcphdr + len ≤
      (UInt64.ofNat (sizeofSockaddr + sizeofTcphdr) + toSize request.len).toNat) :
    ∃ (next : Tcpd) (check : UInt16) (body : List UInt8),
      tcpd.fromServer order request
          (sender.message.take (sizeofSockaddr + sizeofTcphdr + len)) =
        some (next, [.checked (sender.check order) check, .toServer body]) ∧
      order.swap16 check =
        -(order.swap16 (sender.check order)) - UInt16.ofNat (otherWords sender len) := by
  have length : (sender.message.take (sizeofSockaddr + sizeofTcphdr + len)).length =
      sizeofSockaddr + sizeofTcphdr + len :=
    Block.length_take _ _ (by omega)
  have received : (sender.message.take (sizeofSockaddr + sizeofTcphdr + len)).take
      (UInt64.ofNat (sizeofSockaddr + sizeofTcphdr) + toSize request.len).toNat =
        sender.message.take (sizeofSockaddr + sizeofTcphdr + len) :=
    List.take_of_length_le (length.le.trans whole)
  have inside : sizeofSockaddr + sizeofTcphdr + len ≤ sizeofSockaddr + sizeofTcphdr + mesgLen ∧
      sizeofSockaddr + sizeofTcphdr ≤ sizeofSockaddr + sizeofTcphdr + len := by omega
  have read : sizeofSockaddr + sizeofTcphdr + len - sizeofSockaddr - sizeofTcphdr = len := by omega
  have behind : ((tcpd.message.receive (sender.message.take
      (sizeofSockaddr + sizeofTcphdr + len))).bytes.drop sizeofSockaddr).take (sizeofTcphdr + len) =
        (sender.message.bytes.drop sizeofSockaddr).take (sizeofTcphdr + len) := by
    have bytes := Block.receive_take tcpd.message (length.le.trans inside.1)
    rw [length] at bytes
    have cut := congrArg (List.drop sizeofSockaddr) bytes
    simpa only [Block.take, List.drop_take, Nat.add_assoc, Nat.add_sub_cancel_left] using cut
  generalize sender.message.take (sizeofSockaddr + sizeofTcphdr + len) = datagram at *
  obtain ⟨field, words⟩ : Tcpd.check order { tcpd with message := tcpd.message.receive datagram } =
        sender.check order ∧
      otherWords { tcpd with message := tcpd.message.receive datagram } len = otherWords sender len :=
    same_words behind
  obtain ⟨chksum, check, copied, stored, value⟩ :=
    checksum_stored order { tcpd with message := tcpd.message.receive datagram } fits
  have checked := (setCheck_words order
    { message := tcpd.message.receive datagram, chksum } check len).1
  refine ⟨Tcpd.setCheck order { message := tcpd.message.receive datagram, chksum } check, check,
    ((Tcpd.setCheck order { message := tcpd.message.receive datagram, chksum } check).message.bytes.drop
      (sizeofSockaddr + sizeofTcphdr)).take len, ?_, by rw [value, field, words]⟩
  simp only [Tcpd.fromServer, received, length, if_pos inside, read, copied, stored,
    Option.bind_eq_bind, Option.bind_some, checked]
  rw [← field]
  rfl

end Paths

section Link

theorem toSize_toInt (len : Int32) : len.toInt = Int.bmod (toSize len).toNat (2 ^ 64) := by
  rw [← Int32.toInt_toInt64]
  exact BitVec.toInt_eq_toNat_bmod _

theorem toSize_nonneg {len : Int32} (nonneg : 0 ≤ len.toInt) :
    ((toSize len).toNat : Int) = len.toInt := by
  have same := toSize_toInt len
  have size := (toSize len).toNat_lt
  have bound := len.toInt_lt
  rw [Int.bmod_def] at same
  split at same <;> omega

-- A request for at least as many bytes takes the whole datagram.
theorem whole_request (fits : lenOf pack ≤ mesgLen) (whole : pack.len ≤ request.len) :
    sizeofSockaddr + sizeofTcphdr + lenOf pack ≤
      (UInt64.ofNat (sizeofSockaddr + sizeofTcphdr) + toSize request.len).toNat := by
  have same := toSize_toInt pack.len
  have order := Int32.le_iff_toInt_le.mp whole
  have bound := request.len.toInt_lt
  unfold lenOf mesgLen at *
  have nonneg : pack.len.toInt = (toSize pack.len).toNat := by
    rw [Int.bmod_def] at same
    split at same <;> omega
  have positive : 0 ≤ request.len.toInt := by omega
  have request' := toSize_nonneg positive
  have sum : (UInt64.ofNat (sizeofSockaddr + sizeofTcphdr) + toSize request.len).toNat =
      sizeofSockaddr + sizeofTcphdr + (toSize request.len).toNat := by
    rw [UInt64.toNat_add]
    exact Nat.mod_eq_of_lt (show 36 + (toSize request.len).toNat < 2 ^ 64 by omega)
  rw [sum]
  omega

theorem fits_of_sent {emitted : List TcpdEffect}
    (sent : tcpd.fromClient order pack = some (next, emitted)) : lenOf pack ≤ mesgLen := by
  simp only [Tcpd.fromClient, Option.bind_eq_bind, Option.bind_eq_some_iff] at sent
  obtain ⟨message, copied, _⟩ := sent
  have inside := (Block.inside_of_bcopy _ _ copied).1
  unfold lenOf
  omega

-- Only a packet of the client goes to the troll.
theorem client_of_sent {datagram sent : List UInt8}
    (taken : Tcpd.step order tcpd (pack, datagram) = .ok (next, [.toTroll sent])) :
    pack.sender = 1 ∧ tcpd.fromClient order pack = some (next, [.toTroll sent]) := by
  unfold Tcpd.step at taken
  dsimp only at taken
  split at taken
  next => cases taken
  next result outcome =>
    cases taken
    by_cases client : pack.sender = 1
    next =>
      rw [if_pos client] at outcome
      exact ⟨client, outcome⟩
    next =>
      rw [if_neg client] at outcome
      split at outcome
      next =>
        simp only [Tcpd.fromServer, Option.bind_eq_bind] at outcome
        split at outcome
        next =>
          simp only [Option.bind_eq_some_iff] at outcome
          obtain ⟨_, _, _, _, returned⟩ := outcome
          cases returned
        next => cases outcome
      next => cases outcome

/-- The check field, before the packet is sent, holds the check value that the packet gets. -/
def Settled (order : ByteOrder) (tcpd : Tcpd) (pack : Packet) : Prop :=
  (2 * (order.swap16 (tcpd.check order)).toNat + packWords tcpd pack) % 2 ^ 16 = 0

instance (order : ByteOrder) (tcpd : Tcpd) (pack : Packet) : Decidable (Settled order tcpd pack) :=
  inferInstanceAs (Decidable (_ = _))

theorem settled_iff (order : ByteOrder) (tcpd : Tcpd) (pack : Packet) {sent check : UInt16}
    (first : order.swap16 sent = -(order.swap16 (tcpd.check order)) - UInt16.ofNat (packWords tcpd pack))
    (second : order.swap16 check = -(order.swap16 sent) - UInt16.ofNat (packWords tcpd pack)) :
    sent = check ↔ Settled order tcpd pack := by
  have back : order.swap16 check = order.swap16 (tcpd.check order) := by
    rw [second, first]
    grind
  have fixed : sent = check ↔ order.swap16 sent = order.swap16 (tcpd.check order) := by
    constructor
    · rintro rfl
      exact back
    · intro same
      exact order.swap16_inj (same.trans back.symm)
  have zero : order.swap16 sent = order.swap16 (tcpd.check order) ↔
      order.swap16 (tcpd.check order) + order.swap16 (tcpd.check order) +
        UInt16.ofNat (packWords tcpd pack) = 0 := by
    rw [first]
    constructor <;> intro same <;> grind
  rw [fixed, zero, ← UInt16.toNat_inj, UInt16.toNat_add, UInt16.toNat_add, UInt16.toNat_ofNat', Settled]
  have nothing : (0 : UInt16).toNat = 0 := rfl
  omega

theorem link_sends (order : ByteOrder) (link : Link) (asked : pack.sender = 1)
    (fits : lenOf pack ≤ mesgLen) :
    ∃ client datagram, Tcpd.step order link.client (pack, []) = .ok (client, [.toTroll datagram]) ∧
      Link.step order link (.client pack) = .ok ({ link with client }, [.toTroll datagram]) := by
  obtain ⟨next, sent, _⟩ := fromClient_sends order link.client fits
  have stepped : Tcpd.step order link.client (pack, []) = .ok (next,
      [.toTroll (next.message.take (sizeofSockaddr + sizeofTcphdr + lenOf pack))]) := by
    simp only [Tcpd.step, asked, if_true, sent]
  exact ⟨next, _, stepped, by simp only [Link.step, stepped]⟩

theorem delivered_checks {client : Tcpd} {datagram : List UInt8} (final : Link)
    (stepped : Tcpd.step order tcpd (pack, []) = .ok (client, [.toTroll datagram]))
    (asked : request.sender = 2) (whole : pack.len ≤ request.len) :
    ∃ final' test check body,
      Link.step order final (.server request datagram) =
          .ok (final', [.checked test check, .toServer body]) ∧
        (test = check ↔ Settled order tcpd pack) := by
  obtain ⟨_, sent⟩ := client_of_sent stepped
  have fits := fits_of_sent sent
  obtain ⟨next, sent', value, words⟩ := fromClient_sends order tcpd fits
  rw [sent] at sent'
  cases sent'
  obtain ⟨server, check, body, checked, recomputed⟩ :=
    fromServer_checks order final.server client fits (whole_request fits whole)
  rw [words] at recomputed
  refine ⟨{ final with server }, client.check order, check, body, ?_,
    settled_iff order tcpd pack value recomputed⟩
  simp only [Link.step, Tcpd.step, asked, checked]
  rfl

/-- The check value that the receiver computes is the one carried just when the sender's check field
held it already: at the receiver the field holds the value carried, at the sender the one before. -/
theorem check_agrees_iff (order : ByteOrder) {initial final : Link}
    {before after : Machine.History LinkEvent TcpdEffect} {pack request : Packet}
    {datagram : List UInt8}
    (run : Machine.Run (Link.step order) initial
      (before ++ (.client pack, [.toTroll datagram]) :: after) final)
    (asked : request.sender = 2) (whole : pack.len ≤ request.len) :
    ∃ link, Machine.Run (Link.step order) initial before link ∧
      ∃ final' test check body,
        Link.step order final (.server request datagram) =
            .ok (final', [.checked test check, .toServer body]) ∧
          (test = check ↔ Settled order link.client pack) := by
  obtain ⟨link, link', ran, taken⟩ := run.split
  obtain ⟨client, stepped⟩ : ∃ client,
      Tcpd.step order link.client (pack, []) = .ok (client, [.toTroll datagram]) := by
    unfold Link.step at taken
    dsimp only at taken
    split at taken
    next => cases taken
    next client effects stepped =>
      cases taken
      exact ⟨client, stepped⟩
  exact ⟨link, ran, delivered_checks final stepped asked whole⟩

-- Every structure is zero at first.
def blank : Link where
  client := { message := .fill _ 0, chksum := .fill _ 0 }
  server := { message := .fill _ 0, chksum := .fill _ 0 }

def oneByte (sender : Int32) (byte : UInt8) : Packet where
  sender
  len := 1
  mesg := .pad _ [byte]

theorem not_settled_blank : ¬ Settled .little blank.client (oneByte 1 1) := by
  unfold Settled
  decide

-- The byte is twice the one of the packet before, whose value the check field still holds.
theorem check_agrees_doubled :
    ∃ before link datagram final test check body,
      Machine.Run (Link.step .little) blank
          (before ++ [(.client (oneByte 1 2), [.toTroll datagram])]) link ∧
        Machine.events before = [.client (oneByte 1 1)] ∧
        Link.step .little link (.server (oneByte 2 0) datagram) =
          .ok (final, [.checked test check, .toServer body]) ∧ test = check := by
  have fits : lenOf (oneByte 1 2) ≤ mesgLen := by decide
  have asked : (oneByte 2 0).sender = 2 := rfl
  have whole : (oneByte 1 2).len ≤ (oneByte 2 0).len := by decide
  obtain ⟨before, earlier, ran, events, settled⟩ := @Machine.run_of_computed _ _ _ _
    (Link.step .little) blank _ [.client (oneByte 1 1)] true
    (fun result => decide (Settled .little result.1.client (oneByte 1 2))) (by decide +kernel)
  obtain ⟨client, datagram, _, taken⟩ := link_sends .little earlier rfl fits
  have run := ran.next (.client (oneByte 1 2)) _ _ taken
  obtain ⟨link, ran', final, test, check, body, checked, agrees⟩ :=
    check_agrees_iff .little run asked whole
  obtain rfl := (Machine.Run.same ran' ran rfl).1
  exact ⟨before, _, datagram, final, test, check, body, run, events, checked,
    agrees.mpr (of_decide_eq_true settled)⟩

theorem check_differs :
    ∃ link datagram final test check body,
      Machine.Run (Link.step .little) blank [(.client (oneByte 1 1), [.toTroll datagram])] link ∧
        Link.step .little link (.server (oneByte 2 0) datagram) =
          .ok (final, [.checked test check, .toServer body]) ∧ test ≠ check := by
  have fits : lenOf (oneByte 1 1) ≤ mesgLen := by decide
  have asked : (oneByte 2 0).sender = 2 := rfl
  have whole : (oneByte 1 1).len ≤ (oneByte 2 0).len := by decide
  obtain ⟨client, datagram, stepped, taken⟩ := link_sends .little blank rfl fits
  obtain ⟨final, test, check, body, checked, agrees⟩ :=
    delivered_checks { blank with client } stepped asked whole
  exact ⟨_, datagram, final, test, check, body, .single taken, checked,
    fun same => not_settled_blank (agrees.mp same)⟩

end Link

end NetworkProj.Turner
