import NetworkProj.Shared.SlidingWindow
import NetworkProj.Tcp.Congestion

set_option autoImplicit false

namespace NetworkProj.Ns3

variable {β : Type} {lib : TcpTxBuffer β} {content : β → List UInt8} {ops : TcpCongestionOps}
  {attributes : TcpAttributes} {sock sock' : TcpSocketBase β} {emitted : List TcpEffect}

/-- The socket at the sequence numbers of an abstract sender. -/
structure Represents (lib : TcpTxBuffer β) (content : β → List UInt8) (isn : UInt32)
    (sock : TcpSocketBase β) (sender : SlidingWindow.Sender UInt8) : Prop where
  head : lib.headSequence sock.txBuffer = place isn sender.una
  bytes : content sock.txBuffer = sender.written.drop sender.una
  next : sock.nextTxSequence = place isn sender.nxt
  high : sock.highTxMark = place isn sender.high

namespace Represents

variable {isn : UInt32} {sender : SlidingWindow.Sender UInt8}

theorem room (lawful : lib.Lawful content) (holds : Represents lib content isn sock sender) :
    sender.written.length < sender.una + 2 ^ 31 := by
  have small := lawful.small sock.txBuffer
  rw [holds.bytes, List.length_drop] at small
  omega

theorem length (holds : Represents lib content isn sock sender) :
    (content sock.txBuffer).length = sender.written.length - sender.una := by
  rw [holds.bytes, List.length_drop]

theorem offset (lawful : lib.Lawful content) (holds : Represents lib content isn sock sender)
    {position : Nat} (later : sender.una ≤ position) (inside : position ≤ sender.written.length) :
    (place isn position - lib.headSequence sock.txBuffer).toNat = position - sender.una := by
  have room := holds.room lawful
  rw [holds.head, place_sub isn later (by omega)]

theorem copy (lawful : lib.Lawful content) (holds : Represents lib content isn sock sender)
    {position : Nat} (later : sender.una ≤ position) (inside : position ≤ sender.written.length)
    (maxSize : UInt32) :
    lib.copyFromSequence sock.txBuffer maxSize (place isn position) =
      (sender.packetAt position maxSize.toNat).bytes := by
  have offset := holds.offset lawful later inside
  rw [lawful.copyFromSequence _ _ _ (by rw [offset, holds.length]; omega), offset, holds.bytes,
    List.drop_drop, Nat.add_sub_cancel' later]
  rfl

theorem left (lawful : lib.Lawful content) (holds : Represents lib content isn sock sender)
    {position : Nat} (later : sender.una ≤ position) (inside : position ≤ sender.written.length) :
    (lib.sizeFromSequence sock.txBuffer (place isn position)).toNat =
      sender.written.length - position := by
  have offset := holds.offset lawful later inside
  rw [lawful.sizeFromSequence _ _ (by rw [offset, holds.length]; omega), offset, holds.length]
  omega

end Represents

def released : List TcpEffect → List (UInt32 × List UInt8)
  | [] => []
  | .data _ seq packet :: rest => (seq, packet) :: released rest
  | _ :: rest => released rest

theorem released_append (left right : List TcpEffect) :
    released (left ++ right) = released left ++ released right := by
  induction left with
  | nil => rfl
  | cons effect rest ih =>
    cases effect <;> simp [released, ih]

def placed (isn : UInt32) (packet : SlidingWindow.Packet UInt8) : UInt32 × List UInt8 :=
  (place isn packet.position, packet.bytes)

/-- What the socket has done is done by the abstract sender. -/
def Simulates (lib : TcpTxBuffer β) (content : β → List UInt8) (isn : UInt32)
    (sender : SlidingWindow.Sender UInt8) (bytes : List UInt8) (sock' : TcpSocketBase β)
    (emitted : List TcpEffect) : Prop :=
  ∃ sender' packets, SlidingWindow.Moves sender packets sender' ∧
    sender'.written = sender.written ++ bytes ∧ Represents lib content isn sock' sender' ∧
    released emitted = packets.map (placed isn)

section Sending

variable {isn : UInt32} {sender : SlidingWindow.Sender UInt8}

theorem Represents.quiet (holds : Represents lib content isn sock sender)
    (buffer : sock'.txBuffer = sock.txBuffer) (next : sock'.nextTxSequence = sock.nextTxSequence)
    (high : sock'.highTxMark = sock.highTxMark) (silent : released emitted = []) :
    Simulates lib content isn sender [] sock' emitted :=
  ⟨sender, [], .none sender, by simp, ⟨by rw [buffer, holds.head], by rw [buffer, holds.bytes],
    by rw [next, holds.next], by rw [high, holds.high]⟩, silent⟩

theorem sendDataPacket_sent (lawful : lib.Lawful content)
    (holds : Represents lib content isn sock sender) {position : Nat}
    (later : sender.una ≤ position) (reached : position ≤ sender.high) (caller : TcpSender)
    (maxSize : UInt32) :
    let bytes := (sender.packetAt position maxSize.toNat).bytes
    (sendDataPacket lib sock caller (place isn position) maxSize).1.highTxMark =
        place isn (max sender.high (position + bytes.length)) ∧
      place isn position + (sendDataPacket lib sock caller (place isn position) maxSize).2.1 =
        place isn (position + bytes.length) ∧
      (sendDataPacket lib sock caller (place isn position) maxSize).2.2 =
        [.data caller (place isn position) bytes] := by
  have inside : position ≤ sender.written.length := Nat.le_trans reached sender.high_le
  have copied := holds.copy lawful later inside maxSize
  have room := holds.room lawful
  have ending := SlidingWindow.slice_end inside maxSize.toNat
  have first := sender.una_le
  have next := sender.nxt_le
  have last := sender.high_le
  simp only [sendDataPacket, copied, place_add, holds.high]
  refine ⟨?_, trivial, trivial⟩
  rw [maxSequence_place isn lawful, Nat.max_comm]
  all_goals
    change position + (sender.packetAt position maxSize.toNat).bytes.length ≤ _ at ending
    omega

theorem Simulates.trans {bytes bytes' : List UInt8} {middle : TcpSocketBase β}
    {later : List TcpEffect} (first : Simulates lib content isn sender bytes middle emitted)
    (second : ∀ sender, Represents lib content isn middle sender →
      Simulates lib content isn sender bytes' sock' later) :
    Simulates lib content isn sender (bytes ++ bytes') sock' (emitted ++ later) := by
  obtain ⟨sender', packets, moves, written, holds, same⟩ := first
  obtain ⟨sender'', packets', moves', written', holds', same'⟩ := second sender' holds
  exact ⟨sender'', packets ++ packets', moves.trans moves',
    by rw [written', written, List.append_assoc], holds',
    by rw [released_append, same, same', List.map_append]⟩

theorem Simulates.single {packets : List (SlidingWindow.Packet UInt8)}
    {sender' : SlidingWindow.Sender UInt8} (move : SlidingWindow.Move sender packets sender')
    (written : sender'.written = sender.written)
    (holds : Represents lib content isn sock' sender')
    (same : released emitted = packets.map (placed isn)) :
    Simulates lib content isn sender [] sock' emitted :=
  ⟨sender', packets, .single move, by rw [written, List.append_nil], holds, same⟩

theorem Represents.advance (lawful : lib.Lawful content)
    (holds : Represents lib content isn sock sender) (caller : TcpSender) (maxSize : UInt32)
    {sent : TcpSocketBase β} {sz : UInt32}
    (packet : sendDataPacket lib sock caller sock.nextTxSequence maxSize = (sent, sz, emitted)) :
    Simulates lib content isn sender []
      { sent with nextTxSequence := sent.nextTxSequence + sz } emitted := by
  rw [holds.next] at packet
  obtain ⟨high, next, data⟩ :=
    sendDataPacket_sent lawful holds sender.una_le sender.nxt_le caller maxSize
  have buffer : (sendDataPacket lib sock caller (place isn sender.nxt) maxSize).1.txBuffer =
      sock.txBuffer := rfl
  have still : (sendDataPacket lib sock caller (place isn sender.nxt) maxSize).1.nextTxSequence =
      place isn sender.nxt := holds.next
  rw [packet] at high next data buffer still
  refine .single (.advance sender maxSize.toNat) rfl ⟨?_, ?_, ?_, high⟩
    (congrArg released data)
  · change lib.headSequence sent.txBuffer = _
    rw [buffer]
    exact holds.head
  · change content sent.txBuffer = _
    rw [buffer]
    exact holds.bytes
  · change sent.nextTxSequence + sz = _
    rw [still]
    exact next

theorem Represents.sendPendingData (lawful : lib.Lawful content)
    (holds : Represents lib content isn sock sender) :
    Simulates lib content isn sender [] (Ns3.sendPendingData lib attributes sock).1
      (Ns3.sendPendingData lib attributes sock).2 := by
  rcases sendPendingData_cases lib attributes sock with ⟨_, idle⟩ | ⟨⟨final, outputs⟩, ran, sent⟩
  · rw [idle]
    exact holds.quiet rfl rfl rfl rfl
  · rw [sent]
    refine Loop.run_invariant
      (fun outputs state => Simulates lib content isn sender [] state outputs) ?_ []
      (holds.quiet rfl rfl rfl rfl) ran
    intro outputs state next emitted so_far pass
    obtain ⟨_, _, sent, sz, packet, rfl⟩ := sendPendingBody_next pass
    exact so_far.trans fun sender holds => holds.advance lawful _ _ packet

theorem Represents.limitedTransmit (lawful : lib.Lawful content)
    (holds : Represents lib content isn sock sender) :
    Simulates lib content isn sender [] (Ns3.limitedTransmit lib attributes sock).1
      (Ns3.limitedTransmit lib attributes sock).2 := by
  unfold Ns3.limitedTransmit
  split
  · exact holds.advance lawful _ _ rfl
  · exact holds.quiet rfl rfl rfl rfl

theorem released_sendEmptyPacket (flag : TcpFlag) :
    released (sendEmptyPacket sock flag) = [] := by
  unfold sendEmptyPacket
  split <;> rfl

theorem doRetransmit_cases (lib : TcpTxBuffer β) (sock : TcpSocketBase β) :
    ((doRetransmit lib sock).1.txBuffer = sock.txBuffer ∧
        (doRetransmit lib sock).1.nextTxSequence = sock.nextTxSequence ∧
        (doRetransmit lib sock).1.highTxMark = sock.highTxMark ∧
        released (doRetransmit lib sock).2 = []) ∨
      ∃ sent sz packets, sendDataPacket lib sock .doRetransmit (lib.headSequence sock.txBuffer)
          sock.tcb.segmentSize = (sent, sz, packets) ∧
        (doRetransmit lib sock).1.txBuffer = sent.txBuffer ∧
        (doRetransmit lib sock).1.nextTxSequence =
          maxSequence lib sent.nextTxSequence (lib.headSequence sock.txBuffer + sz) ∧
        (doRetransmit lib sock).1.highTxMark = sent.highTxMark ∧
        (doRetransmit lib sock).2 = packets := by
  unfold doRetransmit
  split
  · split
    · exact .inl ⟨rfl, rfl, rfl, released_sendEmptyPacket _⟩
    · exact .inl ⟨rfl, rfl, rfl, rfl⟩
  · split
    · exact .inl ⟨rfl, rfl, rfl, rfl⟩
    · dsimp only
      split
      · refine .inl ⟨rfl, rfl, rfl, ?_⟩
        split
        · exact released_sendEmptyPacket _
        · rfl
      · exact .inr ⟨_, _, _, rfl, rfl, rfl, rfl, rfl⟩

/-- A retransmission. `m_nextTxSequence` may still be behind the bytes that an ACK has just taken from
the buffer. -/
theorem Represents.doRetransmit_behind (lawful : lib.Lawful content)
    (holds : Represents lib content isn { sock with nextTxSequence := place isn sender.nxt } sender)
    {behind : Nat} (next : sock.nextTxSequence = place isn behind)
    (near : sender.written.length < behind + 2 ^ 31) (caught : max behind sender.una = sender.nxt) :
    ∃ sender' packets reached, SlidingWindow.Moves sender packets sender' ∧
      sender'.written = sender.written ∧ sender'.una = sender.una ∧
      (Ns3.doRetransmit lib sock).1.txBuffer = sock.txBuffer ∧
      (Ns3.doRetransmit lib sock).1.nextTxSequence = place isn reached ∧
      behind ≤ reached ∧ max reached sender.una = sender'.nxt ∧
      (Ns3.doRetransmit lib sock).1.highTxMark = place isn sender'.high ∧
      released (Ns3.doRetransmit lib sock).2 = packets.map (placed isn) := by
  rcases doRetransmit_cases lib sock with
    ⟨buffer, next', high, silent⟩ | ⟨sent, sz, packets, packet, buffer, next', high, data⟩
  · exact ⟨sender, [], behind, .none sender, rfl, rfl, buffer, by rw [next', next], Nat.le_refl _,
      caught,
      by rw [high]; exact holds.high, silent⟩
  · have first : lib.headSequence sock.txBuffer = place isn sender.una := holds.head
    rw [first] at packet next'
    have room := holds.room lawful
    have start := sender.una_le
    have reached := sender.nxt_le
    have last := sender.high_le
    obtain ⟨high', ending, bytes⟩ := sendDataPacket_sent lawful holds (Nat.le_refl sender.una)
      (Nat.le_trans start reached) .doRetransmit sock.tcb.segmentSize
    have inside := SlidingWindow.slice_end (by omega : sender.una ≤ sender.written.length)
      sock.tcb.segmentSize.toNat
    change (sendDataPacket lib sock .doRetransmit (place isn sender.una)
      sock.tcb.segmentSize).1.highTxMark = _ at high'
    change place isn sender.una + (sendDataPacket lib sock .doRetransmit (place isn sender.una)
      sock.tcb.segmentSize).2.1 = _ at ending
    change (sendDataPacket lib sock .doRetransmit (place isn sender.una)
      sock.tcb.segmentSize).2.2 = _ at bytes
    have kept : (sendDataPacket lib sock .doRetransmit (place isn sender.una)
      sock.tcb.segmentSize).1.nextTxSequence = place isn behind := next
    have same : (sendDataPacket lib sock .doRetransmit (place isn sender.una)
      sock.tcb.segmentSize).1.txBuffer = sock.txBuffer := rfl
    rw [packet] at high' ending bytes kept same
    change sender.una + (sender.packetAt sender.una sock.tcb.segmentSize.toNat).bytes.length ≤ _
      at inside
    refine ⟨sender.resend sock.tcb.segmentSize.toNat,
      [sender.packetAt sender.una sock.tcb.segmentSize.toNat],
      max behind (sender.una + (sender.packetAt sender.una sock.tcb.segmentSize.toNat).bytes.length),
      .single (.resend sender _), rfl, rfl, buffer.trans same, ?_, by omega, ?_, high.trans high',
      by rw [data]; exact congrArg released bytes⟩
    · rw [next', kept, ending, maxSequence_place isn lawful] <;> omega
    · change _ = max sender.nxt (sender.una + _)
      omega

theorem Represents.doRetransmit (lawful : lib.Lawful content)
    (holds : Represents lib content isn sock sender) :
    Simulates lib content isn sender [] (Ns3.doRetransmit lib sock).1
      (Ns3.doRetransmit lib sock).2 := by
  have room := holds.room lawful
  have start := sender.una_le
  have at_next : Represents lib content isn
      { sock with nextTxSequence := place isn sender.nxt } sender :=
    ⟨holds.head, holds.bytes, rfl, holds.high⟩
  obtain ⟨sender', packets, reached, moves, written, una, buffer, next, later, caught, high, same⟩ :=
    at_next.doRetransmit_behind lawful holds.next (by omega) (Nat.max_eq_left start)
  refine ⟨sender', packets, moves, by simp [written], ⟨?_, ?_, ?_, high⟩, same⟩
  · rw [buffer, holds.head, una]
  · rw [buffer, holds.bytes, una, written]
  · rw [next, ← caught, Nat.max_eq_left (by omega)]

theorem Represents.enterLoss (holds : Represents lib content isn sock sender) :
    Represents lib content isn (Ns3.enterLoss lib ops sock) sender := by
  unfold Ns3.enterLoss
  split
  · exact ⟨holds.head, holds.bytes, holds.next, holds.high⟩
  · exact holds

theorem Represents.retransmit (lawful : lib.Lawful content)
    (holds : Represents lib content isn sock sender) :
    Simulates lib content isn sender [] (Ns3.retransmit lib ops sock).1
      (Ns3.retransmit lib ops sock).2 := by
  unfold Ns3.retransmit
  split
  · exact holds.quiet rfl rfl rfl rfl
  · have lost := @Represents.enterLoss β lib content ops sock isn sender holds
    have restarted : Simulates lib content isn sender []
        { Ns3.enterLoss lib ops sock with
          nextTxSequence := lib.headSequence sock.txBuffer
          dupAckCount := 0 } [] :=
      .single (.restart sender) rfl ⟨lost.head, lost.bytes, holds.head, lost.high⟩ rfl
    exact restarted.trans fun sender holds => holds.doRetransmit lawful

theorem Represents.reTxTimeout (lawful : lib.Lawful content)
    (holds : Represents lib content isn sock sender) :
    Simulates lib content isn sender [] (Ns3.reTxTimeout lib ops sock).1
      (Ns3.reTxTimeout lib ops sock).2 := by
  unfold Ns3.reTxTimeout
  split
  · exact holds.quiet rfl rfl rfl rfl
  · have marked : Represents lib content isn { sock with recover := sock.highTxMark } sender :=
      ⟨holds.head, holds.bytes, holds.next, holds.high⟩
    exact marked.retransmit lawful

end Sending

section Acks

variable {isn : UInt32} {sender : SlidingWindow.Sender UInt8}

theorem Simulates.processed {result : TcpSocketBase β × List TcpEffect}
    (simulated : Simulates lib content isn sender [] result.1 result.2)
    (taken : (.ok (dupAck.processed ops result) : Except TcpAssertion _) = .ok (sock', emitted)) :
    Simulates lib content isn sender [] sock' emitted := by
  obtain ⟨sender', packets, moves, written, holds, same⟩ := simulated
  cases taken
  exact ⟨sender', packets, moves, written, ⟨holds.head, holds.bytes, holds.next, holds.high⟩, same⟩

theorem Represents.dupAck (lawful : lib.Lawful content)
    (holds : Represents lib content isn sock sender)
    (taken : Ns3.dupAck lib ops attributes sock = .ok (sock', emitted)) :
    Simulates lib content isn sender [] sock' emitted := by
  have counted (tcb : TcpSocketState) (dupAckCount recover : UInt32) : Represents lib content isn
      { sock with tcb, dupAckCount, recover } sender :=
    ⟨holds.head, holds.bytes, holds.next, holds.high⟩
  unfold Ns3.dupAck at taken
  dsimp only at taken
  split at taken
  · split at taken
    · cases taken
    · exact ((counted _ _ _).limitedTransmit lawful).processed taken
  · split at taken
    · exact ((counted _ _ _).doRetransmit lawful).processed taken
    · exact ((counted sock.tcb _ sock.recover).limitedTransmit lawful).processed taken
  · exact ((counted _ _ _).sendPendingData lawful).processed taken
  · exact ((counted sock.tcb _ sock.recover).quiet rfl rfl rfl rfl).processed taken
  · exact ((counted sock.tcb _ sock.recover).quiet rfl rfl rfl rfl).processed taken

theorem Represents.ack_position (lawful : lib.Lawful content)
    (holds : Represents lib content isn sock sender) {ackNumber : UInt32}
    (newer : lib.greater ackNumber (lib.headSequence sock.txBuffer) = true)
    (sent : lib.greater ackNumber sock.highTxMark = false) :
    ∃ position, ackNumber = place isn position ∧ sender.una < position ∧
      position ≤ sender.high := by
  have room := holds.room lawful
  have first := sender.una_le
  have next := sender.nxt_le
  have last := sender.high_le
  rw [holds.head] at newer
  rw [holds.high] at sent
  have bound := UInt32.toNat_lt (ackNumber - place isn sender.una)
  have same : ackNumber = place isn (sender.una + (ackNumber - place isn sender.una).toNat) := by
    rw [← place_add, UInt32.ofNat_toNat, UInt32.add_comm, UInt32.sub_add_cancel]
  have near := lawful.greater ackNumber (place isn sender.una)
  generalize (ackNumber - place isn sender.una).toNat = distance at bound same near
  refine ⟨sender.una + distance, same, ?_⟩
  by_cases within : distance ≤ sender.high - sender.una
  · have some : distance ≠ 0 := by
      rintro rfl
      exact absurd ((near (by omega)).mp newer) (by omega)
    omega
  · -- Above `m_highTxMark` by at least half the sequence space, so above the head by as much.
    have above := place_sub isn (show sender.high ≤ sender.una + distance by omega) (by omega)
    rw [← same] at above
    have far := lawful.greater ackNumber (place isn sender.high)
    rw [above, sent] at far
    by_cases half : distance = 2 ^ 31
    · by_cases level : sender.high = sender.una
      · rw [level, newer] at sent
        cases sent
      · exact absurd (far (by omega)) (by simp; omega)
    · have close := (near half).mp newer
      exact absurd (far (by omega)) (by simp; omega)

theorem Represents.discard (lawful : lib.Lawful content)
    (holds : Represents lib content isn sock sender) {position : Nat} (newer : sender.una < position)
    (sent : position ≤ sender.high) :
    lib.headSequence (lib.discardUpTo sock.txBuffer (place isn position)) = place isn position ∧
      content (lib.discardUpTo sock.txBuffer (place isn position)) =
        sender.written.drop position := by
  have room := holds.room lawful
  have inside := sender.high_le
  have above : lib.greater (place isn position) (lib.headSequence sock.txBuffer) = true := by
    rw [holds.head, greater_place isn lawful (by omega) (by omega)]
    exact newer
  obtain ⟨head, bytes⟩ := lawful.discardUpTo _ _ above
  refine ⟨head, ?_⟩
  rw [bytes, holds.offset lawful (Nat.le_of_lt newer) (by omega), holds.bytes, List.drop_drop,
    Nat.add_sub_cancel' (Nat.le_of_lt newer)]

theorem newAck_next (lawful : lib.Lawful content) {position reached : Nat}
    (next : sock.nextTxSequence = place isn reached) (near : position < reached + 2 ^ 31)
    (near' : reached < position + 2 ^ 31) :
    (newAck lib sock (place isn position)).nextTxSequence = place isn (max reached position) := by
  simp only [newAck, next]
  split
  next above =>
    rw [greater_place isn lawful near near'] at above
    rw [Nat.max_eq_right (Nat.le_of_lt above)]
  next below =>
    rw [greater_place isn lawful near near'] at below
    rw [Nat.max_eq_left (by omega)]

theorem Represents.newAck (lawful : lib.Lawful content)
    (holds : Represents lib content isn sock sender) {position : Nat} (newer : sender.una < position)
    (sent : position ≤ sender.high) :
    Simulates lib content isn sender [] (Ns3.newAck lib sock (place isn position)) [] := by
  have room := holds.room lawful
  have first := sender.una_le
  have reached := sender.nxt_le
  have inside := sender.high_le
  obtain ⟨head, bytes⟩ := holds.discard lawful newer sent
  exact .single (.acknowledge sender position (Nat.le_of_lt newer) sent) rfl
    ⟨head, bytes, newAck_next lawful holds.next (by omega) (by omega), holds.high⟩ rfl

/-- The retransmission of a partial ACK comes before `NewAck`, and the two are as good as the other
way round. -/
theorem Represents.partialAck (lawful : lib.Lawful content)
    (holds : Represents lib content isn sock sender) {position : Nat} (newer : sender.una < position)
    (sent : position ≤ sender.high) {acked moved : TcpSocketBase β}
    (buffer : acked.txBuffer = lib.discardUpTo sock.txBuffer (place isn position))
    (next : acked.nextTxSequence = sock.nextTxSequence)
    (high : acked.highTxMark = sock.highTxMark)
    (buffer' : moved.txBuffer = (Ns3.doRetransmit lib acked).1.txBuffer)
    (next' : moved.nextTxSequence = (Ns3.doRetransmit lib acked).1.nextTxSequence)
    (high' : moved.highTxMark = (Ns3.doRetransmit lib acked).1.highTxMark) :
    Simulates lib content isn sender [] (Ns3.newAck lib moved (place isn position))
      (Ns3.doRetransmit lib acked).2 := by
  have room := holds.room lawful
  have first := sender.una_le
  have behind := sender.nxt_le
  have inside := sender.high_le
  obtain ⟨head, bytes⟩ := holds.discard lawful newer sent
  have acknowledged : Represents lib content isn
      { acked with nextTxSequence := place isn (sender.acknowledge position sent).nxt }
      (sender.acknowledge position sent) :=
    ⟨by rw [buffer]; exact head, by rw [buffer]; exact bytes, rfl, high.trans holds.high⟩
  obtain ⟨sender', packets, reached, moves, written, una, kept, now, later, caught, high'', same⟩ :=
    acknowledged.doRetransmit_behind lawful (next.trans holds.next)
      (show sender.written.length < sender.nxt + 2 ^ 31 by omega) rfl
  change max reached position = sender'.nxt at caught
  change sender'.una = position at una
  change sender'.written = sender.written at written
  have end' := sender'.high_le
  have reached' := sender'.nxt_le
  have still : lib.discardUpTo moved.txBuffer (place isn position) = acked.txBuffer := by
    rw [buffer', kept]
    refine lawful.keeps _ _ ?_
    rw [buffer, head, Bool.eq_false_iff, Ne, greater_place isn lawful (by omega) (by omega)]
    omega
  refine ⟨sender', packets, ?_, by simp [written], ⟨?_, ?_, ?_, high'.trans high''⟩, same⟩
  · simpa using SlidingWindow.Moves.trans
      (.single (.acknowledge sender position (Nat.le_of_lt newer) sent)) moves
  · change lib.headSequence (lib.discardUpTo moved.txBuffer (place isn position)) = _
    rw [still, buffer, head, una]
  · change content (lib.discardUpTo moved.txBuffer (place isn position)) = _
    rw [still, buffer, bytes, una, written]
  · rw [newAck_next lawful (next'.trans now) (by rw [written] at end'; omega)
      (by rw [written] at end'; omega), caught]

theorem Represents.congestionAck (lawful : lib.Lawful content)
    (holds : Represents lib content isn sock sender) {position : Nat} (newer : sender.una < position)
    (sent : position ≤ sender.high) {bytesAcked newSegsAcked dataRetrCount : UInt32}
    (acked : Ns3.congestionAck lib ops sock (place isn position) bytesAcked newSegsAcked =
      (sock', emitted)) :
    Simulates lib content isn sender []
      (Ns3.newAck lib { sock' with dataRetrCount } (place isn position)) emitted := by
  have quiet (tcb : TcpSocketState) (dupAckCount retransOut : UInt32) (isFirstPartialAck : Bool) :
      Represents lib content isn
        { sock with tcb, dupAckCount, retransOut, isFirstPartialAck, dataRetrCount } sender :=
    ⟨holds.head, holds.bytes, holds.next, holds.high⟩
  unfold Ns3.congestionAck at acked
  dsimp only at acked
  split at acked
  · cases acked
    exact (quiet _ sock.dupAckCount sock.retransOut sock.isFirstPartialAck).newAck lawful newer sent
  · cases acked
    exact (quiet _ 0 0 sock.isFirstPartialAck).newAck lawful newer sent
  · split at acked
    · cases acked
      exact holds.partialAck lawful newer sent rfl rfl rfl rfl rfl rfl
    · cases acked
      exact (quiet _ 0 0 true).newAck lawful newer sent
  · cases acked
    exact (quiet _ 0 0 true).newAck lawful newer sent
  · cases acked
    exact (quiet _ sock.dupAckCount sock.retransOut sock.isFirstPartialAck).newAck lawful newer sent

theorem Represents.receivedAck (lawful : lib.Lawful content)
    (holds : Represents lib content isn sock sender) {ackNumber : UInt32} {packetSize : Nat}
    (sent : lib.greater ackNumber sock.highTxMark = false)
    (taken : Ns3.receivedAck lib ops attributes sock ackNumber packetSize = .ok (sock', emitted)) :
    Simulates lib content isn sender [] sock' emitted := by
  obtain ⟨counted, same, effect⟩ := receivedAck_cases taken
  have holds' : Represents lib content isn counted sender := by
    rw [same]
    exact ⟨holds.head, holds.bytes, holds.next, holds.high⟩
  rcases effect with ⟨rfl, rfl⟩ | ⟨_, _, dup⟩ | ⟨newer, moved, newSegsAcked, acked, rfl⟩
  · exact holds'.quiet rfl rfl rfl rfl
  · exact holds'.dupAck lawful dup
  · obtain ⟨position, rfl, above, within⟩ := holds.ack_position lawful newer sent
    exact holds'.congestionAck lawful above within acked

end Acks

section Machine

variable {isn : UInt32} {sender : SlidingWindow.Sender UInt8}

/-- No ACK above `m_highTxMark`. An established socket checks it by itself. -/
def Acceptable (lib : TcpTxBuffer β) (sock : TcpSocketBase β) : TcpEvent → Prop
  | .ack segment =>
    sock.state = .established ∨ lib.greater segment.ackNumber sock.highTxMark = false
  | _ => True

def accepted (lib : TcpTxBuffer β) (sock : TcpSocketBase β) : TcpEvent → List UInt8
  | .send packet =>
    if (sock.state = .established ∨ sock.state = .synSent ∨ sock.state = .closeWait) ∧
        (lib.add sock.txBuffer packet).isSome then
      packet
    else
      []
  | _ => []

theorem Represents.updateWindowSize (holds : Represents lib content isn sock sender)
    (segment : TcpSegment) :
    Represents lib content isn (Ns3.updateWindowSize lib sock segment) sender := by
  unfold Ns3.updateWindowSize
  split <;> exact ⟨holds.head, holds.bytes, holds.next, holds.high⟩

theorem Represents.send (lawful : lib.Lawful content)
    (holds : Represents lib content isn sock sender) (packet : List UInt8) :
    Simulates lib content isn sender (accepted lib sock (.send packet)) (sock.send lib packet)
      [] := by
  simp only [TcpSocketBase.send, accepted]
  by_cases ready : sock.state = .established ∨ sock.state = .synSent ∨ sock.state = .closeWait
  · simp only [ready, if_true, true_and]
    cases added : lib.add sock.txBuffer packet with
    | none => exact holds.quiet rfl rfl rfl rfl
    | some txBuffer =>
      obtain ⟨head, bytes⟩ := lawful.add _ _ _ added
      have start := sender.una_le
      have reached := sender.nxt_le
      have inside := sender.high_le
      refine ⟨sender.write packet, [], .single (.write sender packet), rfl, ⟨?_, ?_, holds.next,
        holds.high⟩, rfl⟩
      · exact head.trans holds.head
      · change content txBuffer = (sender.written ++ packet).drop sender.una
        rw [bytes, holds.bytes, List.drop_append_of_le_length (by omega)]
  · simp only [ready, if_false, false_and]
    exact holds.quiet rfl rfl rfl rfl

theorem Represents.processAck (lawful : lib.Lawful content)
    (holds : Represents lib content isn sock sender) {segment : TcpSegment}
    (fine : sock.state = .established ∨ lib.greater segment.ackNumber sock.highTxMark = false)
    (taken : Ns3.processAck lib ops attributes sock segment = .ok (sock', emitted)) :
    Simulates lib content isn sender [] sock' emitted := by
  rcases processAck_cases taken with ⟨rfl, rfl | rfl⟩ | ⟨checked, received⟩
  · exact holds.quiet rfl rfl rfl rfl
  · exact holds.quiet rfl rfl rfl (released_sendEmptyPacket _)
  · exact holds.receivedAck lawful (fine.elim checked id) received

theorem Represents.step (lawful : lib.Lawful content)
    (holds : Represents lib content isn sock sender) {event : TcpEvent}
    (fine : Acceptable lib sock event)
    (taken : TcpSocketBase.step lib ops attributes sock event = .ok (sock', emitted)) :
    Simulates lib content isn sender (accepted lib sock event) sock' emitted := by
  cases event with
  | syn windowSize ackNumber =>
    cases taken
    exact holds.quiet rfl rfl rfl rfl
  | ack segment =>
    refine (holds.updateWindowSize segment).processAck lawful ?_ taken
    have kept : (Ns3.updateWindowSize lib sock segment).state = sock.state ∧
        (Ns3.updateWindowSize lib sock segment).highTxMark = sock.highTxMark := by
      unfold Ns3.updateWindowSize
      split <;> exact ⟨rfl, rfl⟩
    rw [kept.1, kept.2]
    exact fine
  | sendPendingData =>
    have simulated := @Represents.sendPendingData β lib content attributes sock isn sender lawful holds
    rwa [show Ns3.sendPendingData lib attributes sock = (sock', emitted) from
      Except.ok.inj taken] at simulated
  | reTxTimeout =>
    have simulated := @Represents.reTxTimeout β lib content ops sock isn sender lawful holds
    rwa [show Ns3.reTxTimeout lib ops sock = (sock', emitted) from
      Except.ok.inj taken] at simulated
  | persistTimeout =>
    cases taken
    exact holds.quiet rfl rfl rfl rfl
  | send packet =>
    cases taken
    exact holds.send lawful packet
  | outside written =>
    cases taken
    exact holds.quiet rfl rfl rfl rfl

variable {tcb : TcpSocketState} {txBuffer : β} {rWnd : UInt32}
  {history : Machine.History TcpEvent TcpEffect}

def writtenStream (lib : TcpTxBuffer β) (content : β → List UInt8) (ops : TcpCongestionOps)
    (attributes : TcpAttributes) (initial : TcpSocketBase β)
    (history : Machine.History TcpEvent TcpEffect) : List UInt8 :=
  content initial.txBuffer ++
    Machine.collect (TcpSocketBase.step lib ops attributes) (accepted lib) initial
      (Machine.events history)

/-- Whatever the algorithm, the losses and the timeouts: the packets are the moves of an abstract
sender over the stream that the application has written. -/
theorem run_simulates (lawful : lib.Lawful content)
    (run : Machine.Run (TcpSocketBase.step lib ops attributes)
      (TcpSocketBase.established lib attributes tcb txBuffer rWnd) history sock)
    (fine : Machine.Guarded (TcpSocketBase.step lib ops attributes)
      (TcpSocketBase.established lib attributes tcb txBuffer rWnd) (Acceptable lib) history) :
    ∃ sender packets,
      SlidingWindow.Moves (.fresh (content txBuffer)) packets sender ∧
      sender.written = writtenStream lib content ops attributes
        (TcpSocketBase.established lib attributes tcb txBuffer rWnd) history ∧
      Represents lib content (lib.headSequence txBuffer) sock sender ∧
      released (Machine.outputs history) = packets.map (placed (lib.headSequence txBuffer)) := by
  refine run.invariant (fun history sock =>
    Machine.Guarded _ _ (Acceptable lib) history → ∃ sender packets,
      SlidingWindow.Moves (.fresh (content txBuffer)) packets sender ∧
      sender.written = writtenStream lib content ops attributes
        (TcpSocketBase.established lib attributes tcb txBuffer rWnd) history ∧
      Represents lib content (lib.headSequence txBuffer) sock sender ∧
      released (Machine.outputs history) = packets.map (placed (lib.headSequence txBuffer)))
    ?_ ?_ fine
  · intro _
    refine ⟨.fresh (content txBuffer), [], .none _, ?_, ⟨?_, rfl, ?_, ?_⟩, rfl⟩
    · exact (List.append_nil _).symm
    all_goals exact (place_zero _).symm
  · intro history sock event sock' emitted before holds taken fine
    obtain ⟨sender, packets, moves, written, represents, same⟩ := holds fine.before
    obtain ⟨sender', packets', moves', written', represents', same'⟩ :=
      represents.step lawful (fine.last before) taken
    refine ⟨sender', packets ++ packets', moves.trans moves', ?_, represents', ?_⟩
    · simp only [writtenStream] at written ⊢
      rw [written', written, before.collect (accepted lib) (event, emitted), List.append_assoc]
    · rw [Machine.outputs_append, released_append, same, List.map_append, ← same']
      simp

structure StreamReleased (lib : TcpTxBuffer β) (content : β → List UInt8) (isn : UInt32)
    (stream : List UInt8) (sock : TcpSocketBase β) (packets : List (UInt32 × List UInt8))
    (acked next sent : Nat) : Prop where
  ordered : acked ≤ next ∧ next ≤ sent ∧ sent ≤ stream.length
  head : lib.headSequence sock.txBuffer = place isn acked
  unacked : content sock.txBuffer = stream.drop acked
  nextTxSequence : sock.nextTxSequence = place isn next
  highTxMark : sock.highTxMark = place isn sent
  piece : ∀ seq packet, (seq, packet) ∈ packets → ∃ position,
    seq = place isn position ∧ position + packet.length ≤ sent ∧
      packet = (stream.drop position).take packet.length
  covered : ∀ position < sent, ∃ start packet,
    (place isn start, packet) ∈ packets ∧ start ≤ position ∧ position < start + packet.length

/-- What an established socket has sent is its stream up to `m_highTxMark`, every packet at its place
and no byte left out, and it still holds every byte that is not acknowledged. -/
theorem stream_released (lawful : lib.Lawful content)
    (run : Machine.Run (TcpSocketBase.step lib ops attributes)
      (TcpSocketBase.established lib attributes tcb txBuffer rWnd) history sock)
    (fine : Machine.Guarded (TcpSocketBase.step lib ops attributes)
      (TcpSocketBase.established lib attributes tcb txBuffer rWnd) (Acceptable lib) history) :
    ∃ acked next sent, StreamReleased lib content (lib.headSequence txBuffer)
      (writtenStream lib content ops attributes
        (TcpSocketBase.established lib attributes tcb txBuffer rWnd) history)
      sock (released (Machine.outputs history)) acked next sent := by
  obtain ⟨sender, packets, moves, written, represents, same⟩ := run_simulates lawful run fine
  have sent := moves.released
  rw [← written, same]
  refine ⟨sender.una, sender.nxt, sender.high, ⟨sender.una_le, sender.nxt_le, sender.high_le⟩,
    represents.head, represents.bytes, represents.next, represents.high, ?_, ?_⟩
  · intro seq bytes mem
    obtain ⟨packet, member, equal⟩ := List.mem_map.mp mem
    cases equal
    exact ⟨packet.position, rfl, sent.below packet member, (sent.piece packet member).2⟩
  · intro position below
    obtain ⟨packet, member, starts, ends⟩ := sent.covered position (Nat.zero_le _) below
    exact ⟨packet.position, packet.bytes, List.mem_map_of_mem member, starts, ends⟩

theorem stream_released_example : ∃ history sock acked next sent,
    Machine.events history =
      [.sendPendingData, .reTxTimeout, .send [6], .ack exampleSegment, .sendPendingData] ∧
    StreamReleased txBytes TxBytes.bytes 0xfffffffe
      (writtenStream txBytes TxBytes.bytes tcpFixed exampleAttributes
        (TcpSocketBase.established txBytes exampleAttributes exampleTcb exampleBuffer 4) history)
      sock (released (Machine.outputs history)) acked next sent := by
  have fresh : Machine.Run (TcpSocketBase.step txBytes tcpFixed exampleAttributes)
      (TcpSocketBase.established txBytes exampleAttributes exampleTcb exampleBuffer 4) [] _ := .start
  have sent := fresh.next .sendPendingData _ _ rfl
  have late := sent.next .reTxTimeout _ _ rfl
  have more := late.next (.send [6]) _ _ rfl
  have acked := more.next (.ack exampleSegment) _ _ rfl
  have all := acked.next .sendPendingData _ _ rfl
  obtain ⟨acked, next, sent, holds⟩ := stream_released txBytes_lawful all
    (.next (.next (.next (.next (.next (.start _ _ _) fresh trivial) sent trivial) late trivial)
      more (Or.inl rfl)) acked trivial)
  exact ⟨_, _, acked, next, sent, rfl, holds⟩

end Machine

end NetworkProj.Ns3
