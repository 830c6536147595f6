import NetworkProj.Tcp.Sequence

set_option autoImplicit false

namespace NetworkProj.Ns3

variable {β : Type} {lib : TcpTxBuffer β} {content : β → List UInt8} {ops : TcpCongestionOps}
  {attributes : TcpAttributes} {sock sock' : TcpSocketBase β} {emitted : List TcpEffect}

section PendingData

def InWindow (lib : TcpTxBuffer β) (sock : TcpSocketBase β) : TcpEffect → Prop
  | .data .sendPendingData seq packet =>
    packet.length ≤ sock.tcb.segmentSize.toNat ∧
      (seq - lib.headSequence sock.txBuffer).toNat + packet.length ≤
        (min sock.rWnd sock.tcb.cWnd).toNat
  | .data _ _ _ | .probe _ _ | .empty _ | .connectionFailed | .errorClose => False

theorem toNat_pos {value : UInt32} (some : value ≠ 0) : 0 < value.toNat := by
  rw [← UInt32.toNat_zero, ← UInt32.lt_iff_toNat_lt]
  exact UInt32.pos_iff_ne_zero.mpr some

theorem toNat_min (left right : UInt32) :
    (min left right).toNat = min left.toNat right.toNat := by
  change (if left ≤ right then left else right).toNat = _
  split
  next ordered => rw [Nat.min_eq_left (UInt32.le_iff_toNat_le.mp ordered)]
  next other =>
    have ordered := UInt32.le_iff_toNat_le.mp (UInt32.le_of_lt (UInt32.not_le.mp other))
    rw [Nat.min_eq_right ordered]

theorem availableWindow_le (some : availableWindow lib sock ≠ 0) :
    (unAckDataCount lib sock).toNat + (availableWindow lib sock).toNat = (window sock).toNat := by
  unfold availableWindow at some ⊢
  dsimp only at some ⊢
  split at some
  next small => exact absurd rfl some
  next wide =>
    rw [if_neg wide]
    have fits := UInt32.not_lt.mp wide
    rw [UInt32.toNat_sub_of_le _ _ fits]
    have ordered := UInt32.le_iff_toNat_le.mp fits
    omega

-- The test against a silly window never lets an empty packet through.
theorem pass_wide (full : sock.tcb.segmentSize ≠ 0)
    (left : lib.sizeFromSequence sock.txBuffer sock.nextTxSequence ≠ 0)
    (room : ¬ (availableWindow lib sock < sock.tcb.segmentSize ∧
      lib.sizeFromSequence sock.txBuffer sock.nextTxSequence > availableWindow lib sock)) :
    availableWindow lib sock ≠ 0 := by
  intro none
  rw [none] at room
  exact room ⟨UInt32.pos_iff_ne_zero.mpr full, UInt32.pos_iff_ne_zero.mpr left⟩

theorem sendPendingBody_inWindow (lawful : lib.Lawful content) (full : sock.tcb.segmentSize ≠ 0)
    {next : TcpSocketBase β} (pass : sendPendingBody lib attributes sock = .ok (some (next, emitted))) :
    (next.txBuffer = sock.txBuffer ∧ next.rWnd = sock.rWnd ∧ next.tcb = sock.tcb) ∧
      ∀ effect ∈ emitted, InWindow lib sock effect := by
  obtain ⟨left, room, sent, sz, packet, rfl⟩ := sendPendingBody_next pass
  cases packet
  refine ⟨⟨rfl, rfl, rfl⟩, ?_⟩
  intro effect mem
  cases List.mem_singleton.mp mem
  have whole := availableWindow_le (pass_wide full left room)
  have fits := lawful.fits sock.txBuffer (min (availableWindow lib sock) sock.tcb.segmentSize)
    sock.nextTxSequence
  rw [toNat_min] at fits
  simp only [unAckDataCount, window] at whole
  exact ⟨by omega, by omega⟩

theorem sendPendingData_inWindow (lawful : lib.Lawful content) (full : sock.tcb.segmentSize ≠ 0) :
    ∀ effect ∈ (sendPendingData lib attributes sock).2, InWindow lib sock effect := by
  rcases sendPendingData_cases lib attributes sock with ⟨_, idle⟩ | ⟨⟨final, outputs⟩, ran, sent⟩
  · rw [idle]
    simp
  · rw [sent]
    refine (Loop.run_invariant (fun outputs state =>
      (state.txBuffer = sock.txBuffer ∧ state.rWnd = sock.rWnd ∧ state.tcb = sock.tcb) ∧
        ∀ effect ∈ outputs, InWindow lib sock effect) ?_ [] ⟨⟨rfl, rfl, rfl⟩, by simp⟩ ran).2
    intro outputs state next emitted so_far pass
    obtain ⟨⟨buffer, rWnd, tcb⟩, inside⟩ := so_far
    obtain ⟨⟨buffer', rWnd', tcb'⟩, fits⟩ := sendPendingBody_inWindow lawful (tcb ▸ full) pass
    refine ⟨⟨buffer'.trans buffer, rWnd'.trans rWnd, tcb'.trans tcb⟩, ?_⟩
    intro effect mem
    rcases List.mem_append.mp mem with old | new
    · exact inside effect old
    · have fits := fits effect new
      unfold InWindow at fits ⊢
      rwa [buffer, rWnd, tcb] at fits

theorem sendPendingBody_falls (lawful : lib.Lawful content) (full : sock.tcb.segmentSize ≠ 0)
    {isn : UInt32} {sender : SlidingWindow.Sender UInt8}
    (holds : Represents lib content isn sock sender) {next : TcpSocketBase β}
    (pass : sendPendingBody lib attributes sock = .ok (some (next, emitted))) :
    (lib.sizeFromSequence next.txBuffer next.nextTxSequence).toNat <
      (lib.sizeFromSequence sock.txBuffer sock.nextTxSequence).toNat := by
  obtain ⟨left, room, sent, sz, packet, rfl⟩ := sendPendingBody_next pass
  have wide := toNat_pos (pass_wide full left room)
  have some := toNat_pos full
  have more := toNat_pos left
  have inside := Nat.le_trans sender.nxt_le sender.high_le
  obtain ⟨_, ending, _⟩ := sendDataPacket_sent lawful holds sender.una_le sender.nxt_le
    .sendPendingData (min (availableWindow lib sock) sock.tcb.segmentSize)
  rw [← holds.next, packet] at ending
  have size : (sender.packetAt sender.nxt
      (min (availableWindow lib sock) sock.tcb.segmentSize).toNat).bytes.length =
        min (min (availableWindow lib sock).toNat sock.tcb.segmentSize.toNat)
          (sender.written.length - sender.nxt) := by
    simp [SlidingWindow.Sender.packetAt, SlidingWindow.slice, toNat_min]
  generalize (sender.packetAt sender.nxt
    (min (availableWindow lib sock) sock.tcb.segmentSize).toNat).bytes.length = count at ending size
  have before := holds.left lawful sender.una_le inside
  rw [← holds.next] at before
  have after := holds.left lawful (show sender.una ≤ sender.nxt + count from
    Nat.le_trans sender.una_le (Nat.le_add_right _ _)) (by omega)
  cases packet
  change (lib.sizeFromSequence sock.txBuffer (sock.nextTxSequence + _)).toNat < _
  rw [ending, after, before]
  omega

def Ready (lib : TcpTxBuffer β) (content : β → List UInt8) (isn segmentSize : UInt32)
    (sock : TcpSocketBase β) : Prop :=
  (∃ sender, Represents lib content isn sock sender) ∧ sock.tcb.segmentSize = segmentSize

theorem Ready.next (lawful : lib.Lawful content) {isn segmentSize : UInt32}
    (full : segmentSize ≠ 0) (holds : Ready lib content isn segmentSize sock) {next : TcpSocketBase β}
    (pass : sendPendingBody lib attributes sock = .ok (some (next, emitted))) :
    Ready lib content isn segmentSize next := by
  obtain ⟨⟨sender, represents⟩, size⟩ := holds
  obtain ⟨⟨_, _, same⟩, _⟩ := sendPendingBody_inWindow lawful (size ▸ full) pass
  obtain ⟨_, _, sent, sz, packet, rfl⟩ := sendPendingBody_next pass
  obtain ⟨sender', _, _, _, represents', _⟩ := represents.advance lawful _ _ packet
  exact ⟨⟨sender', represents'⟩, by rw [same, size]⟩

variable {tcb : TcpSocketState} {txBuffer : β} {rWnd : UInt32}
  {history : Machine.History TcpEvent TcpEffect}

/-- From every reachable state the loop of `SendPendingData` comes to an end, and then only the
window or Nagle's algorithm holds back what is left. -/
theorem sendPendingData_settles (writes : ops.WindowOnly) (lawful : lib.Lawful content)
    (full : tcb.segmentSize ≠ 0)
    (run : Machine.Run (TcpSocketBase.step lib ops attributes)
      (TcpSocketBase.established lib attributes tcb txBuffer rWnd) history sock)
    (fine : Machine.Guarded (TcpSocketBase.step lib ops attributes)
      (TcpSocketBase.established lib attributes tcb txBuffer rWnd) (Acceptable lib) history)
    (endPoint : sock.endPoint = true) :
    let sock' := (sendPendingData lib attributes sock).1
    let left := lib.sizeFromSequence sock'.txBuffer sock'.nextTxSequence
    left = 0 ∨
      (availableWindow lib sock' < tcb.segmentSize ∧ left > availableWindow lib sock') ∨
      (attributes.noDelay = false ∧ unAckDataCount lib sock' > 0 ∧ left < tcb.segmentSize) := by
  obtain ⟨sender, _, _, _, holds, _⟩ := run_simulates lawful run fine
  have segmentSize : sock.tcb.segmentSize = tcb.segmentSize :=
    (run_consistent writes run).segmentSize
  dsimp only
  by_cases empty : lib.size sock.txBuffer = 0
  · -- Nothing is left of an empty buffer.
    have inside := Nat.le_trans sender.nxt_le sender.high_le
    have size := lawful.size sock.txBuffer
    have whole := holds.left lawful sender.una_le inside
    rw [empty, UInt32.toNat_zero, holds.length] at size
    rw [← holds.next] at whole
    have later := sender.una_le
    simp only [sendPendingData, empty, true_or, if_true]
    exact .inl (UInt32.toNat_inj.mp (by rw [whole, UInt32.toNat_zero]; omega))
  · obtain ⟨⟨final, outputs⟩, ran, sent⟩ :=
      (sendPendingData_cases lib attributes sock).resolve_left (by simp [empty, endPoint])
    have reaches : Ready lib content (lib.headSequence txBuffer) tcb.segmentSize sock :=
      ⟨⟨sender, holds⟩, segmentSize⟩
    have finished := Loop.run_done_of (Ready lib content (lib.headSequence txBuffer) tcb.segmentSize)
      (fun state => (lib.sizeFromSequence state.txBuffer state.nextTxSequence).toNat)
      (fun state next emitted holds pass => holds.next lawful full pass)
      (fun state next emitted holds pass =>
        holds.1.elim fun sender represents =>
          sendPendingBody_falls lawful (holds.2 ▸ full) represents pass)
      reaches (Nat.lt_succ_self _) ran
    have ready : Ready lib content (lib.headSequence txBuffer) tcb.segmentSize final :=
      Loop.run_invariant (fun _ => Ready lib content (lib.headSequence txBuffer) tcb.segmentSize)
        (fun _ state next emitted holds pass => holds.next lawful full pass) [] reaches ran
    have reasons := sendPendingBody_none finished
    rw [ready.2, Bool.not_eq_true] at reasons
    rwa [sent]

theorem sendPendingData_settles_example : ∃ history sock,
    Machine.Run (TcpSocketBase.step txBytes tcpFixed exampleAttributes)
        (TcpSocketBase.established txBytes exampleAttributes exampleTcb exampleBuffer 4) history
        sock ∧
      Machine.events history = [.send [6]] ∧
      let sock' := (sendPendingData txBytes exampleAttributes sock).1
      let left := txBytes.sizeFromSequence sock'.txBuffer sock'.nextTxSequence
      left = 0 ∨ (availableWindow txBytes sock' < 2 ∧ left > availableWindow txBytes sock') ∨
        (exampleAttributes.noDelay = false ∧ unAckDataCount txBytes sock' > 0 ∧ left < 2) := by
  have fresh : Machine.Run (TcpSocketBase.step txBytes tcpFixed exampleAttributes)
      (TcpSocketBase.established txBytes exampleAttributes exampleTcb exampleBuffer 4) [] _ := .start
  have more := fresh.next (.send [6]) _ _ rfl
  exact ⟨_, _, more, rfl, sendPendingData_settles tcpFixed_windowOnly txBytes_lawful (by decide) more
    (.next (.start _ _ _) fresh trivial) rfl⟩

end PendingData

section Steps

/-- The window that `SendPendingData` finds in a step: a duplicate ACK in RECOVERY opens it first. -/
def openedWindow (sock : TcpSocketBase β) : TcpEvent → UInt32
  | .ack _ => (guardedWindow sock.tcb (sock.tcb.cWnd + sock.tcb.segmentSize)).cWnd
  | .syn _ _ | .sendPendingData | .reTxTimeout | .persistTimeout | .send _ | .outside _ =>
    sock.tcb.cWnd

structure SendLimits where
  head : UInt32
  rWnd : UInt32
  cWnd : UInt32
  segmentSize : UInt32
  congState : TcpCongState

/-- How far a step may send beyond the last ACK. Limited transmit does not ask for the window. -/
def Allowed (attributes : TcpAttributes) (limits : SendLimits) : TcpEffect → Prop
  | .data .sendPendingData seq packet =>
    packet.length ≤ limits.segmentSize.toNat ∧
      (seq - limits.head).toNat + packet.length ≤ (min limits.rWnd limits.cWnd).toNat
  | .data .doRetransmit seq packet =>
    packet.length ≤ limits.segmentSize.toNat ∧ seq = limits.head
  | .data .limitedTransmit _ packet =>
    packet.length ≤ limits.segmentSize.toNat ∧ attributes.limitedTx ∧
      limits.congState = .disorder
  | .probe _ _ | .empty _ | .connectionFailed | .errorClose => True

def limitsAfter (lib : TcpTxBuffer β) (cWnd : UInt32) (sock' : TcpSocketBase β) : SendLimits where
  head := lib.headSequence sock'.txBuffer
  rWnd := sock'.rWnd
  cWnd
  segmentSize := sock'.tcb.segmentSize
  congState := sock'.tcb.congState

variable {limits : SendLimits}

theorem allowed_of_silent (silent : released emitted = []) :
    ∀ effect ∈ emitted, Allowed attributes limits effect := by
  intro effect mem
  cases effect with
  | data sender seq packet =>
    obtain ⟨before, after, rfl⟩ := List.append_of_mem mem
    rw [released_append] at silent
    simp [released] at silent
  | _ => trivial

theorem InWindow.allowed {effect : TcpEffect} (inside : InWindow lib sock effect)
    (head : limits.head = lib.headSequence sock.txBuffer) (rWnd : limits.rWnd = sock.rWnd)
    (cWnd : limits.cWnd = sock.tcb.cWnd) (segmentSize : limits.segmentSize = sock.tcb.segmentSize) :
    Allowed attributes limits effect := by
  unfold InWindow at inside
  split at inside
  next seq packet =>
    rw [← head, ← rWnd, ← cWnd, ← segmentSize] at inside
    exact inside
  all_goals exact inside.elim

theorem limitedTransmit_allowed (lawful : lib.Lawful content)
    (segmentSize : limits.segmentSize = sock.tcb.segmentSize)
    (disorder : limits.congState = .disorder) :
    ∀ effect ∈ (limitedTransmit lib attributes sock).2, Allowed attributes limits effect := by
  unfold limitedTransmit
  split
  next ready =>
    intro effect mem
    cases List.mem_singleton.mp mem
    exact ⟨segmentSize ▸ lawful.fits _ _ _, ready.1, disorder⟩
  · simp

theorem doRetransmit_allowed (lawful : lib.Lawful content)
    (segmentSize : limits.segmentSize = sock.tcb.segmentSize)
    (head : limits.head = lib.headSequence sock.txBuffer) :
    ∀ effect ∈ (doRetransmit lib sock).2, Allowed attributes limits effect := by
  rcases doRetransmit_cases lib sock with ⟨_, _, _, silent⟩ | ⟨sent, sz, packets, packet, _, _, _, data⟩
  · exact allowed_of_silent silent
  · rw [data]
    cases packet
    intro effect mem
    cases List.mem_singleton.mp mem
    exact ⟨segmentSize ▸ lawful.fits _ _ _, head.symm⟩

theorem sendPendingData_limits (cWnd : UInt32) :
    limitsAfter lib cWnd (sendPendingData lib attributes sock).1 = limitsAfter lib cWnd sock := by
  rcases sendPendingData_cases lib attributes sock with ⟨_, idle⟩ | ⟨⟨final, outputs⟩, ran, sent⟩
  · rw [idle]
  · rw [sent]
    refine Loop.run_invariant
      (fun _ state => limitsAfter lib cWnd state = limitsAfter lib cWnd sock) ?_ [] rfl ran
    intro outputs state next emitted so_far pass
    obtain ⟨_, _, sent, sz, packet, rfl⟩ := sendPendingBody_next pass
    cases packet
    exact so_far

theorem limitedTransmit_limits (cWnd : UInt32) :
    limitsAfter lib cWnd (limitedTransmit lib attributes sock).1 = limitsAfter lib cWnd sock := by
  unfold limitedTransmit
  split <;> rfl

theorem doRetransmit_limits (cWnd : UInt32) :
    limitsAfter lib cWnd (doRetransmit lib sock).1 = limitsAfter lib cWnd sock := by
  unfold doRetransmit
  split
  · split <;> rfl
  · split
    · rfl
    · dsimp only
      split <;> rfl

theorem processed_limits (lib : TcpTxBuffer β) (writes : ops.WindowOnly)
    {result : TcpSocketBase β × List TcpEffect} (cWnd : UInt32)
    (taken : (.ok (dupAck.processed ops result) : Except TcpAssertion _) = .ok (sock', emitted)) :
    limitsAfter lib cWnd sock' = limitsAfter lib cWnd result.1 ∧ emitted = result.2 := by
  cases taken
  obtain ⟨congState, segmentSize, _, _⟩ := writes.acked result.1.tcb 1
  simp [limitsAfter, congState, segmentSize]

theorem dupAck_allowed (writes : ops.WindowOnly) (lawful : lib.Lawful content)
    (full : sock.tcb.segmentSize ≠ 0)
    (taken : dupAck lib ops attributes sock = .ok (sock', emitted)) :
    ∀ effect ∈ emitted, Allowed attributes (limitsAfter lib
      (guardedWindow sock.tcb (sock.tcb.cWnd + sock.tcb.segmentSize)).cWnd sock') effect := by
  unfold dupAck at taken
  dsimp only at taken
  split at taken
  next state =>
    split at taken
    · cases taken
    · obtain ⟨limits, same⟩ := processed_limits lib writes
        (guardedWindow sock.tcb (sock.tcb.cWnd + sock.tcb.segmentSize)).cWnd taken
      rw [limits, same, limitedTransmit_limits]
      exact limitedTransmit_allowed lawful rfl rfl
  next state =>
    split at taken
    · obtain ⟨limits, same⟩ := processed_limits lib writes
        (guardedWindow sock.tcb (sock.tcb.cWnd + sock.tcb.segmentSize)).cWnd taken
      rw [limits, same, doRetransmit_limits]
      exact doRetransmit_allowed lawful rfl rfl
    · obtain ⟨limits, same⟩ := processed_limits lib writes
        (guardedWindow sock.tcb (sock.tcb.cWnd + sock.tcb.segmentSize)).cWnd taken
      rw [limits, same, limitedTransmit_limits]
      exact limitedTransmit_allowed lawful rfl state
  next state =>
    obtain ⟨limits, same⟩ := processed_limits lib writes
      (guardedWindow sock.tcb (sock.tcb.cWnd + sock.tcb.segmentSize)).cWnd taken
    rw [limits, same, sendPendingData_limits]
    intro effect mem
    exact (sendPendingData_inWindow lawful (by simpa using full) effect mem).allowed rfl rfl rfl rfl
  all_goals
    cases taken
    simp

theorem doRetransmit_txBuffer (lib : TcpTxBuffer β) (sock : TcpSocketBase β) :
    (doRetransmit lib sock).1.txBuffer = sock.txBuffer := by
  rcases doRetransmit_cases lib sock with ⟨buffer, _⟩ | ⟨sent, sz, packets, packet, buffer, _⟩
  · exact buffer
  · cases packet
    exact buffer

-- `NewAck` finds nothing to discard when a partial ACK has done so.
theorem discard_again (lawful : lib.Lawful content) {buffer buffer' : β} {ackNumber : UInt32}
    (newer : lib.greater ackNumber (lib.headSequence buffer) = true)
    (same : buffer' = lib.discardUpTo buffer ackNumber) :
    lib.discardUpTo buffer' ackNumber = lib.discardUpTo buffer ackNumber := by
  rw [same]
  refine lawful.keeps _ _ ?_
  rw [(lawful.discardUpTo _ _ newer).1, Bool.eq_false_iff, Ne, lawful.greater _ _ (by simp)]
  simp

theorem congestionAck_allowed (writes : ops.WindowOnly) (lawful : lib.Lawful content)
    (cWnd dataRetrCount : UInt32) {ackNumber bytesAcked newSegsAcked : UInt32}
    {moved : TcpSocketBase β}
    (newer : lib.greater ackNumber (lib.headSequence sock.txBuffer) = true)
    (acked : congestionAck lib ops sock ackNumber bytesAcked newSegsAcked = (moved, emitted)) :
    ∀ effect ∈ emitted, Allowed attributes
      (limitsAfter lib cWnd (newAck lib { moved with dataRetrCount } ackNumber)) effect := by
  unfold congestionAck at acked
  dsimp only at acked
  split at acked
  case h_3 =>
    split at acked
    · cases acked
      refine doRetransmit_allowed lawful ?_ ?_
      · change (ops.pktsAcked (doRetransmit lib _).1.tcb 1).segmentSize = _
        rw [(writes.acked _ 1).2.1]
        exact congrArg SendLimits.segmentSize (doRetransmit_limits cWnd)
      · exact congrArg lib.headSequence (discard_again lawful newer (doRetransmit_txBuffer lib _))
    · cases acked
      simp
  all_goals
    cases acked
    simp

theorem receivedAck_allowed (writes : ops.WindowOnly) (lawful : lib.Lawful content)
    (full : sock.tcb.segmentSize ≠ 0) {ackNumber : UInt32} {packetSize : Nat}
    (taken : receivedAck lib ops attributes sock ackNumber packetSize = .ok (sock', emitted)) :
    ∀ effect ∈ emitted, Allowed attributes (limitsAfter lib
      (guardedWindow sock.tcb (sock.tcb.cWnd + sock.tcb.segmentSize)).cWnd sock') effect := by
  obtain ⟨counted, same, effect⟩ := receivedAck_cases taken
  have tcb : counted.tcb = sock.tcb := by rw [same]
  have buffer : counted.txBuffer = sock.txBuffer := by rw [same]
  rw [← tcb] at full ⊢
  rcases effect with ⟨rfl, rfl⟩ | ⟨_, _, dup⟩ | ⟨newer, moved, newSegsAcked, acked, rfl⟩
  · simp
  · exact dupAck_allowed writes lawful full dup
  · exact congestionAck_allowed writes lawful _ _ (buffer ▸ newer) acked

theorem retransmit_allowed (lawful : lib.Lawful content) (cWnd : UInt32) :
    ∀ effect ∈ (retransmit lib ops sock).2,
      Allowed attributes (limitsAfter lib cWnd (retransmit lib ops sock).1) effect := by
  unfold retransmit
  split
  · simp
  · rw [doRetransmit_limits]
    exact doRetransmit_allowed lawful rfl rfl

/-- Whatever the algorithm: what a step sends, but for limited transmit and the probes, is inside the
window that the step has found. -/
theorem step_allowed (writes : ops.WindowOnly) (lawful : lib.Lawful content)
    (full : sock.tcb.segmentSize ≠ 0) {event : TcpEvent}
    (taken : TcpSocketBase.step lib ops attributes sock event = .ok (sock', emitted)) :
    ∀ effect ∈ emitted,
      Allowed attributes (limitsAfter lib (openedWindow sock event) sock') effect := by
  cases event with
  | ack segment =>
    have kept : (updateWindowSize lib sock segment).tcb = sock.tcb := by
      unfold updateWindowSize
      split <;> rfl
    have processed : processAck lib ops attributes (updateWindowSize lib sock segment) segment =
      .ok (sock', emitted) := taken
    simp only [openedWindow]
    rw [← kept] at full ⊢
    rcases processAck_cases processed with ⟨rfl, rfl | rfl⟩ | ⟨_, received⟩
    · simp
    · exact allowed_of_silent (released_sendEmptyPacket _)
    · exact receivedAck_allowed writes lawful full received
  | sendPendingData =>
    have same : sendPendingData lib attributes sock = (sock', emitted) := Except.ok.inj taken
    have limits := @sendPendingData_limits β lib attributes sock sock.tcb.cWnd
    have inside := @sendPendingData_inWindow β lib content attributes sock lawful full
    rw [same] at limits inside
    intro effect mem
    rw [show openedWindow sock .sendPendingData = sock.tcb.cWnd from rfl, limits]
    exact (inside effect mem).allowed rfl rfl rfl rfl
  | reTxTimeout =>
    have same : reTxTimeout lib ops sock = (sock', emitted) := Except.ok.inj taken
    unfold reTxTimeout at same
    split at same
    · cases same
      simp
    · have sent := @retransmit_allowed β lib content ops attributes
        { sock with recover := sock.highTxMark } lawful
        (openedWindow sock .reTxTimeout)
      rwa [same] at sent
  | persistTimeout =>
    cases taken
    simp [Allowed]
  | _ =>
    cases taken
    simp

end Steps

section Fixed

variable {tcb : TcpSocketState} {txBuffer : β} {rWnd : UInt32}
  {history : Machine.History TcpEvent TcpEffect}

structure TcpSocketState.Fixed (initial tcb : TcpSocketState) : Prop where
  initialCWnd : tcb.initialCWnd = initial.initialCWnd
  initialSsThresh : tcb.initialSsThresh = initial.initialSsThresh
  segmentSize : tcb.segmentSize = initial.segmentSize
  cWnd : tcb.cWnd = initial.initialCWnd * initial.segmentSize
  ssThresh : tcb.ssThresh = initial.initialSsThresh ∨
    tcb.ssThresh = initial.initialCWnd * initial.segmentSize

-- A reaction to a loss sets the window to a segment only where that is the window.
theorem Fixed.guarded (initial : TcpSocketState) (some : 1 ≤ tcb.initialCWnd)
    (holds : initial.Fixed { tcb with cWnd := initial.initialCWnd * initial.segmentSize })
    (cWnd : tcb.cWnd = initial.initialCWnd * initial.segmentSize) :
    initial.Fixed (guardedWindow tcb tcb.segmentSize) := by
  obtain ⟨initialCWnd, initialSsThresh, segmentSize, _, ssThresh⟩ := holds
  unfold guardedWindow
  split
  next single =>
    have one : initial.initialCWnd = 1 := by
      rw [← show tcb.initialCWnd = initial.initialCWnd from initialCWnd]
      exact UInt32.le_antisymm single some
    exact ⟨initialCWnd, initialSsThresh, segmentSize,
      by simpa [one] using segmentSize, ssThresh⟩
  · exact ⟨initialCWnd, initialSsThresh, segmentSize, cWnd, ssThresh⟩

theorem CongestionMove.fixed {view view' : CongestionView} {inFlight : UInt32}
    {initial : TcpSocketState} (some : 1 ≤ initial.initialCWnd)
    (move : CongestionMove tcpFixed attributes inFlight view view')
    (holds : initial.Fixed view.tcb) : initial.Fixed view'.tcb := by
  obtain ⟨initialCWnd, initialSsThresh, segmentSize, cWnd, ssThresh⟩ := holds
  cases move with
  | quiet => exact ⟨initialCWnd, initialSsThresh, segmentSize, cWnd, ssThresh⟩
  | timeoutAgain => exact ⟨initialCWnd, initialSsThresh, segmentSize, cWnd, ssThresh⟩
  | timeout flight state =>
    refine Fixed.guarded initial (initialCWnd ▸ some) ⟨initialCWnd, initialSsThresh, segmentSize,
      rfl, .inr ?_⟩ cWnd
    simp [TcpSocketState.lost, tcpFixed, initialCWnd, segmentSize]
  | _ => constructor <;> simp_all [tcpFixed, TcpSocketState.lost]

/-- With `TcpFixed` and a first window of at least one segment, no loss, no timeout and no
acknowledgement moves the window. -/
theorem window_is_fixed (some : 1 ≤ tcb.initialCWnd)
    (run : Machine.Run (TcpSocketBase.step lib tcpFixed attributes)
      (TcpSocketBase.established lib attributes tcb txBuffer rWnd) history sock) :
    tcb.Fixed sock.tcb := by
  refine run.invariant (fun _ state => tcb.Fixed state.tcb) ⟨rfl, rfl, rfl, rfl, .inl rfl⟩ ?_
  intro history state event state' emitted _ holds taken
  cases syn : event.isSyn with
  | false =>
    have view : tcb.Fixed state.view.tcb := holds
    exact (step_move syn taken).fixed some view
  | true =>
    obtain ⟨_, windowSize, ackNumber, rfl⟩ := step_syn syn taken
    obtain ⟨initialCWnd, initialSsThresh, segmentSize, _, _⟩ := holds
    refine ⟨initialCWnd, initialSsThresh, segmentSize, ?_, .inl initialSsThresh⟩
    simp [initializeWindow, initialCWnd, segmentSize]

theorem window_is_fixed_example :
    ∃ history sock, Machine.Run (TcpSocketBase.step txBytes tcpFixed exampleAttributes)
        (TcpSocketBase.established txBytes exampleAttributes exampleTcb exampleBuffer 4) history
        sock ∧
      Machine.events history = [.sendPendingData, .reTxTimeout, .ack exampleSegment] ∧
        exampleTcb.Fixed sock.tcb := by
  have fresh : Machine.Run (TcpSocketBase.step txBytes tcpFixed exampleAttributes)
      (TcpSocketBase.established txBytes exampleAttributes exampleTcb exampleBuffer 4) [] _ := .start
  have sent := fresh.next .sendPendingData _ _ rfl
  have late := sent.next .reTxTimeout _ _ rfl
  have acked := late.next (.ack exampleSegment) _ _ rfl
  exact ⟨_, _, acked, rfl, window_is_fixed (by decide) acked⟩

/-- With a first window of two segments or more, that window bounds what `SendPendingData` and the
retransmissions send in any step of any run, and limited transmit is the only way around it. -/
theorem fixed_window_bounds (lawful : lib.Lawful content) (two : 2 ≤ tcb.initialCWnd)
    (full : tcb.segmentSize ≠ 0)
    (run : Machine.Run (TcpSocketBase.step lib tcpFixed attributes)
      (TcpSocketBase.established lib attributes tcb txBuffer rWnd) history sock)
    {event : TcpEvent}
    (taken : TcpSocketBase.step lib tcpFixed attributes sock event = .ok (sock', emitted)) :
    ∀ effect ∈ emitted, Allowed attributes {
      head := lib.headSequence sock'.txBuffer
      rWnd := sock'.rWnd
      cWnd := tcb.initialCWnd * tcb.segmentSize
      segmentSize := tcb.segmentSize
      congState := sock'.tcb.congState } effect := by
  have some : 1 ≤ tcb.initialCWnd := by
    rw [UInt32.le_iff_toNat_le] at two ⊢
    exact Nat.le_trans (by decide) two
  obtain ⟨initialCWnd, _, segmentSize, cWnd, _⟩ := window_is_fixed some run
  have after := (window_is_fixed some (run.next event sock' emitted taken)).segmentSize
  have opened : openedWindow sock event = tcb.initialCWnd * tcb.segmentSize := by
    have wide : ¬ sock.tcb.initialCWnd ≤ 1 := by
      rw [initialCWnd, UInt32.not_le]
      rw [UInt32.le_iff_toNat_le] at two
      rw [UInt32.lt_iff_toNat_lt]
      exact two
    cases event <;> simp [openedWindow, guardedWindow, wide, cWnd]
  have allowed := step_allowed tcpFixed_windowOnly lawful (segmentSize ▸ full) taken
  rwa [limitsAfter, opened, after] at allowed

theorem fixed_window_bounds_example :
    ∃ sock' emitted, TcpSocketBase.step txBytes tcpFixed exampleAttributes
        (TcpSocketBase.established txBytes exampleAttributes exampleTcb exampleBuffer 4)
        .sendPendingData = .ok (sock', emitted) ∧ emitted.length = 2 ∧
      ∀ effect ∈ emitted, Allowed exampleAttributes {
        head := txBytes.headSequence sock'.txBuffer
        rWnd := sock'.rWnd
        cWnd := exampleTcb.initialCWnd * exampleTcb.segmentSize
        segmentSize := exampleTcb.segmentSize
        congState := sock'.tcb.congState } effect := by
  have fresh : Machine.Run (TcpSocketBase.step txBytes tcpFixed exampleAttributes)
      (TcpSocketBase.established txBytes exampleAttributes exampleTcb exampleBuffer 4) [] _ := .start
  have sent : ∃ sock' emitted, TcpSocketBase.step txBytes tcpFixed exampleAttributes
      (TcpSocketBase.established txBytes exampleAttributes exampleTcb exampleBuffer 4)
      .sendPendingData = .ok (sock', emitted) ∧ emitted.length = 2 := ⟨_, _, rfl, rfl⟩
  obtain ⟨sock', emitted, taken, two⟩ := sent
  exact ⟨sock', emitted, taken, two,
    fixed_window_bounds txBytes_lawful (by decide) (by decide) fresh taken⟩

end Fixed

end NetworkProj.Ns3
