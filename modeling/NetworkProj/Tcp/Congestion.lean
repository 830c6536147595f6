import NetworkProj.Tcp.TxBuffer

set_option autoImplicit false

namespace NetworkProj.Ns3

variable {β : Type} {lib : TcpTxBuffer β} {ops : TcpCongestionOps} {attributes : TcpAttributes}
  {sock sock' : TcpSocketBase β} {emitted : List TcpEffect}

/-- What the congestion control reads and writes. -/
structure CongestionView where
  tcb : TcpSocketState
  dupAckCount : UInt32
  isFirstPartialAck : Bool

def TcpSocketBase.view (sock : TcpSocketBase β) : CongestionView where
  tcb := sock.tcb
  dupAckCount := sock.dupAckCount
  isFirstPartialAck := sock.isFirstPartialAck

section Sending

@[simp] theorem sendDataPacket_view (sender : TcpSender) (seq maxSize : UInt32) :
    (sendDataPacket lib sock sender seq maxSize).1.view = sock.view := rfl

theorem sendPendingBody_next {next : TcpSocketBase β}
    (pass : sendPendingBody lib attributes sock = .ok (some (next, emitted))) :
    lib.sizeFromSequence sock.txBuffer sock.nextTxSequence ≠ 0 ∧
      ¬ (availableWindow lib sock < sock.tcb.segmentSize ∧
        lib.sizeFromSequence sock.txBuffer sock.nextTxSequence > availableWindow lib sock) ∧
      ∃ sent sz, sendDataPacket lib sock .sendPendingData sock.nextTxSequence
          (min (availableWindow lib sock) sock.tcb.segmentSize) = (sent, sz, emitted) ∧
        next = { sent with nextTxSequence := sent.nextTxSequence + sz } := by
  simp only [sendPendingBody] at pass
  split at pass
  · cases pass
  next left =>
    split at pass
    · cases pass
    next wide =>
      split at pass
      · cases pass
      · cases pass
        exact ⟨left, wide, _, _, rfl, rfl⟩

theorem sendPendingBody_none (finished : Loop.Finished (sendPendingBody lib attributes) sock) :
    lib.sizeFromSequence sock.txBuffer sock.nextTxSequence = 0 ∨
      (availableWindow lib sock < sock.tcb.segmentSize ∧
        lib.sizeFromSequence sock.txBuffer sock.nextTxSequence > availableWindow lib sock) ∨
      (¬ attributes.noDelay ∧ unAckDataCount lib sock > 0 ∧
        lib.sizeFromSequence sock.txBuffer sock.nextTxSequence < sock.tcb.segmentSize) := by
  simp only [Loop.Finished, sendPendingBody] at finished
  split at finished
  next done => exact .inl done
  split at finished
  next narrow => exact .inr (.inl narrow)
  split at finished
  next held => exact .inr (.inr held)
  · cases finished

theorem sendPendingData_cases (lib : TcpTxBuffer β) (attributes : TcpAttributes)
    (sock : TcpSocketBase β) :
    ((lib.size sock.txBuffer = 0 ∨ ¬ sock.endPoint) ∧
        sendPendingData lib attributes sock = (sock, [])) ∨
      ∃ result, Loop.run (sendPendingBody lib attributes)
          ((lib.sizeFromSequence sock.txBuffer sock.nextTxSequence).toNat + 1) sock = .ok result ∧
        sendPendingData lib attributes sock = result := by
  unfold sendPendingData
  split
  next idle => exact .inl ⟨idle, rfl⟩
  · right
    cases ran : Loop.run (sendPendingBody lib attributes)
        ((lib.sizeFromSequence sock.txBuffer sock.nextTxSequence).toNat + 1) sock with
    | error stop => cases stop
    | ok result => exact ⟨result, rfl, rfl⟩

@[simp] theorem sendPendingData_view :
    (sendPendingData lib attributes sock).1.view = sock.view := by
  rcases sendPendingData_cases lib attributes sock with ⟨_, idle⟩ | ⟨⟨final, outputs⟩, ran, sent⟩
  · rw [idle]
  · rw [sent]
    refine Loop.run_invariant (fun _ state => state.view = sock.view) ?_ [] rfl ran
    intro outputs state next emitted same pass
    obtain ⟨_, _, sent, sz, packet, rfl⟩ := sendPendingBody_next pass
    have kept : (sendDataPacket lib state .sendPendingData state.nextTxSequence
        (min (availableWindow lib state) state.tcb.segmentSize)).1.view = state.view :=
      sendDataPacket_view _ _ _
    rw [packet] at kept
    exact kept.trans same

@[simp] theorem limitedTransmit_view :
    (limitedTransmit lib attributes sock).1.view = sock.view := by
  unfold limitedTransmit
  split <;> rfl

@[simp] theorem doRetransmit_view : (doRetransmit lib sock).1.view = sock.view := by
  unfold doRetransmit
  split
  · split <;> rfl
  · split
    · rfl
    · dsimp only
      split <;> rfl

@[simp] theorem send_view (packet : List UInt8) : (sock.send lib packet).view = sock.view := by
  unfold TcpSocketBase.send
  split
  · split <;> rfl
  · rfl

end Sending

section Moves

section GuardedWindow

variable (tcb : TcpSocketState) (cWnd : UInt32)

@[simp] theorem guardedWindow_segmentSize :
    (guardedWindow tcb cWnd).segmentSize = tcb.segmentSize := by
  unfold guardedWindow
  split <;> rfl

@[simp] theorem guardedWindow_initialCWnd :
    (guardedWindow tcb cWnd).initialCWnd = tcb.initialCWnd := by
  unfold guardedWindow
  split <;> rfl

@[simp] theorem guardedWindow_congState :
    (guardedWindow tcb cWnd).congState = tcb.congState := by
  unfold guardedWindow
  split <;> rfl

@[simp] theorem guardedWindow_ssThresh : (guardedWindow tcb cWnd).ssThresh = tcb.ssThresh := by
  unfold guardedWindow
  split <;> rfl

@[simp] theorem guardedWindow_initialSsThresh :
    (guardedWindow tcb cWnd).initialSsThresh = tcb.initialSsThresh := by
  unfold guardedWindow
  split <;> rfl

end GuardedWindow

structure TcpCongestionOps.WindowOnly (ops : TcpCongestionOps) : Prop where
  increaseWindow : ∀ tcb segmentsAcked, ∃ cWnd,
    ops.increaseWindow tcb segmentsAcked = { tcb with cWnd }
  pktsAcked : ∀ tcb segmentsAcked, ∃ cWnd, ops.pktsAcked tcb segmentsAcked = { tcb with cWnd }

def TcpEvent.isSyn : TcpEvent → Bool
  | .syn _ _ => true
  | .ack _ | .sendPendingData | .reTxTimeout | .persistTimeout | .send _ | .outside _ => false

def TcpSocketState.lost (ops : TcpCongestionOps) (flight : UInt32) (congState : TcpCongState)
    (tcb : TcpSocketState) : TcpSocketState :=
  let tcb := { tcb with congState }
  { tcb with ssThresh := ops.getSsThresh tcb flight }

/-- Every way in which a step other than a SYN may change the congestion state. -/
inductive CongestionMove (ops : TcpCongestionOps) (attributes : TcpAttributes) (inFlight : UInt32) :
    CongestionView → CongestionView → Prop where
  | quiet (view : CongestionView) : CongestionMove ops attributes inFlight view view
  | firstDup (view : CongestionView) (state : view.tcb.congState = .open)
      (first : view.dupAckCount + 1 = 1) :
      CongestionMove ops attributes inFlight view { view with
        tcb := ops.pktsAcked { view.tcb with congState := .disorder } 1
        dupAckCount := view.dupAckCount + 1 }
  | furtherDup (view : CongestionView) (state : view.tcb.congState ≠ .open)
      (slow : view.tcb.congState ≠ .recovery) :
      CongestionMove ops attributes inFlight view { view with
        tcb := ops.pktsAcked view.tcb 1
        dupAckCount := view.dupAckCount + 1 }
  | recover (view : CongestionView) (flight : UInt32) (state : view.tcb.congState = .disorder)
      (many : view.dupAckCount + 1 = attributes.retxThresh) :
      CongestionMove ops attributes inFlight view { view with
        tcb := ops.pktsAcked (guardedWindow (view.tcb.lost ops flight .recovery)
          ((view.tcb.lost ops flight .recovery).ssThresh +
            (view.dupAckCount + 1) * view.tcb.segmentSize)) 1
        dupAckCount := view.dupAckCount + 1 }
  | recoveryDup (view : CongestionView) (state : view.tcb.congState = .recovery) :
      CongestionMove ops attributes inFlight view { view with
        tcb := ops.pktsAcked
          (guardedWindow view.tcb (view.tcb.cWnd + view.tcb.segmentSize)) 1
        dupAckCount := view.dupAckCount + 1 }
  | openAck (view : CongestionView) (segsAcked newSegsAcked : UInt32)
      (state : view.tcb.congState = .open) :
      CongestionMove ops attributes inFlight view { view with
        tcb := ops.increaseWindow (ops.pktsAcked view.tcb segsAcked) newSegsAcked }
  | disorderAck (view : CongestionView) (segsAcked newSegsAcked : UInt32)
      (state : view.tcb.congState = .disorder) :
      CongestionMove ops attributes inFlight view { view with
        tcb := ops.increaseWindow
          (ops.pktsAcked { view.tcb with congState := .open } segsAcked) newSegsAcked
        dupAckCount := 0 }
  | partialAck (view : CongestionView) (bytesAcked segsAcked : UInt32)
      (state : view.tcb.congState = .recovery) :
      CongestionMove ops attributes inFlight view {
        tcb := ops.pktsAcked
          (guardedWindow
            (guardedWindow view.tcb (safeSubtraction view.tcb.cWnd bytesAcked))
            ((guardedWindow view.tcb (safeSubtraction view.tcb.cWnd bytesAcked)).cWnd +
              view.tcb.segmentSize)) 1
        dupAckCount := safeSubtraction view.dupAckCount segsAcked
        isFirstPartialAck := false }
  | fullAck (view : CongestionView) (segsAcked newSegsAcked : UInt32)
      (state : view.tcb.congState = .recovery) :
      CongestionMove ops attributes inFlight view {
        tcb := ops.increaseWindow
          { ops.pktsAcked
              (guardedWindow view.tcb (min view.tcb.ssThresh (inFlight + view.tcb.segmentSize)))
              segsAcked with congState := .open } newSegsAcked
        dupAckCount := 0
        isFirstPartialAck := true }
  | lossAck (view : CongestionView) (segsAcked newSegsAcked : UInt32)
      (state : view.tcb.congState = .loss) :
      CongestionMove ops attributes inFlight view {
        tcb := ops.increaseWindow
          { ops.pktsAcked view.tcb segsAcked with congState := .open } newSegsAcked
        dupAckCount := 0
        isFirstPartialAck := true }
  | cwrAck (view : CongestionView) (newSegsAcked : UInt32) (state : view.tcb.congState = .cwr) :
      CongestionMove ops attributes inFlight view { view with
        tcb := ops.increaseWindow view.tcb newSegsAcked }
  | timeout (view : CongestionView) (flight : UInt32) (state : view.tcb.congState ≠ .loss) :
      CongestionMove ops attributes inFlight view { view with
        tcb := guardedWindow (view.tcb.lost ops flight .loss) view.tcb.segmentSize
        dupAckCount := 0 }
  | timeoutAgain (view : CongestionView) (state : view.tcb.congState = .loss) :
      CongestionMove ops attributes inFlight view { view with dupAckCount := 0 }

theorem processed_view {view : CongestionView} {result : TcpSocketBase β × List TcpEffect}
    (same : result.1.view = view)
    (taken : (.ok (dupAck.processed ops result) : Except TcpAssertion _) = .ok (sock', emitted)) :
    sock'.view = { view with tcb := ops.pktsAcked view.tcb 1 } := by
  subst same
  cases taken
  rfl

theorem dupAck_move (taken : dupAck lib ops attributes sock = .ok (sock', emitted)) :
    CongestionMove ops attributes (bytesInFlight lib sock) sock.view sock'.view := by
  unfold dupAck at taken
  dsimp only at taken
  split at taken
  next state =>
    split at taken
    · cases taken
    next first =>
      rw [processed_view limitedTransmit_view taken]
      exact .firstDup sock.view state (not_not.mp first)
  next state =>
    split at taken
    next many =>
      rw [processed_view doRetransmit_view taken]
      exact .recover sock.view (bytesInFlight lib _) state many.1
    next few =>
      rw [processed_view limitedTransmit_view taken]
      exact .furtherDup sock.view (by simp [TcpSocketBase.view, state])
        (by simp [TcpSocketBase.view, state])
  next state =>
    rw [processed_view sendPendingData_view taken]
    exact .recoveryDup sock.view state
  next state =>
    rw [processed_view rfl taken]
    exact .furtherDup sock.view (by simp [TcpSocketBase.view, state])
      (by simp [TcpSocketBase.view, state])
  next state =>
    rw [processed_view rfl taken]
    exact .furtherDup sock.view (by simp [TcpSocketBase.view, state])
      (by simp [TcpSocketBase.view, state])

theorem partialAck_view (ackNumber bytesAcked : UInt32) {segsAcked : UInt32}
    (acked : segsAcked ≥ 1) :
    (partialAck lib ops sock ackNumber bytesAcked segsAcked).1.view = {
      tcb := ops.pktsAcked
        (guardedWindow
          (guardedWindow sock.tcb (safeSubtraction sock.tcb.cWnd bytesAcked))
          ((guardedWindow sock.tcb (safeSubtraction sock.tcb.cWnd bytesAcked)).cWnd +
            sock.tcb.segmentSize)) 1
      dupAckCount := safeSubtraction sock.dupAckCount segsAcked
      isFirstPartialAck := false } := by
  have same (tcb : TcpSocketState) := @doRetransmit_view β lib { sock with
    tcb
    dupAckCount := safeSubtraction sock.dupAckCount segsAcked
    retransOut := safeSubtraction sock.retransOut 1
    txBuffer := lib.discardUpTo sock.txBuffer ackNumber }
  simp only [TcpSocketBase.view, CongestionView.mk.injEq] at same
  simp [TcpSocketBase.view, partialAck, acked, same]

theorem segsAcked_pos (newSegsAcked dupAckCount : UInt32) :
    (if newSegsAcked > dupAckCount then newSegsAcked - dupAckCount else 1) ≥ 1 := by
  split
  next more =>
    have larger := UInt32.lt_iff_toNat_lt.mp more
    rw [ge_iff_le, UInt32.le_iff_toNat_le, UInt32.toNat_sub_of_le _ _ (UInt32.le_of_lt more),
      UInt32.toNat_one]
    omega
  · exact UInt32.le_refl 1

theorem congestionAck_move {ackNumber bytesAcked newSegsAcked : UInt32}
    (acked : congestionAck lib ops sock ackNumber bytesAcked newSegsAcked = (sock', emitted)) :
    CongestionMove ops attributes (bytesInFlight lib sock) sock.view sock'.view := by
  rw [show sock' = (congestionAck lib ops sock ackNumber bytesAcked newSegsAcked).1 by rw [acked]]
  unfold congestionAck
  dsimp only
  split
  next state => exact .openAck sock.view _ newSegsAcked state
  next state => exact .disorderAck sock.view _ newSegsAcked state
  next state =>
    split
    · rw [partialAck_view ackNumber bytesAcked (segsAcked_pos newSegsAcked sock.dupAckCount)]
      exact .partialAck sock.view bytesAcked _ state
    · exact .fullAck sock.view _ _ state
  next state => exact .lossAck sock.view _ newSegsAcked state
  next state => exact .cwrAck sock.view newSegsAcked state

theorem receivedAck_cases {ackNumber : UInt32} {packetSize : Nat}
    (taken : receivedAck lib ops attributes sock ackNumber packetSize = .ok (sock', emitted)) :
    ∃ counted : TcpSocketBase β,
      counted = { sock with bytesAckedNotProcessed := counted.bytesAckedNotProcessed } ∧
      ((sock' = counted ∧ emitted = []) ∨
        (ackNumber = lib.headSequence sock.txBuffer ∧ lib.less ackNumber sock.nextTxSequence ∧
          dupAck lib ops attributes counted = .ok (sock', emitted)) ∨
        (lib.greater ackNumber (lib.headSequence sock.txBuffer) ∧ ∃ moved newSegsAcked,
          congestionAck lib ops counted ackNumber (ackNumber - lib.headSequence sock.txBuffer)
            newSegsAcked = (moved, emitted) ∧
          sock' = newAck lib { moved with dataRetrCount := attributes.dataRetries } ackNumber)) := by
  unfold receivedAck at taken
  dsimp only at taken
  split at taken
  · cases taken
  refine ⟨{ sock with
    bytesAckedNotProcessed := (segmentsAcked sock (ackNumber - lib.headSequence sock.txBuffer)).2 },
    rfl, ?_⟩
  split at taken
  next dup => exact .inr (.inl ⟨dup.1, dup.2.1, taken⟩)
  split at taken
  · cases taken
    exact .inl ⟨rfl, rfl⟩
  split at taken
  next newer =>
    split at taken
    · cases taken
    · cases taken
      exact .inr (.inr ⟨newer, _, _, rfl, rfl⟩)
  · cases taken
    exact .inl ⟨rfl, rfl⟩

theorem receivedAck_move {ackNumber : UInt32} {packetSize : Nat}
    (taken : receivedAck lib ops attributes sock ackNumber packetSize = .ok (sock', emitted)) :
    CongestionMove ops attributes (bytesInFlight lib sock) sock.view sock'.view := by
  obtain ⟨counted, same, effect⟩ := receivedAck_cases taken
  have start : counted.view = sock.view ∧ bytesInFlight lib counted = bytesInFlight lib sock := by
    rw [same]
    exact ⟨rfl, rfl⟩
  rw [← start.1, ← start.2]
  rcases effect with ⟨rfl, _⟩ | ⟨_, _, dup⟩ | ⟨_, moved, newSegsAcked, acked, rfl⟩
  · exact .quiet _
  · exact dupAck_move dup
  · have moves : CongestionMove ops attributes (bytesInFlight lib counted) counted.view moved.view := congestionAck_move acked
    exact moves

theorem retransmit_move (sock : TcpSocketBase β) :
    CongestionMove ops attributes (bytesInFlight lib sock) sock.view (retransmit lib ops sock).1.view := by
  unfold retransmit
  split
  · exact .quiet _
  · rw [doRetransmit_view]
    by_cases state : sock.tcb.congState = .loss
    · rw [enterLoss, if_neg (not_not.mpr state)]
      exact .timeoutAgain sock.view state
    · rw [enterLoss, if_pos state]
      exact .timeout sock.view (bytesInFlight lib sock) state

theorem reTxTimeout_move :
    CongestionMove ops attributes (bytesInFlight lib sock) sock.view (reTxTimeout lib ops sock).1.view := by
  unfold reTxTimeout
  split
  · exact .quiet _
  · exact retransmit_move { sock with recover := sock.highTxMark }

theorem processAck_cases {segment : TcpSegment}
    (taken : processAck lib ops attributes sock segment = .ok (sock', emitted)) :
    (sock' = sock ∧ (emitted = [] ∨ emitted = sendEmptyPacket sock .ack)) ∨
      ((sock.state = .established → lib.greater segment.ackNumber sock.highTxMark = false) ∧
        receivedAck lib ops attributes sock segment.ackNumber segment.packetSize =
          .ok (sock', emitted)) := by
  have waiting (state : sock.state ≠ .established)
      (taken : (if segment.packetSize > 0 ∧ segment.fin then .ok (sock, [])
        else receivedAck lib ops attributes sock segment.ackNumber segment.packetSize) =
          .ok (sock', emitted)) :
      (sock' = sock ∧ (emitted = [] ∨ emitted = sendEmptyPacket sock .ack)) ∨
        ((sock.state = .established → lib.greater segment.ackNumber sock.highTxMark = false) ∧
          receivedAck lib ops attributes sock segment.ackNumber segment.packetSize =
            .ok (sock', emitted)) := by
    split at taken
    · cases taken
      exact .inl ⟨rfl, .inl rfl⟩
    · exact .inr ⟨fun established => absurd established state, taken⟩
  unfold processAck at taken
  split at taken
  next established =>
    split at taken
    · cases taken
      exact .inl ⟨rfl, .inl rfl⟩
    · split at taken
      · cases taken
        exact .inl ⟨rfl, .inr rfl⟩
      next sent => exact .inr ⟨fun _ => Bool.eq_false_iff.mpr sent, taken⟩
  next state => exact waiting (by simp [state]) taken
  next state => exact waiting (by simp [state]) taken
  next state => exact waiting (by simp [state]) taken
  all_goals
    cases taken
    exact .inl ⟨rfl, .inl rfl⟩

theorem updateWindowSize_view (lib : TcpTxBuffer β) (sock : TcpSocketBase β)
    (segment : TcpSegment) : (updateWindowSize lib sock segment).view = sock.view ∧
      bytesInFlight lib (updateWindowSize lib sock segment) = bytesInFlight lib sock := by
  unfold updateWindowSize
  split <;> exact ⟨rfl, rfl⟩

theorem step_syn {event : TcpEvent} (syn : event.isSyn = true)
    (taken : TcpSocketBase.step lib ops attributes sock event = .ok (sock', emitted)) :
    emitted = [] ∧ ∃ windowSize ackNumber, sock' = initializeWindow sock windowSize ackNumber := by
  cases event with
  | syn windowSize ackNumber =>
    cases taken
    exact ⟨rfl, windowSize, ackNumber, rfl⟩
  | _ => cases syn

theorem step_move {event : TcpEvent} (other : event.isSyn = false)
    (taken : TcpSocketBase.step lib ops attributes sock event = .ok (sock', emitted)) :
    CongestionMove ops attributes (bytesInFlight lib sock) sock.view sock'.view := by
  cases event with
  | syn windowSize ackNumber => cases other
  | ack segment =>
    rw [← (updateWindowSize_view lib sock segment).1, ← (updateWindowSize_view lib sock segment).2]
    rcases processAck_cases taken with ⟨rfl, _⟩ | ⟨_, received⟩
    · exact .quiet _
    · exact receivedAck_move received
  | sendPendingData =>
    have same : sock' = (Ns3.sendPendingData lib attributes sock).1 :=
      (congrArg Prod.fst (Except.ok.inj taken)).symm
    rw [same, sendPendingData_view]
    exact .quiet _
  | reTxTimeout =>
    have same : sock' = (Ns3.reTxTimeout lib ops sock).1 :=
      (congrArg Prod.fst (Except.ok.inj taken)).symm
    rw [same]
    exact reTxTimeout_move
  | persistTimeout =>
    cases taken
    exact .quiet _
  | send packet =>
    cases taken
    rw [send_view]
    exact .quiet _
  | outside written =>
    cases taken
    exact .quiet _

end Moves

section WindowOnly

variable (writes : ops.WindowOnly) (tcb : TcpSocketState) (segmentsAcked : UInt32)

include writes

theorem TcpCongestionOps.WindowOnly.increased :
    (ops.increaseWindow tcb segmentsAcked).congState = tcb.congState ∧
      (ops.increaseWindow tcb segmentsAcked).segmentSize = tcb.segmentSize ∧
      (ops.increaseWindow tcb segmentsAcked).initialCWnd = tcb.initialCWnd ∧
      (ops.increaseWindow tcb segmentsAcked).ssThresh = tcb.ssThresh ∧
      (ops.increaseWindow tcb segmentsAcked).initialSsThresh = tcb.initialSsThresh := by
  obtain ⟨cWnd, same⟩ := writes.increaseWindow tcb segmentsAcked
  simp [same]

theorem TcpCongestionOps.WindowOnly.acked :
    (ops.pktsAcked tcb segmentsAcked).congState = tcb.congState ∧
      (ops.pktsAcked tcb segmentsAcked).segmentSize = tcb.segmentSize ∧
      (ops.pktsAcked tcb segmentsAcked).initialCWnd = tcb.initialCWnd ∧
      (ops.pktsAcked tcb segmentsAcked).ssThresh = tcb.ssThresh ∧
      (ops.pktsAcked tcb segmentsAcked).initialSsThresh = tcb.initialSsThresh := by
  obtain ⟨cWnd, same⟩ := writes.pktsAcked tcb segmentsAcked
  simp [same]

omit writes

theorem tcpFixed_windowOnly : tcpFixed.WindowOnly where
  increaseWindow tcb _ := ⟨tcb.initialCWnd * tcb.segmentSize, rfl⟩
  pktsAcked tcb _ := ⟨tcb.initialCWnd * tcb.segmentSize, rfl⟩

theorem slowStart_windowOnly : ∃ cWnd, (slowStart tcb segmentsAcked).1 = { tcb with cWnd } := by
  unfold slowStart
  split
  · exact ⟨_, rfl⟩
  · exact ⟨tcb.cWnd, rfl⟩

theorem congestionAvoidance_windowOnly :
    ∃ cWnd, congestionAvoidance tcb segmentsAcked = { tcb with cWnd } := by
  unfold congestionAvoidance
  split
  · exact ⟨_, rfl⟩
  · exact ⟨tcb.cWnd, rfl⟩

theorem tcpNewReno_windowOnly : tcpNewReno.WindowOnly where
  increaseWindow tcb segmentsAcked := by
    have first : ∃ cWnd, (if tcb.cWnd < tcb.ssThresh then slowStart tcb segmentsAcked
        else (tcb, segmentsAcked)).1 = { tcb with cWnd } := by
      split
      · exact slowStart_windowOnly tcb segmentsAcked
      · exact ⟨tcb.cWnd, rfl⟩
    simp only [tcpNewReno]
    generalize (if tcb.cWnd < tcb.ssThresh then slowStart tcb segmentsAcked
      else (tcb, segmentsAcked)) = started at first
    obtain ⟨started, left⟩ := started
    obtain ⟨cWnd, rfl⟩ := first
    dsimp only
    split
    · exact congestionAvoidance_windowOnly _ left
    · exact ⟨cWnd, rfl⟩
  pktsAcked tcb _ := ⟨tcb.cWnd, rfl⟩

end WindowOnly

section Assertions

/-- What the assertions of `ReceivedAck` rest on. -/
structure CongestionView.Consistent (segmentSize : UInt32) (view : CongestionView) : Prop where
  segmentSize : view.tcb.segmentSize = segmentSize
  openCount : view.tcb.congState = .open → view.dupAckCount = 0
  partialAck : view.isFirstPartialAck = false →
    view.tcb.congState = .recovery ∨ view.tcb.congState = .loss
  noCwr : view.tcb.congState ≠ .cwr

theorem CongestionMove.consistent (writes : ops.WindowOnly) {view view' : CongestionView}
    {segmentSize inFlight : UInt32} (move : CongestionMove ops attributes inFlight view view')
    (holds : view.Consistent segmentSize) : view'.Consistent segmentSize := by
  have increased := writes.increased
  have acked := writes.acked
  obtain ⟨size, openCount, partialAck, noCwr⟩ := holds
  cases move with
  | quiet => exact ⟨size, openCount, partialAck, noCwr⟩
  | cwrAck newSegsAcked state => exact absurd state noCwr
  | _ => constructor <;> simp_all [TcpSocketState.lost]

theorem congestionAck_settled (writes : ops.WindowOnly) {segmentSize : UInt32}
    {ackNumber bytesAcked newSegsAcked : UInt32} (holds : sock.view.Consistent segmentSize)
    (acked : congestionAck lib ops sock ackNumber bytesAcked newSegsAcked = (sock', emitted)) :
    sock'.isFirstPartialAck = true ∨ sock'.tcb.congState = .recovery := by
  have whole (state : sock.tcb.congState ≠ .recovery) (slow : sock.tcb.congState ≠ .loss) :
      sock.isFirstPartialAck = true := by
    by_contra first
    rcases holds.partialAck (Bool.not_eq_true _ ▸ first) with recovery | loss
    · exact state recovery
    · exact slow loss
  unfold congestionAck at acked
  dsimp only at acked
  split at acked
  next state =>
    cases acked
    exact .inl (whole (by simp [state]) (by simp [state]))
  next state =>
    cases acked
    exact .inl (whole (by simp [state]) (by simp [state]))
  next state =>
    split at acked
    · have view := @partialAck_view β lib ops sock ackNumber bytesAcked _
        (segsAcked_pos newSegsAcked sock.dupAckCount)
      rw [acked] at view
      right
      rw [show sock'.tcb.congState = sock'.view.tcb.congState from rfl, view]
      simp [writes.acked, state]
    · cases acked
      exact .inl rfl
  next state =>
    cases acked
    exact .inl rfl
  next state => exact absurd state holds.noCwr

theorem receivedAck_ok (writes : ops.WindowOnly) {segmentSize : UInt32} (full : segmentSize ≠ 0)
    (holds : sock.view.Consistent segmentSize) (ackNumber : UInt32) (packetSize : Nat) :
    ∃ result, receivedAck lib ops attributes sock ackNumber packetSize = .ok result := by
  unfold receivedAck
  dsimp only
  rw [if_neg (by rw [show sock.tcb.segmentSize = segmentSize from holds.segmentSize]; exact full)]
  split
  · unfold dupAck
    dsimp only
    split
    next state =>
      rw [if_neg (by simp [show sock.dupAckCount = 0 from holds.openCount state])]
      exact ⟨_, rfl⟩
    next state => split <;> exact ⟨_, rfl⟩
    all_goals exact ⟨_, rfl⟩
  · split
    · exact ⟨_, rfl⟩
    · split
      · rw [if_neg]
        · exact ⟨_, rfl⟩
        · intro broken
          generalize acked : congestionAck lib ops _ ackNumber _ _ = result at broken
          obtain ⟨moved, packets⟩ := result
          have counted : ({ sock with
              bytesAckedNotProcessed :=
                (segmentsAcked sock (ackNumber - lib.headSequence sock.txBuffer)).2 } :
              TcpSocketBase β).view.Consistent segmentSize := holds
          rcases congestionAck_settled writes counted acked with first | recovery
          · exact broken.1 first
          · exact broken.2 recovery
      · exact ⟨_, rfl⟩

variable {tcb : TcpSocketState} {txBuffer : β} {rWnd : UInt32} {history : Machine.History TcpEvent TcpEffect}

theorem run_consistent (writes : ops.WindowOnly)
    (run : Machine.Run (TcpSocketBase.step lib ops attributes)
      (TcpSocketBase.established lib attributes tcb txBuffer rWnd) history sock) :
    sock.view.Consistent tcb.segmentSize := by
  refine run.invariant (fun _ state => state.view.Consistent tcb.segmentSize) ?_ ?_
  · exact ⟨rfl, fun _ => rfl, by simp [TcpSocketBase.view, TcpSocketBase.established], by
      simp [TcpSocketBase.view, TcpSocketBase.established]⟩
  · intro history state event state' emitted _ holds taken
    cases syn : event.isSyn with
    | false => exact (step_move syn taken).consistent writes holds
    | true =>
      obtain ⟨_, windowSize, ackNumber, rfl⟩ := step_syn syn taken
      exact ⟨holds.segmentSize, holds.openCount, holds.partialAck, holds.noCwr⟩

/-- Whatever the peer sends and whenever a timer runs out, no assertion fails. -/
theorem assertions_hold (writes : ops.WindowOnly) (full : tcb.segmentSize ≠ 0)
    (run : Machine.Run (TcpSocketBase.step lib ops attributes)
      (TcpSocketBase.established lib attributes tcb txBuffer rWnd) history sock)
    (event : TcpEvent) :
    ∃ result, TcpSocketBase.step lib ops attributes sock event = .ok result := by
  have holds := run_consistent writes run
  cases event with
  | ack segment =>
    rw [← (updateWindowSize_view lib sock segment).1] at holds
    simp only [TcpSocketBase.step, processAck]
    have received := @receivedAck_ok β lib ops attributes _ writes _ full holds
      segment.ackNumber segment.packetSize
    split
    · split
      · exact ⟨_, rfl⟩
      · split
        · exact ⟨_, rfl⟩
        · exact received
    all_goals first
      | exact ⟨_, rfl⟩
      | (split
         · exact ⟨_, rfl⟩
         · exact received)
  | _ => exact ⟨_, rfl⟩

theorem assertions_hold_example : ∃ history sock,
    Machine.Run (TcpSocketBase.step txBytes tcpNewReno exampleAttributes)
        (TcpSocketBase.established txBytes exampleAttributes exampleTcb exampleBuffer 4) history
        sock ∧
      Machine.events history = [.sendPendingData, .reTxTimeout] ∧
      ∃ result, TcpSocketBase.step txBytes tcpNewReno exampleAttributes sock (.ack exampleSegment) =
        .ok result := by
  have fresh : Machine.Run (TcpSocketBase.step txBytes tcpNewReno exampleAttributes)
      (TcpSocketBase.established txBytes exampleAttributes exampleTcb exampleBuffer 4) [] _ := .start
  have sent := fresh.next .sendPendingData _ _ rfl
  have late := sent.next .reTxTimeout _ _ rfl
  exact ⟨_, _, late, rfl, assertions_hold tcpNewReno_windowOnly (by decide) late _⟩

end Assertions

end NetworkProj.Ns3
