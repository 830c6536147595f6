import NetworkProj.Tcp.Windows

set_option autoImplicit false

namespace NetworkProj.Ns3

variable {β : Type} {lib : TcpTxBuffer β} {content : β → List UInt8}
  {attributes : TcpAttributes} {sock sock' : TcpSocketBase β} {emitted : List TcpEffect}

section IncreaseWindow

variable {tcb : TcpSocketState}

theorem toNat_add_of_lt {left right : UInt32} (room : left.toNat + right.toNat < 2 ^ 32) :
    (left + right).toNat = left.toNat + right.toNat := by
  rw [UInt32.toNat_add, Nat.mod_eq_of_lt room]

/-- From a window of a segment on, congestion avoidance adds at most a segment. -/
theorem congestionAvoidance_grows (segmentsAcked : UInt32) (full : tcb.segmentSize ≠ 0)
    (low : tcb.segmentSize.toNat ≤ tcb.cWnd.toNat)
    (room : tcb.cWnd.toNat + tcb.segmentSize.toNat < 2 ^ 32) :
    tcb.cWnd.toNat ≤ (congestionAvoidance tcb segmentsAcked).cWnd.toNat ∧
      (congestionAvoidance tcb segmentsAcked).cWnd.toNat ≤
        tcb.cWnd.toNat + tcb.segmentSize.toNat := by
  unfold congestionAvoidance
  split
  · have some := toNat_pos full
    have adder : (max 1 (tcb.segmentSize * tcb.segmentSize / tcb.cWnd)).toNat ≤
        tcb.segmentSize.toNat := by
      have square : (tcb.segmentSize * tcb.segmentSize / tcb.cWnd).toNat ≤ tcb.segmentSize.toNat := by
        rw [UInt32.toNat_div, UInt32.toNat_mul]
        refine Nat.le_trans (Nat.div_le_div (Nat.mod_le _ _) low (by omega)) ?_
        exact Nat.le_of_eq (Nat.mul_div_cancel _ some)
      change (if (1 : UInt32) ≤ _ then _ else (1 : UInt32)).toNat ≤ _
      split
      · exact square
      · rw [UInt32.toNat_one]
        omega
    have whole := toNat_add_of_lt (show tcb.cWnd.toNat +
      (max 1 (tcb.segmentSize * tcb.segmentSize / tcb.cWnd)).toNat < 2 ^ 32 by omega)
    dsimp only
    omega
  · omega

theorem slowStart_grows (segmentsAcked : UInt32)
    (room : tcb.cWnd.toNat + tcb.segmentSize.toNat < 2 ^ 32) :
    tcb.cWnd.toNat ≤ (slowStart tcb segmentsAcked).1.cWnd.toNat ∧
      (slowStart tcb segmentsAcked).1.cWnd.toNat ≤ tcb.cWnd.toNat + tcb.segmentSize.toNat ∧
      (slowStart tcb segmentsAcked).1.segmentSize = tcb.segmentSize := by
  unfold slowStart
  split
  · have whole := toNat_add_of_lt room
    exact ⟨by dsimp only; omega, by dsimp only; omega, rfl⟩
  · exact ⟨Nat.le_refl _, Nat.le_add_right _ _, rfl⟩

theorem increaseWindow_grows (segmentsAcked : UInt32) (full : tcb.segmentSize ≠ 0)
    (low : tcb.segmentSize.toNat ≤ tcb.cWnd.toNat)
    (room : tcb.cWnd.toNat + 2 * tcb.segmentSize.toNat < 2 ^ 32) :
    tcb.cWnd.toNat ≤ (tcpNewReno.increaseWindow tcb segmentsAcked).cWnd.toNat ∧
      (tcpNewReno.increaseWindow tcb segmentsAcked).cWnd.toNat ≤
        tcb.cWnd.toNat + 2 * tcb.segmentSize.toNat := by
  have started : tcb.cWnd.toNat ≤ (if tcb.cWnd < tcb.ssThresh then slowStart tcb segmentsAcked
        else (tcb, segmentsAcked)).1.cWnd.toNat ∧
      (if tcb.cWnd < tcb.ssThresh then slowStart tcb segmentsAcked
        else (tcb, segmentsAcked)).1.cWnd.toNat ≤ tcb.cWnd.toNat + tcb.segmentSize.toNat ∧
      (if tcb.cWnd < tcb.ssThresh then slowStart tcb segmentsAcked
        else (tcb, segmentsAcked)).1.segmentSize = tcb.segmentSize := by
    split
    · exact slowStart_grows segmentsAcked (by omega)
    · exact ⟨Nat.le_refl _, Nat.le_add_right _ _, rfl⟩
  simp only [tcpNewReno]
  generalize (if tcb.cWnd < tcb.ssThresh then slowStart tcb segmentsAcked
    else (tcb, segmentsAcked)) = result at started
  obtain ⟨slow, left⟩ := result
  obtain ⟨above, below, size⟩ := started
  dsimp only at above below size ⊢
  split
  · have avoided := congestionAvoidance_grows left (size ▸ full) (by rw [size]; omega)
      (by rw [size]; omega)
    rw [size] at avoided
    omega
  · omega

end IncreaseWindow

section Guarded

variable {tcb : TcpSocketState} {txBuffer : β} {rWnd : UInt32}
  {history : Machine.History TcpEvent TcpEffect}

@[simp] theorem tcpNewReno_pktsAcked (tcb : TcpSocketState) (segmentsAcked : UInt32) :
    tcpNewReno.pktsAcked tcb segmentsAcked = tcb := rfl

theorem guardedWindow_wide (wide : ¬ tcb.initialCWnd ≤ 1) (cWnd : UInt32) :
    guardedWindow tcb cWnd = tcb := by
  rw [guardedWindow, if_neg wide]

theorem guardedWindow_single (single : tcb.initialCWnd ≤ 1) (cWnd : UInt32) :
    guardedWindow tcb cWnd = { tcb with cWnd } := by
  rw [guardedWindow, if_pos single]

theorem CongestionMove.grows {view view' : CongestionView} {inFlight : UInt32}
    (move : CongestionMove tcpNewReno attributes inFlight view view')
    (wide : ¬ view.tcb.initialCWnd ≤ 1) (full : view.tcb.segmentSize ≠ 0)
    (low : view.tcb.segmentSize.toNat ≤ view.tcb.cWnd.toNat)
    (room : view.tcb.cWnd.toNat + 2 * view.tcb.segmentSize.toNat < 2 ^ 32) :
    view.tcb.cWnd.toNat ≤ view'.tcb.cWnd.toNat ∧
      view'.tcb.cWnd.toNat ≤ view.tcb.cWnd.toNat + 2 * view.tcb.segmentSize.toNat := by
  have kept : view.tcb.cWnd.toNat ≤ view.tcb.cWnd.toNat ∧
      view.tcb.cWnd.toNat ≤ view.tcb.cWnd.toNat + 2 * view.tcb.segmentSize.toNat :=
    ⟨Nat.le_refl _, Nat.le_add_right _ _⟩
  have opened (newSegsAcked : UInt32) :=
    @increaseWindow_grows { view.tcb with congState := .open } newSegsAcked full low room
  cases move with
  | quiet => exact kept
  | firstDup => exact kept
  | furtherDup => exact kept
  | recover flight =>
    have lost : ¬ (view.tcb.lost tcpNewReno flight .recovery).initialCWnd ≤ 1 := wide
    rw [tcpNewReno_pktsAcked, guardedWindow_wide lost]
    exact kept
  | recoveryDup =>
    rw [tcpNewReno_pktsAcked, guardedWindow_wide wide]
    exact kept
  | openAck segsAcked newSegsAcked => exact increaseWindow_grows newSegsAcked full low room
  | disorderAck segsAcked newSegsAcked => exact opened newSegsAcked
  | partialAck =>
    rw [tcpNewReno_pktsAcked, guardedWindow_wide wide, guardedWindow_wide wide]
    exact kept
  | fullAck segsAcked newSegsAcked =>
    rw [tcpNewReno_pktsAcked, guardedWindow_wide wide]
    exact opened newSegsAcked
  | lossAck segsAcked newSegsAcked => exact opened newSegsAcked
  | cwrAck newSegsAcked => exact increaseWindow_grows newSegsAcked full low room
  | timeout flight =>
    have lost : ¬ (view.tcb.lost tcpNewReno flight .loss).initialCWnd ≤ 1 := wide
    rw [guardedWindow_wide lost]
    exact kept
  | timeoutAgain => exact kept

theorem CongestionMove.constants {ops : TcpCongestionOps} (writes : ops.WindowOnly)
    {view view' : CongestionView} {inFlight : UInt32}
    (move : CongestionMove ops attributes inFlight view view') :
    view'.tcb.initialCWnd = view.tcb.initialCWnd ∧ view'.tcb.segmentSize = view.tcb.segmentSize := by
  have increased := writes.increased
  have acked := writes.acked
  cases move <;> simp_all [TcpSocketState.lost]

structure TcpSocketState.Growing (initial tcb : TcpSocketState) : Prop where
  initialCWnd : tcb.initialCWnd = initial.initialCWnd
  segmentSize : tcb.segmentSize = initial.segmentSize
  low : initial.segmentSize.toNat ≤ tcb.cWnd.toNat

-- No step makes the window larger by more than that.
def WindowFits (sock : TcpSocketBase β) (_event : TcpEvent) : Prop :=
  sock.tcb.cWnd.toNat + 2 * sock.tcb.segmentSize.toNat < 2 ^ 32

theorem initialWindow_toNat (initial : TcpSocketState)
    (fits : initial.initialCWnd.toNat * initial.segmentSize.toNat < 2 ^ 32) :
    (initial.initialCWnd * initial.segmentSize).toNat =
      initial.initialCWnd.toNat * initial.segmentSize.toNat := by
  rw [UInt32.toNat_mul, Nat.mod_eq_of_lt fits]

theorem TcpSocketState.Growing.step (two : 2 ≤ tcb.initialCWnd) (full : tcb.segmentSize ≠ 0)
    (holds : tcb.Growing sock.tcb) {event : TcpEvent} (other : event.isSyn = false)
    (taken : TcpSocketBase.step lib tcpNewReno attributes sock event = .ok (sock', emitted))
    (room : WindowFits sock event) :
    tcb.Growing sock'.tcb ∧ sock.tcb.cWnd.toNat ≤ sock'.tcb.cWnd.toNat := by
  obtain ⟨initialCWnd, segmentSize, low⟩ := holds
  have wide : ¬ sock.view.tcb.initialCWnd ≤ 1 := by
    change ¬ sock.tcb.initialCWnd ≤ 1
    rw [UInt32.le_iff_toNat_le] at two ⊢
    rw [initialCWnd]
    exact Nat.not_le.mpr two
  have size : sock.view.tcb.segmentSize = tcb.segmentSize := segmentSize
  have move := step_move other taken
  obtain ⟨grown, _⟩ := move.grows wide (size ▸ full) (size ▸ low) room
  obtain ⟨same, same_size⟩ := move.constants tcpNewReno_windowOnly
  exact ⟨⟨same.trans initialCWnd, same_size.trans segmentSize, Nat.le_trans low grown⟩, grown⟩

theorem run_growing (two : 2 ≤ tcb.initialCWnd) (full : tcb.segmentSize ≠ 0)
    (fits : tcb.initialCWnd.toNat * tcb.segmentSize.toNat < 2 ^ 32)
    (run : Machine.Run (TcpSocketBase.step lib tcpNewReno attributes)
      (TcpSocketBase.established lib attributes tcb txBuffer rWnd) history sock)
    (room : Machine.Guarded (TcpSocketBase.step lib tcpNewReno attributes)
      (TcpSocketBase.established lib attributes tcb txBuffer rWnd) WindowFits history) :
    tcb.Growing sock.tcb := by
  have some : 0 < tcb.initialCWnd.toNat :=
    Nat.lt_of_lt_of_le (by decide) (UInt32.le_iff_toNat_le.mp two)
  have least := Nat.le_mul_of_pos_left tcb.segmentSize.toNat some
  have first := initialWindow_toNat tcb fits
  refine run.invariant (fun history state =>
    Machine.Guarded _ _ WindowFits history → tcb.Growing state.tcb) ?_ ?_ room
  · intro _
    exact ⟨rfl, rfl, first ▸ least⟩
  · intro history state event state' emitted before holds taken room
    have growing := holds room.before
    cases syn : event.isSyn with
    | false => exact (growing.step two full syn taken (room.last before)).1
    | true =>
      obtain ⟨_, windowSize, ackNumber, rfl⟩ := step_syn syn taken
      refine ⟨growing.initialCWnd, growing.segmentSize, ?_⟩
      simp only [initializeWindow, growing.initialCWnd, growing.segmentSize, first]
      exact least

/-- With a first window of two segments or more, `TcpNewReno` never takes back any of its window, for
no loss and no timeout, as long as the window fits its 32 bits. -/
theorem newReno_never_backs_off (two : 2 ≤ tcb.initialCWnd) (full : tcb.segmentSize ≠ 0)
    (fits : tcb.initialCWnd.toNat * tcb.segmentSize.toNat < 2 ^ 32)
    (run : Machine.Run (TcpSocketBase.step lib tcpNewReno attributes)
      (TcpSocketBase.established lib attributes tcb txBuffer rWnd) history sock)
    {event : TcpEvent} (other : event.isSyn = false)
    (taken : TcpSocketBase.step lib tcpNewReno attributes sock event = .ok (sock', emitted))
    (room : Machine.Guarded (TcpSocketBase.step lib tcpNewReno attributes)
      (TcpSocketBase.established lib attributes tcb txBuffer rWnd) WindowFits
      (history ++ [(event, emitted)])) :
    sock.tcb.cWnd ≤ sock'.tcb.cWnd := by
  have growing := run_growing two full fits run room.before
  rw [UInt32.le_iff_toNat_le]
  exact (growing.step two full other taken (room.last run)).2

theorem newReno_never_backs_off_example : ∃ history sock sock' emitted,
    Machine.Run (TcpSocketBase.step txBytes tcpNewReno exampleAttributes)
        (TcpSocketBase.established txBytes exampleAttributes exampleTcb exampleBuffer 4) history
        sock ∧
      Machine.events history = [.sendPendingData] ∧
      TcpSocketBase.step txBytes tcpNewReno exampleAttributes sock .reTxTimeout =
        .ok (sock', emitted) ∧
      sock.tcb.cWnd ≤ sock'.tcb.cWnd := by
  have fresh : Machine.Run (TcpSocketBase.step txBytes tcpNewReno exampleAttributes)
      (TcpSocketBase.established txBytes exampleAttributes exampleTcb exampleBuffer 4) [] _ := .start
  have sent := fresh.next .sendPendingData _ _ rfl
  obtain ⟨⟨sock', emitted⟩, taken⟩ :=
    assertions_hold tcpNewReno_windowOnly (by decide) sent .reTxTimeout
  have window : (4 : Nat) + 2 * 2 < 2 ^ 32 := by decide
  exact ⟨_, _, sock', emitted, sent, rfl, taken,
    newReno_never_backs_off (by decide) (by decide) (by decide) sent rfl taken
      (.next (.next (.start _ _ _) fresh window) sent window)⟩

end Guarded

section Unguarded

variable {tcb : TcpSocketState} {txBuffer : β} {rWnd : UInt32}
  {history : Machine.History TcpEvent TcpEffect}

/-- What holds of the window when the socket starts with one segment and the guards are open. -/
structure TcpSocketState.Reacting (initial tcb : TcpSocketState) : Prop where
  initialCWnd : tcb.initialCWnd = 1
  initialSsThresh : tcb.initialSsThresh = initial.initialSsThresh
  segmentSize : tcb.segmentSize = initial.segmentSize
  low : initial.segmentSize.toNat ≤ tcb.cWnd.toNat
  ssThresh : initial.segmentSize.toNat ≤ tcb.ssThresh.toNat

/-- The sums of a step fit their 32 bits: what it may add to the window, to the bytes in flight, and
to half of them for the duplicate ACKs. -/
structure SumsFit (lib : TcpTxBuffer β) (sock : TcpSocketBase β) (_event : TcpEvent) : Prop where
  window : sock.tcb.cWnd.toNat + 2 * sock.tcb.segmentSize.toNat < 2 ^ 32
  inFlight : (bytesInFlight lib sock).toNat + 3 * sock.tcb.segmentSize.toNat < 2 ^ 32
  duplicates : 2 ^ 31 + (sock.dupAckCount.toNat + 3) * sock.tcb.segmentSize.toNat < 2 ^ 32

theorem toNat_max (left right : UInt32) :
    (max left right).toNat = max left.toNat right.toNat := by
  change (if left ≤ right then right else left).toNat = _
  split
  next ordered => rw [Nat.max_eq_right (UInt32.le_iff_toNat_le.mp ordered)]
  next other =>
    have ordered := UInt32.le_iff_toNat_le.mp (UInt32.le_of_lt (UInt32.not_le.mp other))
    rw [Nat.max_eq_left ordered]

theorem newReno_ssThresh (state : TcpSocketState) (flight : UInt32)
    (room : 2 * state.segmentSize.toNat < 2 ^ 32) :
    2 * state.segmentSize.toNat ≤ (tcpNewReno.getSsThresh state flight).toNat ∧
      (tcpNewReno.getSsThresh state flight).toNat ≤ 2 ^ 31 + 2 * state.segmentSize.toNat := by
  have bound := UInt32.toNat_lt flight
  have double : (2 * state.segmentSize).toNat = 2 * state.segmentSize.toNat := by
    rw [UInt32.toNat_mul]
    exact Nat.mod_eq_of_lt room
  have half : (flight / 2).toNat = flight.toNat / 2 := UInt32.toNat_div _ _
  change 2 * state.segmentSize.toNat ≤ (max (2 * state.segmentSize) (flight / 2)).toNat ∧
    (max (2 * state.segmentSize) (flight / 2)).toNat ≤ _
  rw [toNat_max, double, half]
  omega

theorem safeSubtraction_le (left right : UInt32) :
    (safeSubtraction left right).toNat ≤ left.toNat := by
  unfold safeSubtraction
  split
  next more =>
    rw [UInt32.toNat_sub_of_le _ _ (UInt32.le_of_lt more)]
    omega
  · exact Nat.zero_le _

namespace TcpSocketState.Reacting

variable {initial : TcpSocketState}

theorem state (holds : initial.Reacting tcb) (congState : TcpCongState) :
    initial.Reacting { tcb with congState } :=
  ⟨holds.initialCWnd, holds.initialSsThresh, holds.segmentSize, holds.low, holds.ssThresh⟩

theorem increaseWindow (holds : initial.Reacting tcb) (full : initial.segmentSize ≠ 0)
    (segmentsAcked : UInt32) (room : tcb.cWnd.toNat + 2 * initial.segmentSize.toNat < 2 ^ 32) :
    initial.Reacting (tcpNewReno.increaseWindow tcb segmentsAcked) := by
  obtain ⟨initialCWnd, initialSsThresh, segmentSize, low, ssThresh⟩ := holds
  obtain ⟨_, same_size, same_cWnd, same_thresh, same_initial⟩ :=
    tcpNewReno_windowOnly.increased tcb segmentsAcked
  have grown := increaseWindow_grows segmentsAcked (segmentSize ▸ full) (segmentSize ▸ low)
    (by rw [segmentSize]; exact room)
  exact ⟨same_cWnd.trans initialCWnd, same_initial.trans initialSsThresh,
    same_size.trans segmentSize, Nat.le_trans low grown.1, same_thresh ▸ ssThresh⟩

theorem single (holds : initial.Reacting tcb) : tcb.initialCWnd ≤ 1 := by
  rw [holds.initialCWnd]
  exact UInt32.le_refl 1

theorem guardedWindow (holds : initial.Reacting tcb) {cWnd : UInt32}
    (low : initial.segmentSize.toNat ≤ cWnd.toNat) :
    initial.Reacting (Ns3.guardedWindow tcb cWnd) := by
  rw [guardedWindow_single holds.single]
  exact ⟨holds.initialCWnd, holds.initialSsThresh, holds.segmentSize, low, holds.ssThresh⟩

theorem lost (holds : initial.Reacting tcb) (flight : UInt32) (congState : TcpCongState)
    (room : 2 * initial.segmentSize.toNat < 2 ^ 32) :
    initial.Reacting (tcb.lost tcpNewReno flight congState) ∧
      (tcb.lost tcpNewReno flight congState).ssThresh.toNat ≤
        2 ^ 31 + 2 * initial.segmentSize.toNat := by
  obtain ⟨initialCWnd, initialSsThresh, segmentSize, low, ssThresh⟩ := holds
  have same : tcb.segmentSize.toNat = initial.segmentSize.toNat := by rw [segmentSize]
  have threshold : 2 * tcb.segmentSize.toNat ≤
        (tcb.lost tcpNewReno flight congState).ssThresh.toNat ∧
      (tcb.lost tcpNewReno flight congState).ssThresh.toNat ≤ 2 ^ 31 + 2 * tcb.segmentSize.toNat :=
    newReno_ssThresh { tcb with congState } flight (by dsimp only; omega)
  rw [same] at threshold
  refine ⟨⟨initialCWnd, initialSsThresh, segmentSize, low, ?_⟩, threshold.2⟩
  exact Nat.le_trans (by omega) threshold.1

theorem recovering (holds : initial.Reacting tcb) (full : initial.segmentSize ≠ 0)
    (flight : UInt32) {dupAckCount : UInt32}
    (room : 2 ^ 31 + (dupAckCount.toNat + 3) * initial.segmentSize.toNat < 2 ^ 32) :
    initial.Reacting (Ns3.guardedWindow (tcb.lost tcpNewReno flight .recovery)
      ((tcb.lost tcpNewReno flight .recovery).ssThresh +
        (dupAckCount + 1) * initial.segmentSize)) := by
  have product : dupAckCount.toNat + 3 ≤ (dupAckCount.toNat + 3) * initial.segmentSize.toNat :=
    Nat.le_mul_of_pos_right _ (toNat_pos full)
  have spread : (dupAckCount.toNat + 3) * initial.segmentSize.toNat =
      (dupAckCount.toNat + 1) * initial.segmentSize.toNat + 2 * initial.segmentSize.toNat := by
    rw [← Nat.add_mul]
  obtain ⟨lost, threshold⟩ := holds.lost flight .recovery (by omega)
  have least := lost.ssThresh
  have counted : (dupAckCount + 1).toNat = dupAckCount.toNat + 1 :=
    toNat_add_of_lt (by rw [UInt32.toNat_one]; omega)
  have added : ((dupAckCount + 1) * initial.segmentSize).toNat =
      (dupAckCount.toNat + 1) * initial.segmentSize.toNat := by
    rw [UInt32.toNat_mul, counted, Nat.mod_eq_of_lt (by omega)]
  have whole := toNat_add_of_lt (show (tcb.lost tcpNewReno flight .recovery).ssThresh.toNat +
    ((dupAckCount + 1) * initial.segmentSize).toNat < 2 ^ 32 by omega)
  exact lost.guardedWindow (by omega)

theorem deflated (holds : initial.Reacting tcb) (bytesAcked : UInt32)
    (room : tcb.cWnd.toNat + 2 * initial.segmentSize.toNat < 2 ^ 32) :
    initial.Reacting (Ns3.guardedWindow
      (Ns3.guardedWindow tcb (safeSubtraction tcb.cWnd bytesAcked))
      ((Ns3.guardedWindow tcb (safeSubtraction tcb.cWnd bytesAcked)).cWnd +
        initial.segmentSize)) := by
  have less := safeSubtraction_le tcb.cWnd bytesAcked
  have whole := toNat_add_of_lt (show (safeSubtraction tcb.cWnd bytesAcked).toNat +
    initial.segmentSize.toNat < 2 ^ 32 by omega)
  have inflated : initial.Reacting (Ns3.guardedWindow tcb
      (safeSubtraction tcb.cWnd bytesAcked + initial.segmentSize)) :=
    holds.guardedWindow (by omega)
  have single : ({ tcb with cWnd := safeSubtraction tcb.cWnd bytesAcked } :
      TcpSocketState).initialCWnd ≤ 1 := holds.single
  rw [guardedWindow_single holds.single] at inflated
  rw [guardedWindow_single holds.single, guardedWindow_single single]
  exact inflated

theorem opened (holds : initial.Reacting tcb) (full : initial.segmentSize ≠ 0)
    {flight : UInt32} (newSegsAcked : UInt32)
    (room : flight.toNat + 3 * initial.segmentSize.toNat < 2 ^ 32) :
    initial.Reacting (tcpNewReno.increaseWindow
      { Ns3.guardedWindow tcb (min tcb.ssThresh (flight + initial.segmentSize)) with
        congState := .open } newSegsAcked) := by
  have whole := toNat_add_of_lt (show flight.toNat + initial.segmentSize.toNat < 2 ^ 32 by omega)
  have least := toNat_min tcb.ssThresh (flight + initial.segmentSize)
  have threshold := holds.ssThresh
  have moved : initial.Reacting (Ns3.guardedWindow tcb
      (min tcb.ssThresh (flight + initial.segmentSize))) := holds.guardedWindow (by omega)
  refine (moved.state .open).increaseWindow full newSegsAcked ?_
  rw [guardedWindow_single holds.single]
  dsimp only
  omega

end TcpSocketState.Reacting

theorem CongestionMove.reacting (full : tcb.segmentSize ≠ 0) (holds : tcb.Reacting sock.tcb)
    {event : TcpEvent} (fits : SumsFit lib sock event)
    (move : CongestionMove tcpNewReno attributes (bytesInFlight lib sock) sock.view sock'.view) :
    tcb.Reacting sock'.tcb := by
  have reacting : tcb.Reacting sock.view.tcb := holds
  change tcb.Reacting sock'.view.tcb
  obtain ⟨window, inFlight, duplicates⟩ := fits
  have size : sock.view.tcb.segmentSize = tcb.segmentSize := holds.segmentSize
  rw [holds.segmentSize] at window inFlight duplicates
  generalize bytesInFlight lib sock = flight at move inFlight
  have window : sock.view.tcb.cWnd.toNat + 2 * tcb.segmentSize.toNat < 2 ^ 32 := window
  have duplicates : 2 ^ 31 + (sock.view.dupAckCount.toNat + 3) * tcb.segmentSize.toNat < 2 ^ 32 :=
    duplicates
  generalize sock.view = view at move reacting size window duplicates
  generalize sock'.view = view' at move ⊢
  cases move with
  | quiet => exact reacting
  | firstDup => exact reacting.state _
  | furtherDup => exact reacting
  | recover inFlight' =>
    rw [size]
    exact reacting.recovering full inFlight' duplicates
  | recoveryDup =>
    have low := reacting.low
    have whole := toNat_add_of_lt
      (show view.tcb.cWnd.toNat + tcb.segmentSize.toNat < 2 ^ 32 by omega)
    rw [size]
    exact reacting.guardedWindow (by omega)
  | openAck segsAcked newSegsAcked => exact reacting.increaseWindow full newSegsAcked window
  | disorderAck segsAcked newSegsAcked =>
    exact (reacting.state _).increaseWindow full newSegsAcked window
  | partialAck bytesAcked segsAcked =>
    rw [size]
    exact reacting.deflated bytesAcked window
  | fullAck segsAcked newSegsAcked =>
    rw [size]
    exact reacting.opened full newSegsAcked inFlight
  | lossAck segsAcked newSegsAcked =>
    exact (reacting.state _).increaseWindow full newSegsAcked window
  | cwrAck newSegsAcked => exact reacting.increaseWindow full newSegsAcked window
  | timeout inFlight' =>
    refine (reacting.lost inFlight' .loss (by omega)).1.guardedWindow ?_
    exact Nat.le_of_eq (by rw [size])
  | timeoutAgain => exact reacting

/-- With a first window of one segment, `TcpNewReno` reacts to losses and timeouts, and still the
window never falls below a segment, so that nothing is ever divided by an empty window. -/
theorem newReno_keeps_a_segment (single : tcb.initialCWnd = 1) (full : tcb.segmentSize ≠ 0)
    (threshold : tcb.segmentSize ≤ tcb.initialSsThresh)
    (run : Machine.Run (TcpSocketBase.step lib tcpNewReno attributes)
      (TcpSocketBase.established lib attributes tcb txBuffer rWnd) history sock)
    (room : Machine.Guarded (TcpSocketBase.step lib tcpNewReno attributes)
      (TcpSocketBase.established lib attributes tcb txBuffer rWnd) (SumsFit lib) history) :
    tcb.Reacting sock.tcb := by
  have least := UInt32.le_iff_toNat_le.mp threshold
  -- At the start and after a SYN, which has the window start again.
  have opened (tcb' : TcpSocketState) (initialCWnd : tcb'.initialCWnd = 1)
      (initialSsThresh : tcb'.initialSsThresh = tcb.initialSsThresh)
      (segmentSize : tcb'.segmentSize = tcb.segmentSize) :
      tcb.Reacting { tcb' with
        cWnd := tcb'.initialCWnd * tcb'.segmentSize
        ssThresh := tcb'.initialSsThresh } := by
    have first : (tcb'.initialCWnd * tcb'.segmentSize).toNat = tcb.segmentSize.toNat := by
      rw [initialCWnd, UInt32.one_mul, segmentSize]
    exact ⟨initialCWnd, initialSsThresh, segmentSize, Nat.le_of_eq first.symm,
      initialSsThresh ▸ least⟩
  refine run.invariant (fun history sock =>
    Machine.Guarded _ _ (SumsFit lib) history → tcb.Reacting sock.tcb) ?_ ?_ room
  · intro _
    exact (opened tcb single rfl rfl).state .open
  · intro history sock event sock' emitted before holds taken room
    have reacting := holds room.before
    cases syn : event.isSyn with
    | true =>
      obtain ⟨_, windowSize, ackNumber, rfl⟩ := step_syn syn taken
      exact opened sock.tcb reacting.initialCWnd reacting.initialSsThresh reacting.segmentSize
    | false => exact (step_move syn taken).reacting full reacting (room.last before)

theorem newReno_keeps_a_segment_example : ∃ history sock,
    Machine.Run (TcpSocketBase.step txBytes tcpNewReno exampleAttributes)
        (TcpSocketBase.established txBytes exampleAttributes { exampleTcb with initialCWnd := 1 }
          exampleBuffer 4) history sock ∧
      Machine.events history = [.sendPendingData, .reTxTimeout, .ack exampleSegment] ∧
      ({ exampleTcb with initialCWnd := 1 } : TcpSocketState).Reacting sock.tcb := by
  have fresh : Machine.Run (TcpSocketBase.step txBytes tcpNewReno exampleAttributes)
      (TcpSocketBase.established txBytes exampleAttributes { exampleTcb with initialCWnd := 1 }
        exampleBuffer 4) [] _ := .start
  have sent := fresh.next .sendPendingData _ _ rfl
  have late := sent.next .reTxTimeout _ _ rfl
  have acked := late.next (.ack exampleSegment) _ _ rfl
  exact ⟨_, _, acked, rfl, newReno_keeps_a_segment rfl (by decide) (by decide) acked
    (.next (.next (.next (.start _ _ _) fresh ⟨by decide, by decide, by decide⟩) sent
      ⟨by decide, by decide, by decide⟩) late ⟨by decide, by decide, by decide⟩)⟩

end Unguarded

end NetworkProj.Ns3
