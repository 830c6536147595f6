import Mathlib.Algebra.Group.Nat.Defs
import NetworkProj.Shared.Machine
import NetworkProj.Shared.Loop

set_option autoImplicit false

/-!
# `tcp-socket-base.cc`: the sending half of an established connection

With the congestion control that it is given. `SequenceNumber32` and
`TcpTxBuffer` are not in the repository and parameters here. The timers may run
out at any time, so when they are set is left out.
-/

namespace NetworkProj.Ns3

inductive TcpCongState where
  | open
  | disorder
  | cwr
  | recovery
  | loss
deriving DecidableEq

structure TcpSocketState where
  cWnd : UInt32
  ssThresh : UInt32
  initialCWnd : UInt32
  initialSsThresh : UInt32
  segmentSize : UInt32
  congState : TcpCongState
deriving DecidableEq

/-- The calls of `TcpCongestionOps`. No algorithm here reads the round-trip time. -/
structure TcpCongestionOps where
  increaseWindow : TcpSocketState → UInt32 → TcpSocketState
  getSsThresh : TcpSocketState → UInt32 → UInt32
  pktsAcked : TcpSocketState → UInt32 → TcpSocketState

section TcpFixed

def tcpFixed : TcpCongestionOps where
  increaseWindow tcb _ := { tcb with cWnd := tcb.initialCWnd * tcb.segmentSize }
  getSsThresh state _ := state.initialCWnd * state.segmentSize
  pktsAcked tcb _ := { tcb with cWnd := tcb.initialCWnd * tcb.segmentSize }

end TcpFixed

section TcpNewReno

def slowStart (tcb : TcpSocketState) (segmentsAcked : UInt32) : TcpSocketState × UInt32 :=
  if segmentsAcked ≥ 1 then ({ tcb with cWnd := tcb.cWnd + tcb.segmentSize }, segmentsAcked - 1)
  else (tcb, 0)

-- A `double` holds the quotient of two `uint32_t` well enough for its integer part.
def congestionAvoidance (tcb : TcpSocketState) (segmentsAcked : UInt32) : TcpSocketState :=
  if segmentsAcked > 0 then
    { tcb with cWnd := tcb.cWnd + max 1 (tcb.segmentSize * tcb.segmentSize / tcb.cWnd) }
  else
    tcb

def tcpNewReno : TcpCongestionOps where
  increaseWindow tcb segmentsAcked :=
    let (tcb, segmentsAcked) :=
      if tcb.cWnd < tcb.ssThresh then slowStart tcb segmentsAcked else (tcb, segmentsAcked)
    if tcb.cWnd ≥ tcb.ssThresh then congestionAvoidance tcb segmentsAcked else tcb
  getSsThresh state bytesInFlight := max (2 * state.segmentSize) (bytesInFlight / 2)
  pktsAcked tcb _ := tcb

end TcpNewReno

/-- What the socket uses of `SequenceNumber32` and of `TcpTxBuffer`. -/
structure TcpTxBuffer (β : Type) where
  less : UInt32 → UInt32 → Bool
  greater : UInt32 → UInt32 → Bool
  headSequence : β → UInt32
  size : β → UInt32
  sizeFromSequence : β → UInt32 → UInt32
  copyFromSequence : β → UInt32 → UInt32 → List UInt8
  discardUpTo : β → UInt32 → β
  add : β → List UInt8 → Option β

-- In the order of the declaration, in which `m_state` is compared.
inductive TcpState where
  | closed
  | listen
  | synSent
  | synRcvd
  | established
  | closeWait
  | lastAck
  | finWait1
  | finWait2
  | closing
  | timeWait
deriving DecidableEq

-- `m_state <= ESTABLISHED`.
def TcpState.upToEstablished : TcpState → Bool
  | .closed | .listen | .synSent | .synRcvd | .established => true
  | .closeWait | .lastAck | .finWait1 | .finWait2 | .closing | .timeWait => false

structure TcpAttributes where
  retxThresh : UInt32
  limitedTx : Bool
  noDelay : Bool
  dataRetries : UInt32

structure TcpSocketBase (β : Type) where
  state : TcpState
  tcb : TcpSocketState
  txBuffer : β
  nextTxSequence : UInt32
  highTxMark : UInt32
  highRxMark : UInt32
  highRxAckMark : UInt32
  recover : UInt32
  rWnd : UInt32
  dupAckCount : UInt32
  retransOut : UInt32
  bytesAckedNotProcessed : UInt32
  synCount : UInt32
  dataRetrCount : UInt32
  isFirstPartialAck : Bool
  closeOnEmpty : Bool
  endPoint : Bool

inductive TcpSender where
  | sendPendingData
  | limitedTransmit
  | doRetransmit
deriving DecidableEq

inductive TcpFlag where
  | syn
  | fin
  | ack

inductive TcpEffect where
  | data (sender : TcpSender) (seq : UInt32) (packet : List UInt8)
  | probe (seq : UInt32) (packet : List UInt8)
  | empty (flag : TcpFlag)
  | connectionFailed
  | errorClose

inductive TcpAssertion where
  | segmentSize
  | dupAckCount
  | isFirstPartialAck

section Windows

variable {β : Type} (lib : TcpTxBuffer β)

def safeSubtraction (a b : UInt32) : UInt32 :=
  if a > b then a - b else 0

def unAckDataCount (sock : TcpSocketBase β) : UInt32 :=
  sock.nextTxSequence - lib.headSequence sock.txBuffer

def bytesInFlight (sock : TcpSocketBase β) : UInt32 :=
  let flightSize := sock.nextTxSequence - lib.headSequence sock.txBuffer
  if sock.retransOut > sock.dupAckCount then
    flightSize + (sock.retransOut - sock.dupAckCount) * sock.tcb.segmentSize
  else
    let duplicatedSize := (sock.dupAckCount - sock.retransOut) * sock.tcb.segmentSize
    if duplicatedSize > flightSize then 0 else flightSize - duplicatedSize

def window (sock : TcpSocketBase β) : UInt32 :=
  min sock.rWnd sock.tcb.cWnd

def availableWindow (sock : TcpSocketBase β) : UInt32 :=
  let unack := unAckDataCount lib sock
  let win := window sock
  if win < unack then 0 else win - unack

end Windows

section Sending

variable {β : Type} (lib : TcpTxBuffer β) (attributes : TcpAttributes)

-- `std::max` of two sequence numbers.
def maxSequence (left right : UInt32) : UInt32 :=
  if lib.less left right then right else left

/-- `SendDataPacket`, without the options, the round-trip history and the timer. -/
def sendDataPacket (sock : TcpSocketBase β) (sender : TcpSender) (seq maxSize : UInt32) :
    TcpSocketBase β × UInt32 × List TcpEffect :=
  let p := lib.copyFromSequence sock.txBuffer maxSize seq
  let sz := UInt32.ofNat p.length
  let remainingData := lib.sizeFromSequence sock.txBuffer (seq + sz)
  let state :=
    if sock.closeOnEmpty ∧ remainingData = 0 then
      if sock.state = .established then .finWait1
      else if sock.state = .closeWait then .lastAck
      else sock.state
    else
      sock.state
  ({ sock with state, highTxMark := maxSequence lib (seq + sz) sock.highTxMark }, sz,
    [.data sender seq p])

-- `while(m_txBuffer->SizeFromSequence(m_nextTxSequence))`.
def sendPendingBody : Loop.Body (TcpSocketBase β) TcpEffect Empty := fun sock =>
  let left := lib.sizeFromSequence sock.txBuffer sock.nextTxSequence
  let w := availableWindow lib sock
  if left = 0 then
    .ok none
  else if w < sock.tcb.segmentSize ∧ left > w then
    .ok none
  else if ¬ attributes.noDelay ∧ unAckDataCount lib sock > 0 ∧ left < sock.tcb.segmentSize then
    .ok none
  else
    let (sent, sz, packets) :=
      sendDataPacket lib sock .sendPendingData sock.nextTxSequence (min w sock.tcb.segmentSize)
    .ok (some ({ sent with nextTxSequence := sent.nextTxSequence + sz }, packets))

def sendPendingData (sock : TcpSocketBase β) : TcpSocketBase β × List TcpEffect :=
  if lib.size sock.txBuffer = 0 ∨ ¬ sock.endPoint then
    (sock, [])
  else
    match Loop.run (sendPendingBody lib attributes)
        ((lib.sizeFromSequence sock.txBuffer sock.nextTxSequence).toNat + 1) sock with
    | .ok result => result

-- A new segment for a duplicate ACK, when it is enabled; the window is not asked.
def limitedTransmit (sock : TcpSocketBase β) : TcpSocketBase β × List TcpEffect :=
  if attributes.limitedTx ∧ lib.sizeFromSequence sock.txBuffer sock.nextTxSequence > 0 then
    let (sent, sz, packets) :=
      sendDataPacket lib sock .limitedTransmit sock.nextTxSequence sock.tcb.segmentSize
    ({ sent with nextTxSequence := sent.nextTxSequence + sz }, packets)
  else
    (sock, [])

-- An empty packet needs an end point.
def sendEmptyPacket (sock : TcpSocketBase β) (flag : TcpFlag) : List TcpEffect :=
  if sock.endPoint then [.empty flag] else []

def doRetransmit (sock : TcpSocketBase β) : TcpSocketBase β × List TcpEffect :=
  if sock.state = .synSent then
    if sock.synCount > 0 then
      ({ sock with synCount := if sock.endPoint then sock.synCount - 1 else sock.synCount },
        sendEmptyPacket sock .syn)
    else
      (sock, [.connectionFailed])
  else if sock.dataRetrCount = 0 then
    ({ sock with endPoint := false }, [.errorClose])
  else
    let sock := { sock with dataRetrCount := sock.dataRetrCount - 1 }
    if lib.size sock.txBuffer = 0 then
      (sock,
        if sock.state = .finWait1 ∨ sock.state = .closing then sendEmptyPacket sock .fin else [])
    else
      let head := lib.headSequence sock.txBuffer
      let (sent, sz, packets) := sendDataPacket lib sock .doRetransmit head sock.tcb.segmentSize
      ({ sent with
          retransOut := sent.retransOut + 1
          nextTxSequence := maxSequence lib sent.nextTxSequence (head + sz) }, packets)

end Sending

section Acks

variable {β : Type} (lib : TcpTxBuffer β) (ops : TcpCongestionOps) (attributes : TcpAttributes)

-- The guard that keeps the window as it is when the socket starts with more than one segment.
def guardedWindow (tcb : TcpSocketState) (cWnd : UInt32) : TcpSocketState :=
  if tcb.initialCWnd ≤ 1 then { tcb with cWnd } else tcb

-- From DISORDER to RECOVERY, before the retransmission.
def enterRecovery (sock : TcpSocketBase β) : TcpSocketBase β :=
  let tcb := { sock.tcb with congState := .recovery }
  let tcb := { tcb with ssThresh := ops.getSsThresh tcb (bytesInFlight lib sock) }
  { sock with
    recover := sock.highTxMark
    tcb := guardedWindow tcb (tcb.ssThresh + sock.dupAckCount * tcb.segmentSize) }

/-- The first branch of `ReceivedAck`. -/
def dupAck (sock : TcpSocketBase β) : Except TcpAssertion (TcpSocketBase β × List TcpEffect) :=
  let sock := { sock with dupAckCount := sock.dupAckCount + 1 }
  match sock.tcb.congState with
  | .open =>
    if sock.dupAckCount ≠ 1 then
      .error .dupAckCount
    else
      .ok (processed
        (limitedTransmit lib attributes
          { sock with tcb := { sock.tcb with congState := .disorder } }))
  | .disorder =>
    if sock.dupAckCount = attributes.retxThresh ∧ ¬ lib.less sock.highRxAckMark sock.recover then
      .ok (processed (doRetransmit lib (enterRecovery lib ops sock)))
    else
      .ok (processed (limitedTransmit lib attributes sock))
  | .recovery =>
    .ok (processed (sendPendingData lib attributes
      { sock with tcb := guardedWindow sock.tcb (sock.tcb.cWnd + sock.tcb.segmentSize) }))
  | .cwr | .loss => .ok (processed (sock, []))
where
  -- One segment has been acknowledged, after all.
  processed (result : TcpSocketBase β × List TcpEffect) : TcpSocketBase β × List TcpEffect :=
    ({ result.1 with tcb := ops.pktsAcked result.1.tcb 1 }, result.2)

-- An ACK in RECOVERY below `m_recover`: no congestion control on the window.
def partialAck (sock : TcpSocketBase β) (ackNumber bytesAcked segsAcked : UInt32) :
    TcpSocketBase β × List TcpEffect :=
  let tcb := guardedWindow sock.tcb (safeSubtraction sock.tcb.cWnd bytesAcked)
  let tcb := if segsAcked ≥ 1 then guardedWindow tcb (tcb.cWnd + tcb.segmentSize) else tcb
  let (sock, packets) := doRetransmit lib { sock with
    tcb
    dupAckCount := safeSubtraction sock.dupAckCount segsAcked
    retransOut := safeSubtraction sock.retransOut 1
    txBuffer := lib.discardUpTo sock.txBuffer ackNumber }
  ({ sock with isFirstPartialAck := false, tcb := ops.pktsAcked sock.tcb 1 }, packets)

-- An ACK in RECOVERY from `m_recover` on.
def fullAck (sock : TcpSocketBase β) (ackNumber segsAcked : UInt32) : TcpSocketBase β :=
  let tcb := guardedWindow sock.tcb
    (min sock.tcb.ssThresh (bytesInFlight lib sock + sock.tcb.segmentSize))
  let tcb := { ops.pktsAcked tcb segsAcked with congState := .open }
  { sock with
    isFirstPartialAck := true
    dupAckCount := 0
    retransOut := 0
    tcb := ops.increaseWindow tcb ((ackNumber - sock.recover) / tcb.segmentSize) }

/-- The third branch of `ReceivedAck`, to the call of `NewAck`. -/
def congestionAck (sock : TcpSocketBase β) (ackNumber bytesAcked newSegsAcked : UInt32) :
    TcpSocketBase β × List TcpEffect :=
  let segsAcked :=
    if newSegsAcked > sock.dupAckCount then newSegsAcked - sock.dupAckCount else 1
  match sock.tcb.congState with
  | .open =>
    ({ sock with
      tcb := ops.increaseWindow (ops.pktsAcked sock.tcb segsAcked) newSegsAcked }, [])
  | .disorder =>
    let tcb := ops.pktsAcked { sock.tcb with congState := .open } segsAcked
    ({ sock with
      tcb := ops.increaseWindow tcb newSegsAcked
      dupAckCount := 0
      retransOut := 0 }, [])
  | .recovery =>
    if lib.less ackNumber sock.recover then
      partialAck lib ops sock ackNumber bytesAcked segsAcked
    else
      (fullAck lib ops sock ackNumber segsAcked, [])
  | .loss =>
    let tcb := { ops.pktsAcked sock.tcb segsAcked with congState := .open }
    ({ sock with
      isFirstPartialAck := true
      tcb := ops.increaseWindow tcb newSegsAcked
      dupAckCount := 0
      retransOut := 0 }, [])
  | .cwr => ({ sock with tcb := ops.increaseWindow sock.tcb newSegsAcked }, [])

-- `NewAck`, without the timer.
def newAck (sock : TcpSocketBase β) (ack : UInt32) : TcpSocketBase β :=
  { sock with
    txBuffer := lib.discardUpTo sock.txBuffer ack
    nextTxSequence := if lib.greater ack sock.nextTxSequence then ack else sock.nextTxSequence }

-- The whole segments that an ACK covers, with what the last ones have left over.
def segmentsAcked (sock : TcpSocketBase β) (bytesAcked : UInt32) : UInt32 × UInt32 :=
  let segmentSize := sock.tcb.segmentSize
  let notProcessed := sock.bytesAckedNotProcessed + bytesAcked % segmentSize
  if notProcessed ≥ segmentSize then
    (bytesAcked / segmentSize + 1, notProcessed - segmentSize)
  else
    (bytesAcked / segmentSize, notProcessed)

/-- `ReceivedAck`, without the data that the segment may bring. -/
def receivedAck (sock : TcpSocketBase β) (ackNumber : UInt32) (packetSize : Nat) :
    Except TcpAssertion (TcpSocketBase β × List TcpEffect) :=
  let head := lib.headSequence sock.txBuffer
  let bytesAcked := ackNumber - head
  let (segsAcked, notProcessed) := segmentsAcked sock bytesAcked
  let sock := { sock with bytesAckedNotProcessed := notProcessed }
  if sock.tcb.segmentSize = 0 then
    .error .segmentSize
  else if ackNumber = head ∧ lib.less ackNumber sock.nextTxSequence ∧ packetSize = 0 then
    dupAck lib ops attributes sock
  else if ackNumber = head ∧ ackNumber = sock.nextTxSequence then
    .ok (sock, [])
  else if lib.greater ackNumber head then
    let (sock, packets) := congestionAck lib ops sock ackNumber bytesAcked segsAcked
    let sock := { sock with dataRetrCount := attributes.dataRetries }
    if ¬ sock.isFirstPartialAck ∧ sock.tcb.congState ≠ .recovery then
      .error .isFirstPartialAck
    else
      .ok (newAck lib sock ackNumber, packets)
  else
    .ok (sock, [])

end Acks

section Timeouts

variable {β : Type} (lib : TcpTxBuffer β) (ops : TcpCongestionOps)

-- The two early returns of `ReTxTimeout` and of `Retransmit`.
def nothingToRetransmit (sock : TcpSocketBase β) : Bool :=
  sock.state = .closed || sock.state = .timeWait ||
    sock.state.upToEstablished && !lib.less (lib.headSequence sock.txBuffer) sock.highTxMark

def enterLoss (sock : TcpSocketBase β) : TcpSocketBase β :=
  if sock.tcb.congState ≠ .loss then
    let tcb := { sock.tcb with congState := .loss }
    let tcb := { tcb with ssThresh := ops.getSsThresh tcb (bytesInFlight lib sock) }
    { sock with tcb := guardedWindow tcb tcb.segmentSize }
  else
    sock

def retransmit (sock : TcpSocketBase β) : TcpSocketBase β × List TcpEffect :=
  if nothingToRetransmit lib sock then
    (sock, [])
  else
    doRetransmit lib
      { enterLoss lib ops sock with
        nextTxSequence := lib.headSequence sock.txBuffer
        dupAckCount := 0 }

def reTxTimeout (sock : TcpSocketBase β) : TcpSocketBase β × List TcpEffect :=
  if nothingToRetransmit lib sock then (sock, [])
  else retransmit lib ops { sock with recover := sock.highTxMark }

end Timeouts

section Machine

variable {β : Type} (lib : TcpTxBuffer β) (ops : TcpCongestionOps) (attributes : TcpAttributes)

/-- The fields of a segment with the flag ACK and perhaps FIN. The window is scaled. -/
structure TcpSegment where
  sequenceNumber : UInt32
  ackNumber : UInt32
  receivedWindow : UInt32
  fin : Bool
  packetSize : Nat

/-- What the functions that are left out may write: those of the receiving half, of the handshake
and of the closing of a connection. -/
structure TcpOutside where
  state : TcpState
  rWnd : UInt32
  highRxMark : UInt32
  highRxAckMark : UInt32
  synCount : UInt32
  closeOnEmpty : Bool
  endPoint : Bool

inductive TcpEvent where
  | syn (windowSize : UInt32) (ackNumber : Option UInt32)
  | ack (segment : TcpSegment)
  | sendPendingData
  | reTxTimeout
  | persistTimeout
  | send (packet : List UInt8)
  | outside (written : TcpOutside)

-- What `DoForwardUp` does with a SYN, in any state, before its switch.
def initializeWindow (sock : TcpSocketBase β) (windowSize : UInt32) (ackNumber : Option UInt32) :
    TcpSocketBase β :=
  { sock with
    rWnd := windowSize
    tcb := { sock.tcb with
      cWnd := sock.tcb.initialCWnd * sock.tcb.segmentSize
      ssThresh := sock.tcb.initialSsThresh }
    highRxAckMark := ackNumber.getD sock.highRxAckMark }

def updateWindowSize (sock : TcpSocketBase β) (segment : TcpSegment) : TcpSocketBase β :=
  if sock.state.upToEstablished ∧ sock.state ≠ .established then
    { sock with rWnd := segment.receivedWindow }
  else
    let advanced := lib.greater segment.ackNumber sock.highRxAckMark
    let newData := lib.greater segment.sequenceNumber sock.highRxMark
    let update := (segment.ackNumber = sock.highRxAckMark ∧ segment.receivedWindow > sock.rWnd) ∨
      advanced ∨ newData
    { sock with
      highRxAckMark := if advanced then segment.ackNumber else sock.highRxAckMark
      highRxMark := if newData then segment.sequenceNumber else sock.highRxMark
      rWnd := if update then segment.receivedWindow else sock.rWnd }

-- The calls of `ReceivedAck` in `ProcessEstablished` and in `ProcessWait`.
def processAck (sock : TcpSocketBase β) (segment : TcpSegment) :
    Except TcpAssertion (TcpSocketBase β × List TcpEffect) :=
  match sock.state with
  | .established =>
    if segment.fin ∨ lib.less segment.ackNumber (lib.headSequence sock.txBuffer) then
      .ok (sock, [])
    else if lib.greater segment.ackNumber sock.highTxMark then
      .ok (sock, sendEmptyPacket sock .ack)
    else
      receivedAck lib ops attributes sock segment.ackNumber segment.packetSize
  | .finWait1 | .finWait2 | .closeWait =>
    if segment.packetSize > 0 ∧ segment.fin then .ok (sock, [])
    else receivedAck lib ops attributes sock segment.ackNumber segment.packetSize
  | .closed | .listen | .synSent | .synRcvd | .lastAck | .closing | .timeWait => .ok (sock, [])

def TcpSocketBase.send (sock : TcpSocketBase β) (packet : List UInt8) : TcpSocketBase β :=
  if sock.state = .established ∨ sock.state = .synSent ∨ sock.state = .closeWait then
    match lib.add sock.txBuffer packet with
    | some txBuffer => { sock with txBuffer }
    | none => sock
  else
    sock

def TcpSocketBase.step : Machine.Step (TcpSocketBase β) TcpEvent TcpEffect TcpAssertion :=
  fun sock event =>
    match event with
    | .syn windowSize ackNumber => .ok (initializeWindow sock windowSize ackNumber, [])
    | .ack segment => processAck lib ops attributes (updateWindowSize lib sock segment) segment
    | .sendPendingData => .ok (Ns3.sendPendingData lib attributes sock)
    | .reTxTimeout => .ok (Ns3.reTxTimeout lib ops sock)
    | .persistTimeout =>
      .ok (sock, [.probe sock.nextTxSequence (lib.copyFromSequence sock.txBuffer 1 sock.nextTxSequence)])
    | .send packet => .ok (sock.send lib packet, [])
    | .outside written =>
      .ok ({ sock with
        state := written.state
        rWnd := written.rWnd
        highRxMark := written.highRxMark
        highRxAckMark := written.highRxAckMark
        synCount := written.synCount
        closeOnEmpty := written.closeOnEmpty
        endPoint := written.endPoint }, [])

def TcpSocketBase.established (tcb : TcpSocketState) (txBuffer : β) (rWnd : UInt32) :
    TcpSocketBase β where
  state := .established
  tcb := { tcb with
    cWnd := tcb.initialCWnd * tcb.segmentSize
    ssThresh := tcb.initialSsThresh
    congState := .open }
  txBuffer
  nextTxSequence := lib.headSequence txBuffer
  highTxMark := lib.headSequence txBuffer
  highRxMark := 0
  highRxAckMark := lib.headSequence txBuffer
  recover := 0
  rWnd
  dupAckCount := 0
  retransOut := 0
  bytesAckedNotProcessed := 0
  synCount := 0
  dataRetrCount := attributes.dataRetries
  isFirstPartialAck := true
  closeOnEmpty := false
  endPoint := true

end Machine

end NetworkProj.Ns3
