import NetworkProj.Model.Tcpudp
import NetworkProj.Daemon.Halves
import NetworkProj.Receiver.Session
import NetworkProj.Sender.Moves

set_option autoImplicit false

namespace NetworkProj.Daemon

open Reception

section Pending

variable {session : UInt32} {front : SockAddr} {len : UInt64}

def Awaits (session : UInt32) (front : SockAddr) (len : UInt64) (state : Receiver) : Prop :=
  ∃ sock, view session state = .accepted sock ∧ sock.receivingLength = len ∧
    sock.receivingAddr = front

theorem block_mem_iff (session : UInt32) (entry : ReceiverEvent × List ReceiverEffect)
    (addr : SockAddr) (data : List UInt8) :
    .block addr data ∈ ownEffects session entry ↔ .recvReturn session addr data ∈ entry.2 := by
  have own (emitted : List ReceiverEffect) :
      SessionEffect.block addr data ∈ emitted.filterMap (sessionEffect session) ↔
        .recvReturn session addr data ∈ emitted := by
    rw [List.mem_filterMap]
    constructor
    · rintro ⟨effect, member, same⟩
      cases effect with
      | recvReturn other addr' data' =>
        simp only [sessionEffect] at same
        split at same
        next here =>
          cases same
          rwa [here] at member
        · cases same
      | free other message =>
        simp only [sessionEffect] at same
        split at same <;> cases same
      | bindReturn | acceptReturn | acceptError | recvError | ack => cases same
    · intro member
      exact ⟨_, member, if_pos rfl⟩
  obtain ⟨event, emitted⟩ := entry
  cases event with
  | recv front sockfd len =>
    cases emitted with
    | nil =>
      simp only [ownEffects, List.not_mem_nil, iff_false]
      split <;> simp
    | cons => exact own _
  | bind | accept | data | solveAccept | solveRecv => exact own emitted

theorem sessionStep_awaits {sock : AcceptedSocket} {event : SessionEvent} {next : SessionView}
    {effects : List SessionEffect} (pending : sock.receivingLength ≠ 0)
    (taken : sessionStep session (.accepted sock) event = .ok (next, effects)) :
    (∃ sock', next = .accepted sock' ∧ sock'.receivingLength = sock.receivingLength ∧
        sock'.receivingAddr = sock.receivingAddr) ∧
        (∀ addr data, .block addr data ∉ effects) ∨
      ∃ answer, answer.length = sock.receivingLength.toNat ∧
        ∀ addr data, .block addr data ∈ effects ↔ addr = sock.receivingAddr ∧ data = answer := by
  cases sessionStep_move taken with
  | arrive sockfd message malloc =>
    obtain ⟨packages, stored, _⟩ := storePackage_eq sock message
    exact .inl ⟨⟨_, rfl, by rw [stored], by rw [stored]⟩, by simp⟩
  | accept sock' waiting => cases waiting
  | request sock' front len accepted positive idle =>
    cases accepted
    exact absurd idle pending
  | solve sock' final effects accepted solved =>
    cases accepted
    obtain ⟨_, result⟩ := solveRecvSocket_solved solved
    obtain ⟨freed, _, ⟨same, rfl⟩ | ⟨_, _, _, answer, length, rfl⟩⟩ := result.answer
    · refine .inl ⟨⟨final, rfl, same, result.receivingAddr⟩, ?_⟩
      simp [List.filterMap_map, Function.comp_def, sessionEffect]
    · refine .inr ⟨answer, length, ?_⟩
      simp [List.filterMap_map, Function.comp_def, sessionEffect]
  | idle => exact .inl ⟨⟨sock, rfl, rfl, rfl⟩, by simp⟩

theorem step_awaits {order : IterOrder UInt32} {state state' : Receiver} {event : ReceiverEvent}
    {emitted : List ReceiverEffect} (consistent : Consistent state) (positive : len ≠ 0)
    (awaits : Awaits session front len state)
    (taken : Receiver.step order state event = .ok (state', emitted)) :
    (Awaits session front len state' ∧ ∀ addr data, .recvReturn session addr data ∉ emitted) ∨
      ∃ answer, answer.length = len.toNat ∧ ∀ addr data,
        .recvReturn session addr data ∈ emitted ↔ addr = front ∧ data = answer := by
  obtain ⟨sock, accepted, rfl, rfl⟩ := awaits
  rcases step_session taken consistent session with ⟨_, same, quiet⟩ | ⟨own, _, stepped⟩
  · refine .inl ⟨⟨sock, same.trans accepted, rfl, rfl⟩, ?_⟩
    intro addr data member
    have own := (block_mem_iff session (event, emitted) addr data).mpr member
    simp [quiet] at own
  · rw [accepted] at stepped
    rcases sessionStep_awaits positive stepped with
      ⟨⟨sock', same, length, addressed⟩, quiet⟩ | ⟨answer, length, only⟩
    · exact .inl ⟨⟨sock', same, length, addressed⟩,
        fun addr data member => quiet addr data ((block_mem_iff _ _ _ _).mpr member)⟩
    · exact .inr ⟨answer, length,
        fun addr data => (block_mem_iff _ _ _ _).symm.trans (only addr data)⟩

variable {order : TcpdOrder} {first state : Tcpd} {calls : Machine.History TcpdEvent TcpdEffect}

theorem run_awaits (consistent : Consistent first.receiver) (positive : len ≠ 0)
    (awaits : Awaits session front len first.receiver)
    (run : Machine.Run (Tcpd.step order) first calls state)
    (unanswered : ∀ addr data, .receiver (.recvReturn session addr data) ∉ Machine.outputs calls) :
    Consistent state.receiver ∧ Awaits session front len state.receiver := by
  induction run with
  | start => exact ⟨consistent, awaits⟩
  | next event state' emitted before taken ih =>
    simp only [Machine.outputs_append, List.mem_append, not_or] at unanswered
    obtain ⟨consistent, awaits⟩ := ih fun addr data => (unanswered addr data).1
    cases step_half taken with
    | socket | sender => exact ⟨consistent, awaits⟩
    | receiver event receiver emitted stepped =>
      refine ⟨step_consistent stepped consistent, ?_⟩
      rcases step_awaits consistent positive awaits stepped with ⟨kept, _⟩ | ⟨answer, length, only⟩
      · exact kept
      · exact absurd (by simp [only]) (unanswered front answer).2

end Pending

section Wrappers

inductive Outcome where
  | result (value : Int64)
  | delivered (data : List UInt8)

/-- The daemon handles the call in `state`, with an outcome that it sends to the caller. An accepted
RECV is answered by the first callback that has enough data. -/
inductive Handled (order : TcpdOrder) (state : Tcpd) : FrontCall → Outcome → List UInt8 → Prop where
  | refused (front : SockAddr) (sockfd : Int32) (len : UInt64) (state' : Tcpd) (addr : SockAddr)
      (value : Int32) (answer : List UInt8)
      (taken : Tcpd.step order state (FrontCall.recv front sockfd len).event =
        .ok (state', [.receiver (.recvError addr value)]))
      (sent : (TcpdEffect.receiver (.recvError addr value)).datagram? front = some answer) :
      Handled order state (.recv front sockfd len) (.result value.toInt64) answer
  | delivered (front : SockAddr) (sockfd : Int32) (len : UInt64) (asked reached final : Tcpd)
      (calls : Machine.History TcpdEvent TcpdEffect) (emitted : List TcpdEffect) (addr : SockAddr)
      (data answer : List UInt8)
      (taken : Tcpd.step order state (FrontCall.recv front sockfd len).event = .ok (asked, []))
      (run : Machine.Run (Tcpd.step order) asked calls reached)
      (unanswered : ∀ addr data,
        .receiver (.recvReturn sockfd.toUInt32 addr data) ∉ Machine.outputs calls)
      (solved : Tcpd.step order reached (.receiver .solveRecv) = .ok (final, emitted))
      (member : .receiver (.recvReturn sockfd.toUInt32 addr data) ∈ emitted)
      (sent : (TcpdEffect.receiver (.recvReturn sockfd.toUInt32 addr data)).datagram? front =
        some answer) :
      Handled order state (.recv front sockfd len) (.delivered data) answer
  | sent (front : SockAddr) (sockfd : Int32) (len : UInt64) (buf : Block bufLen)
      (malloc : TrollMessage) (state' : Tcpd) (addr : SockAddr) (count : UInt64)
      (answer : List UInt8)
      (taken : Tcpd.step order state (FrontCall.send front sockfd len buf malloc).event =
        .ok (state', [.sender (.sendReturn addr count)]))
      (sent : (TcpdEffect.sender (.sendReturn addr count)).datagram? front = some answer) :
      Handled order state (.send front sockfd len buf malloc) (.result count.toInt64) answer

/-- The wrapper returns the outcome, whatever its buffer held before. -/
def Agrees : FrontCall → Outcome → List UInt8 → Prop
  | .recv _ _ len, .result value, answer => ∀ buffer, (Tcpudp.recv buffer len answer).2 = value
  | .recv _ _ len, .delivered data, answer => ∀ buffer,
    (Tcpudp.recv buffer len answer).2 = Int64.ofNat data.length ∧
      (Tcpudp.recv buffer len answer).1.take data.length = data
  | .send .., .result value, answer => ∀ buf, Tcpudp.send buf answer = value
  | _, _, _ => False

/-- The handler does not answer the call with -2 or -3. -/
def Serves (state : Tcpd) : FrontCall → Prop
  | .recv _ sockfd len => len = 0 ∨
    ∃ now, state.receiver.acceptedSockets.find sockfd.toUInt32 = some now ∧ now.receivingLength = 0
  | _ => True

theorem recv_short (buffer : List UInt8) (len : UInt64) (word : UInt32) :
    ∃ ret ≤ 4, (Tcpudp.recv buffer len (bytes32 word)).2 = Int64.ofNat ret := by
  refine ⟨((bytes32 word).take len.toNat).length, ?_, rfl⟩
  rw [List.length_take]
  exact Nat.min_le_right _ _

theorem recv_whole (buffer : List UInt8) {len : UInt64} {answer : List UInt8}
    (fits : answer.length ≤ len.toNat) :
    (Tcpudp.recv buffer len answer).2 = Int64.ofNat answer.length ∧
      (Tcpudp.recv buffer len answer).1.take answer.length = answer := by
  simp [Tcpudp.recv, recvfrom, List.take_of_length_le fits]

theorem send_count (buf : Block bufLen) {count : UInt64} (short : count.toNat ≤ bufLen) :
    Tcpudp.send buf (bytes32 count.toUInt32) = count.toInt64 := by
  have cleared := Block.receive_bytes buf (show (List.replicate 8 0).length ≤ bufLen by decide)
  have fits : ((bytes32 count.toUInt32).take 8).length ≤ bufLen := by
    rw [List.length_take]
    exact (Nat.min_le_left _ _).trans (by decide)
  have read := Block.receive_bytes (buf.receive (List.replicate 8 0)) fits
  have words : ((buf.receive (List.replicate 8 0)).receive ((bytes32 count.toUInt32).take 8)).take 8 =
      bytes32 count.toUInt32 ++ bytes32 0 := by
    rw [Block.take, read, cleared]
    rfl
  have small : count.toUInt32.toUInt64 = count := by
    apply UInt64.toNat_inj.mp
    unfold bufLen at short
    simp
    omega
  simp only [Tcpudp.send]
  rw [words, ofBytes64_words, small]
  simp

theorem recv_step (order : TcpdOrder) (state : Tcpd) (front : SockAddr) (sockfd : Int32)
    (len : UInt64) : Tcpd.step order state (FrontCall.recv front sockfd len).event =
      .ok ({ state with receiver := (tcpdRecv state.receiver front sockfd len).1 },
        (tcpdRecv state.receiver front sockfd len).2.map .receiver) := rfl

theorem tcpdRecv_cases (state : Tcpd) (front : SockAddr) (sockfd : Int32) (len : UInt64) :
    (len = 0 ∧ tcpdRecv state.receiver front sockfd len = (state.receiver, [.recvError front 0])) ∨
      (¬ Serves state (.recv front sockfd len) ∧ ∃ value : Int32, (value = -2 ∨ value = -3) ∧
        tcpdRecv state.receiver front sockfd len = (state.receiver, [.recvError front value])) ∨
      len ≠ 0 ∧ Serves state (.recv front sockfd len) ∧
        Awaits sockfd.toUInt32 front len (tcpdRecv state.receiver front sockfd len).1 ∧
        (tcpdRecv state.receiver front sockfd len).2 = [] := by
  unfold tcpdRecv Serves
  by_cases zero : len = 0
  · exact .inl ⟨zero, by simp only [zero, if_true]⟩
  · cases found : state.receiver.acceptedSockets.find sockfd.toUInt32 with
    | none =>
      exact .inr (.inl ⟨by simp [zero, found], -2, .inl rfl, by simp only [zero, if_false, found]⟩)
    | some now =>
      by_cases idle : now.receivingLength = 0
      · refine .inr (.inr ⟨zero, .inr ⟨now, found, idle⟩, ?_⟩)
        simp [zero, found, idle, Awaits, view, lookup]
      · refine .inr (.inl ⟨by simp [zero, found, idle], -3, .inr rfl, ?_⟩)
        simp only [zero, if_false, found, ne_eq, idle, not_false_eq_true, if_true]

theorem send_counted {order : IterOrder Int32} {state state' : Sender} {front : SockAddr}
    {sockfd : Int32} {len : UInt64} {buf : Block bufLen} {malloc : TrollMessage}
    {effects : List SenderEffect}
    (taken : Sender.step order state (.send front sockfd len buf malloc) = .ok (state', effects)) :
    len.toNat ≤ bufLen ∧ effects = [.sendReturn front len] := by
  cases Sending.step_move taken with
  | send _ _ _ _ _ sock body ready short found copied => exact ⟨short, rfl⟩

theorem not_agrees_negative {front : SockAddr} {sockfd : Int32} {len : UInt64} {value : Int32}
    (negative : value = -2 ∨ value = -3) :
    ¬ Agrees (.recv front sockfd len) (.result value.toInt64) (bytes32 value.toUInt32) := by
  intro agrees
  obtain ⟨ret, small, same⟩ := recv_short [] len value.toUInt32
  have equal : value.toInt64 = Int64.ofNat ret := (agrees []).symm.trans same
  have never : ∀ ret ≤ 4, (-2 : Int32).toInt64 ≠ Int64.ofNat ret ∧
      (-3 : Int32).toInt64 ≠ Int64.ofNat ret := by decide
  rcases negative with rfl | rfl
  · exact (never ret small).1 equal
  · exact (never ret small).2 equal

theorem wrapper_agrees_iff {order : TcpdOrder} {state : Tcpd}
    {calls : Machine.History TcpdEvent TcpdEffect}
    (run : Machine.Run (Tcpd.step order) .initial calls state) {call : FrontCall}
    {outcome : Outcome} {answer : List UInt8} (handled : Handled order state call outcome answer) :
    Agrees call outcome answer ↔ Serves state call := by
  have consistent := run_consistent (run_receiver run)
  cases handled with
  | refused front sockfd len state' addr value answer taken sent =>
    rw [recv_step] at taken
    obtain rfl : bytes32 value.toUInt32 = answer := by
      simp only [TcpdEffect.datagram?, ReceiverEffect.datagram?] at sent
      split at sent
      · exact Option.some.inj sent
      · cases sent
    rcases tcpdRecv_cases state front sockfd len with
      ⟨rfl, zero⟩ | ⟨unserved, other, negative, refused⟩ | ⟨_, _, _, silent⟩
    · obtain rfl : value = 0 := by
        simp only [zero, List.map_cons, List.map_nil, Except.ok.injEq, Prod.mk.injEq,
          List.cons.injEq, TcpdEffect.receiver.injEq, ReceiverEffect.recvError.injEq] at taken
        exact taken.2.1.2.symm
      exact iff_of_true (fun buffer => rfl) (.inl rfl)
    · obtain rfl : other = value := by
        simp only [refused, List.map_cons, List.map_nil, Except.ok.injEq, Prod.mk.injEq,
          List.cons.injEq, TcpdEffect.receiver.injEq, ReceiverEffect.recvError.injEq] at taken
        exact taken.2.1.2
      exact iff_of_false (not_agrees_negative negative) unserved
    · simp [silent] at taken
  | delivered front sockfd len asked reached final calls' emitted addr data answer taken ran
      unanswered solved member sent =>
    rw [recv_step] at taken
    rcases tcpdRecv_cases state front sockfd len with
      ⟨_, zero⟩ | ⟨_, other, _, refused⟩ | ⟨positive, serves, awaits, silent⟩
    · simp [zero] at taken
    · simp [refused] at taken
    · refine iff_of_true ?_ serves
      obtain rfl := (Prod.mk.inj (Except.ok.inj taken)).1
      have handled : Receiver.step order.accepted state.receiver (.recv front sockfd len) =
          .ok (tcpdRecv state.receiver front sockfd len) := rfl
      have asked := step_consistent handled consistent
      obtain ⟨consistent', awaits'⟩ := run_awaits asked positive awaits ran unanswered
      obtain ⟨receiver, effects, stepped, rfl⟩ : ∃ receiver effects,
          Receiver.step order.accepted reached.receiver .solveRecv = .ok (receiver, effects) ∧
            emitted = effects.map .receiver := by
        cases step_half solved with
        | receiver event receiver effects stepped => exact ⟨receiver, effects, stepped, rfl⟩
      have member : .recvReturn sockfd.toUInt32 addr data ∈ effects := by simpa using member
      rcases step_awaits consistent' positive awaits' stepped with ⟨_, none⟩ | ⟨block, length, only⟩
      · exact absurd member (none addr data)
      · obtain ⟨rfl, rfl⟩ := (only addr data).mp member
        obtain rfl : data = answer := by
          simpa [TcpdEffect.datagram?, ReceiverEffect.datagram?] using sent
        exact fun buffer => recv_whole buffer length.le
  | sent front sockfd len buf malloc state' addr count answer taken sent =>
    refine iff_of_true ?_ trivial
    generalize effect : [TcpdEffect.sender (.sendReturn addr count)] = emitted at taken
    cases step_half taken with
    | sender event sender effects stepped =>
      obtain ⟨short, rfl⟩ := send_counted stepped
      simp only [List.map_cons, List.map_nil, List.cons.injEq, TcpdEffect.sender.injEq,
        SenderEffect.sendReturn.injEq, and_true] at effect
      obtain ⟨rfl, rfl⟩ := effect
      simp only [TcpdEffect.datagram?, SenderEffect.datagram?, if_true, Option.some.injEq] at sent
      subst sent
      exact fun buffer => send_count buffer short

theorem wrapper_agrees_send :
    ∃ calls state answer,
      Machine.Run (Tcpd.step ⟨.insertion UInt32, .insertion Int32⟩) .initial calls state ∧
      Handled ⟨.insertion UInt32, .insertion Int32⟩ state
        (.send default 5 4 (.pad bufLen [1, 2, 3, 4]) default) (.result 4) answer ∧
      ∀ buf, Tcpudp.send buf answer = 4 := by
  have run : Machine.Run (Tcpd.step ⟨.insertion UInt32, .insertion Int32⟩) .initial [] .initial :=
    .start
  have run := run.next (.sender (.connect default 5 default 7)) _ _ rfl
  obtain ⟨calls, state, run, handled⟩ : ∃ calls state,
      Machine.Run (Tcpd.step ⟨.insertion UInt32, .insertion Int32⟩) .initial calls state ∧
        Handled ⟨.insertion UInt32, .insertion Int32⟩ state
          (.send default 5 4 (.pad bufLen [1, 2, 3, 4]) default) (.result 4) (bytes32 4) :=
    ⟨_, _, run, .sent default 5 4 (.pad bufLen [1, 2, 3, 4]) default _ default 4 _ rfl rfl⟩
  exact ⟨calls, state, _, run, handled, (wrapper_agrees_iff run handled).mpr trivial⟩

/-- A RECV on an unknown session. Its error is sent as four bytes, which the wrapper takes for
four bytes of the stream. -/
theorem wrapper_hides_error :
    ∃ answer, Handled ⟨.insertion UInt32, .insertion Int32⟩ .initial (.recv default 7 4)
        (.result (-2)) answer ∧
      (∀ buffer, (Tcpudp.recv buffer 4 answer).2 = 4) ∧
      ¬ Agrees (.recv default 7 4) (.result (-2)) answer := by
  refine ⟨_, .refused default 7 4 _ default (-2) _ rfl rfl, fun buffer => rfl, ?_⟩
  intro agrees
  exact absurd (agrees []) (by decide)

end Wrappers

end NetworkProj.Daemon
