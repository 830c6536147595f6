import NetworkProj.Daemon.Noninterference

set_option autoImplicit false

namespace NetworkProj.Daemon

open Reception

variable {order : TcpdOrder} {state : Tcpd}

def Unservable (state : Tcpd) : FrontCall → Prop
  | .accept _ sockfd =>
    ∀ tmp ∈ state.receiver.bindedSockets, tmp.socketFD = sockfd → tmp.accepting = true
  | .recv _ sockfd len =>
    bufLen < len.toNat ∨ ∀ now, state.receiver.acceptedSockets.find sockfd.toUInt32 = some now →
      now.receivingLength ≠ 0
  | .send _ sockfd len _ _ =>
    bufLen < len.toNat ∨ state.sender.connectedSockets.find sockfd = none
  | .socket .. | .bind .. | .connect .. => False

/-- An error reply goes to the caller. A RECV of no bytes is answered 0, whatever its session. -/
inductive Refusal : FrontCall → TcpdEffect → Prop where
  | accept (front : SockAddr) (sockfd : Int32) :
      Refusal (.accept front sockfd) (.receiver (.acceptError sockfd front (-1)))
  | recv (front : SockAddr) (sockfd : Int32) (len : UInt64) (value : Int32)
      (error : value < 0 ∨ value = 0 ∧ len = 0) :
      Refusal (.recv front sockfd len) (.receiver (.recvError front value))

/-- The caller gets an error and nobody else notices: this round and all later ones end as they
do without the call. -/
structure CallerOnly (order : TcpdOrder) (state : Tcpd) (call : FrontCall) : Prop where
  answered : ∃ reply, Refusal call reply ∧ Tcpd.step order state call.event = .ok (state, [reply])
  unnoticed : ∀ (round : TcpdRound) (later : List TcpdRound), round.front = none →
    (Machine.exec (mainLoop order) state ({ round with front := some call } :: later)).map Prod.fst =
      (Machine.exec (mainLoop order) state (round :: later)).map Prod.fst

/-- An ACCEPT, or a RECV on an unknown or busy session. -/
def Refusable (state : Tcpd) : FrontCall → Prop
  | .accept .. => True
  | .recv _ sockfd _ => ∀ now, state.receiver.acceptedSockets.find sockfd.toUInt32 = some now →
      now.receivingLength ≠ 0
  | .socket .. | .bind .. | .connect .. | .send .. => False

theorem exec_map_fst {σ ε ω η : Type} {step : Machine.Step σ ε ω η} {state : σ} {event event' : ε}
    (same : (step state event).map Prod.fst = (step state event').map Prod.fst) (later : List ε) :
    (Machine.exec step state (event :: later)).map Prod.fst =
      (Machine.exec step state (event' :: later)).map Prod.fst := by
  simp only [Machine.exec]
  cases taken : step state event with
  | error stop =>
    cases taken' : step state event' with
    | error stop' =>
      rw [taken, taken'] at same
      cases same
      rfl
    | ok answer => simp [taken, taken', Except.map] at same
  | ok answer =>
    cases taken' : step state event' with
    | error stop' => simp [taken, taken', Except.map] at same
    | ok answer' =>
      obtain ⟨next, emitted⟩ := answer
      obtain ⟨next', emitted'⟩ := answer'
      obtain rfl : next = next' := by simpa [taken, taken', Except.map] using same
      dsimp only
      cases Machine.exec step next later <;> rfl

theorem mainLoop_unnoticed {call : FrontCall} {reply : TcpdEffect} (ready : state.sender.Ready)
    (refused : Tcpd.step order state call.event = .ok (state, [reply])) {round : TcpdRound}
    (quiet : round.front = none) :
    (mainLoop order state { round with front := some call }).map Prod.fst =
      (mainLoop order state round).map Prod.fst := by
  have called : Machine.exec (Tcpd.step order) state
      (frontEvents { round with front := some call }) = .ok (state, [(call.event, [reply])]) := by
    simp [frontEvents, Machine.exec, refused]
  have silent : Machine.exec (Tcpd.step order) state (frontEvents round) = .ok (state, []) := by
    simp [frontEvents, quiet, Machine.exec]
  -- Both rounds go on from the same state with the same calls.
  have rest : roundEvents order state.waitingSocketSet state { round with front := some call } =
      roundEvents order state.waitingSocketSet state round := rfl
  simp only [mainLoop, ready, not_true, and_false, if_false, called, silent, rest]
  cases Machine.exec (Tcpd.step order) state (roundEvents order state.waitingSocketSet state round)
    <;> rfl

theorem refused_recv (front : SockAddr) {sockfd : Int32} (len : UInt64) {receiver : Receiver}
    (busy : ∀ now, receiver.acceptedSockets.find sockfd.toUInt32 = some now →
      now.receivingLength ≠ 0) :
    ∃ value, (value < 0 ∨ value = 0 ∧ len = 0) ∧
      tcpdRecv receiver front sockfd len = (receiver, [.recvError front value]) := by
  unfold tcpdRecv
  by_cases zero : len = 0
  · exact ⟨0, .inr ⟨rfl, zero⟩, by simp only [zero, if_true]⟩
  · cases found : receiver.acceptedSockets.find sockfd.toUInt32 with
    | none => exact ⟨-2, .inl (by decide), by simp only [zero, if_false, found]⟩
    | some now =>
      have pending := busy now found
      exact ⟨-3, .inl (by decide), by simp only [zero, if_false, found, pending, ne_eq, not_false_eq_true, if_true]⟩

theorem refused_answered (bound : (state.receiver.bindedSockets.map BindedSocket.socketFD).Nodup)
    {call : FrontCall} (unservable : Unservable state call) (refusable : Refusable state call) :
    ∃ reply, Refusal call reply ∧ Tcpd.step order state call.event = .ok (state, [reply]) := by
  cases call with
  | accept front sockfd =>
    refine ⟨_, .accept front sockfd, ?_⟩
    rcases tcpdAccept_cases front sockfd bound with refused | ⟨idle, granted, _⟩
    · simp [FrontCall.event, Tcpd.step, Receiver.step, refused]
    · have absent : ∀ tmp ∈ state.receiver.bindedSockets, tmp.socketFD ≠ sockfd := by
        intro tmp member here
        have accepting := unservable tmp member here
        rw [idle tmp member here] at accepting
        cases accepting
      rw [requestAccept_absent front sockfd (-1) absent] at granted
      cases granted
  | recv front sockfd len =>
    obtain ⟨value, error, refused⟩ := refused_recv front len refusable
    refine ⟨_, .recv front sockfd len value error, ?_⟩
    simp [FrontCall.event, Tcpd.step, Receiver.step, refused]
  | socket | bind | connect | send => cases refusable

theorem refusable_of_answered {call : FrontCall} {reply : TcpdEffect}
    (unservable : Unservable state call) (refusal : Refusal call reply)
    (answered : Tcpd.step order state call.event = .ok (state, [reply])) : Refusable state call := by
  cases refusal with
  | accept front sockfd => trivial
  | recv front sockfd len value error =>
    intro now found idle
    rcases unservable with long | busy
    · have positive : len ≠ 0 := by
        rintro rfl
        exact absurd long (by decide)
      simp [FrontCall.event, Tcpd.step, Receiver.step, tcpdRecv, positive, found, idle] at answered
    · exact busy now found idle

theorem refused_for_caller_only {history : Machine.History TcpdRound (TcpdEvent × List TcpdEffect)}
    (run : Machine.Run (mainLoop order) .initial history state) (ready : state.sender.Ready)
    {call : FrontCall} (unservable : Unservable state call) :
    CallerOnly order state call ↔ Refusable state call := by
  constructor
  · rintro ⟨⟨reply, refusal, answered⟩, _⟩
    exact refusable_of_answered unservable refusal answered
  · intro refusable
    have bound := (run_ledger (run_receiverCalls run)).bound
    obtain ⟨reply, refusal, answered⟩ : ∃ reply, Refusal call reply ∧
        Tcpd.step order state call.event = .ok (state, [reply]) :=
      refused_answered bound unservable refusable
    refine ⟨⟨reply, refusal, answered⟩, ?_⟩
    intro round later quiet
    exact exec_map_fst (mainLoop_unnoticed ready answered quiet) later

theorem refused_for_caller_only_accepting :
    ∃ history state, Machine.Run (mainLoop ⟨.insertion UInt32, .insertion Int32⟩) .initial history
        state ∧ (state.receiver.bindedSockets.map BindedSocket.accepting) = [true] ∧
      CallerOnly ⟨.insertion UInt32, .insertion Int32⟩ state (.accept default 3) := by
  have run : Machine.Run (mainLoop ⟨.insertion UInt32, .insertion Int32⟩) .initial [] .initial :=
    .start
  have run := run.next (quietRound (some (.bind default 3 true)) fun _ => none) _ _ rfl
  have run := run.next (quietRound (some (.accept default 3)) fun _ => none) _ _ rfl
  refine ⟨_, _, run, rfl, (refused_for_caller_only run (by decide) ?_).mpr trivial⟩
  intro tmp member _
  rw [List.mem_singleton.mp member]

/-- A SEND on a socket that is not connected ends the daemon, which goes on without it. -/
theorem unservable_send_exits :
    Unservable .initial (.send default 5 1 default default) ∧
      mainLoop ⟨.insertion UInt32, .insertion Int32⟩ .initial
          (quietRound (some (.send default 5 1 default default)) fun _ => none) =
        .error (.exit 1) ∧
      (∃ state calls, mainLoop ⟨.insertion UInt32, .insertion Int32⟩ .initial
          (quietRound none fun _ => none) = .ok (state, calls)) ∧
      ¬ CallerOnly ⟨.insertion UInt32, .insertion Int32⟩ .initial
          (.send default 5 1 default default) := by
  refine ⟨.inr rfl, rfl, ⟨_, _, rfl⟩, ?_⟩
  rintro ⟨⟨reply, refusal, _⟩, _⟩
  cases refusal

end NetworkProj.Daemon
