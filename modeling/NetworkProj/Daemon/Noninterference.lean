import NetworkProj.Daemon.Rounds
import NetworkProj.Receiver.Reduction

set_option autoImplicit false

namespace NetworkProj.Daemon

open Reception

section Calls

def receiverEffects (calls : Machine.History TcpdEvent TcpdEffect) : List ReceiverEffect :=
  Machine.outputs (calls.filterMap receiverCall)

def keepsCall (session : UInt32) (later : List ReceiverEffect)
    (call : TcpdEvent × List TcpdEffect) : Bool :=
  match receiverCall call with
  | none => true
  | some call => keeps session later call

def reduceCalls (session : UInt32) (later : List ReceiverEffect) :
    Machine.History TcpdEvent TcpdEffect → List TcpdEvent
  | [] => []
  | call :: rest =>
    if keepsCall session (receiverEffects rest ++ later) call then
      call.1 :: reduceCalls session later rest
    else
      reduceCalls session later rest

theorem receiverEffects_append (left right : Machine.History TcpdEvent TcpdEffect) :
    receiverEffects (left ++ right) = receiverEffects left ++ receiverEffects right := by
  simp [receiverEffects]

def ownAnswers (session : UInt32) (calls : Machine.History TcpdEvent TcpdEffect) :
    List SessionEffect :=
  (calls.filterMap receiverCall).flatMap (ownEffects session)

theorem ownAnswers_append (session : UInt32) (left right : Machine.History TcpdEvent TcpdEffect) :
    ownAnswers session (left ++ right) = ownAnswers session left ++ ownAnswers session right := by
  simp [ownAnswers]

def Reachable (order : TcpdOrder) (state : Tcpd) : Prop :=
  ∃ history, Machine.Run (Receiver.step order.accepted) .initial history state.receiver

structure Alongside (order : TcpdOrder) (session : UInt32) (later : List ReceiverEffect)
    (state only : Tcpd) : Prop where
  reachable : Reachable order state
  reachable' : Reachable order only
  reduced : Reduced session later state.receiver only.receiver
  sender : only.sender = state.sender

variable {order : TcpdOrder} {session : UInt32} {later : List ReceiverEffect}
  {state only final : Tcpd}

theorem reduced_calls {events : List TcpdEvent} {calls : Machine.History TcpdEvent TcpdEffect}
    (executed : Machine.exec (Tcpd.step order) state events = .ok (final, calls))
    (alongside : Alongside order session (receiverEffects calls ++ later) state only) :
    ∃ only' calls', Machine.exec (Tcpd.step order) only (reduceCalls session later calls) =
        .ok (only', calls') ∧
      Alongside order session later final only' ∧
      ownAnswers session calls' = ownAnswers session calls := by
  induction events generalizing state only calls with
  | nil =>
    cases executed
    exact ⟨only, [], rfl, alongside, rfl⟩
  | cons event rest ih =>
    obtain ⟨next, emitted, behind, taken, continued, rfl⟩ := Machine.exec_cons_ok executed
    obtain ⟨⟨history, ran⟩, ⟨history', ran'⟩, reduced, sender⟩ := alongside
    -- A call is kept or dropped by what is emitted behind it.
    have whole (call : TcpdEvent × List TcpdEffect) :
        ownAnswers session (call :: behind) =
          ownAnswers session [call] ++ ownAnswers session behind :=
      ownAnswers_append session [call] behind
    cases step_half taken with
    | socket front retSock granted =>
      obtain ⟨only', calls', executed', alongside', same⟩ :=
        ih continued ⟨⟨history, ran⟩, ⟨history', ran'⟩, reduced, sender⟩
      have taken' : Tcpd.step order only (.socket front retSock) =
          .ok (only, [.socketReturn front retSock]) := by
        simp [Tcpd.step, tcpdSocket, granted]
      refine ⟨only', _, Machine.exec_cons taken' executed', alongside', ?_⟩
      rw [whole, ← same]
      exact ownAnswers_append session [_] calls'
    | sender event sender' emitted stepped =>
      have behind' : Alongside order session (receiverEffects behind ++ later)
          { state with sender := sender' } { only with sender := sender' } :=
        ⟨⟨history, ran⟩, ⟨history', ran'⟩, reduced, rfl⟩
      obtain ⟨only', calls', executed', alongside', same⟩ := ih continued behind'
      have taken' : Tcpd.step order only (.sender event) =
          .ok ({ only with sender := sender' }, emitted.map .sender) := by
        simp [Tcpd.step, sender, stepped]
      refine ⟨only', _, Machine.exec_cons taken' executed', alongside', ?_⟩
      rw [whole, ← same]
      exact ownAnswers_append session [_] calls'
    | receiver event receiver emitted stepped =>
      have effects : receiverEffects ((.receiver event, emitted.map .receiver) :: behind) ++ later =
          emitted ++ (receiverEffects behind ++ later) := by
        simp [receiverEffects]
      rw [effects] at reduced
      have consistent := run_consistent ran
      have nodup := (run_ledger ran).bound
      have reachable : Reachable order { state with receiver } :=
        ⟨_, ran.next event receiver emitted stepped⟩
      cases kept : keeps session (receiverEffects behind ++ later) (event, emitted) with
      | true =>
        obtain ⟨receiver', emitted', stepped', reduced', _, answers⟩ :=
          reduced_kept consistent (run_consistent ran') nodup reduced stepped kept
        have behind' : Alongside order session (receiverEffects behind ++ later)
            { state with receiver } { only with receiver := receiver' } :=
          ⟨reachable, ⟨_, ran'.next event receiver' emitted' stepped'⟩, reduced', sender⟩
        obtain ⟨only', calls', executed', alongside', same⟩ := ih continued behind'
        have taken' : Tcpd.step order only (.receiver event) =
            .ok ({ only with receiver := receiver' }, emitted'.map .receiver) := by
          simp [Tcpd.step, stepped']
        have keeping : keepsCall session (receiverEffects behind ++ later)
            (.receiver event, emitted.map .receiver) = true := by
          simp [keepsCall, kept]
        refine ⟨only', (.receiver event, emitted'.map .receiver) :: calls', ?_, alongside', ?_⟩
        · simp only [reduceCalls, keeping, if_true]
          exact Machine.exec_cons taken' executed'
        · rw [whole, ← same, ← List.singleton_append, ownAnswers_append]
          simp [ownAnswers, answers]
      | false =>
        obtain ⟨reduced', _, silent⟩ := reduced_dropped consistent nodup reduced stepped kept
        obtain ⟨only', calls', executed', alongside', same⟩ :=
          ih continued ⟨reachable, ⟨history', ran'⟩, reduced', sender⟩
        have dropping : keepsCall session (receiverEffects behind ++ later)
            (.receiver event, emitted.map .receiver) = false := by
          simp [keepsCall, kept]
        refine ⟨only', calls', ?_, alongside', ?_⟩
        · simp only [reduceCalls, dropping]
          exact executed'
        · rw [whole, ← same]
          simp [ownAnswers, silent]

end Calls

section Rounds

variable {order : TcpdOrder} {session : UInt32} {later : List ReceiverEffect}
  {state only final : Tcpd} {round : TcpdRound} {calls : Machine.History TcpdEvent TcpdEffect}

def keepsFront (session : UInt32) (later : List ReceiverEffect) (round : TcpdRound)
    (calls : Machine.History TcpdEvent TcpdEffect) : Bool :=
  match round.front, calls with
  | some _, call :: rest => keepsCall session (receiverEffects rest ++ later) call
  | _, _ => false

def mine (session : UInt32) (arrival : Arrival) : Bool :=
  arrival.message.Intact && arrival.message.session == session

def reduceRound (session : UInt32) (later : List ReceiverEffect) (round : TcpdRound)
    (calls : Machine.History TcpdEvent TcpdEffect) : TcpdRound :=
  { round with
    front := if keepsFront session later round calls then round.front else none
    data := fun sockfd => (round.data sockfd).filter (mine session) }

def keepsEvent (session : UInt32) : TcpdEvent → Bool
  | .receiver (.recv _ sockfd _) => sockfd.toUInt32 == session
  | .receiver (.data _ message _ _) => message.Intact && message.session == session
  | _ => true

theorem reduceCalls_filter
    (noAccept : ∀ front sockfd, .receiver (.accept front sockfd) ∉ Machine.events calls) :
    reduceCalls session later calls = (Machine.events calls).filter (keepsEvent session) := by
  induction calls with
  | nil => rfl
  | cons call rest ih =>
    obtain ⟨event, emitted⟩ := call
    have same : keepsCall session (receiverEffects rest ++ later) (event, emitted) =
        keepsEvent session event := by
      cases event with
      | receiver event =>
        cases event with
        | accept front sockfd => exact absurd (by simp) (noAccept front sockfd)
        | bind | recv | data | solveAccept | solveRecv => rfl
      | socket | sender => rfl
    have rest := ih fun front sockfd member => noAccept front sockfd (by simp [member])
    rw [reduceCalls, same, rest, Machine.events_cons, List.filter_cons]

theorem roundEvents_reduced (waiting : List Int32)
    (bound : only.boundSockets = state.boundSockets) (sender : only.sender = state.sender)
    (front : Option FrontCall) :
    roundEvents order waiting only
        { round with front, data := fun sockfd => (round.data sockfd).filter (mine session) } =
      (roundEvents order waiting state round).filter (keepsEvent session) := by
  have data (sockfds : List Int32) :
      (sockfds.filterMap fun sockfd =>
          ((round.data sockfd).filter (mine session)).map (Arrival.event sockfd)) =
        (sockfds.filterMap fun sockfd =>
          (round.data sockfd).map (Arrival.event sockfd)).filter (keepsEvent session) := by
    rw [List.filter_filterMap]
    congr 1
    funext sockfd
    cases round.data sockfd with
    | none => rfl
    | some arrival =>
      cases own : mine session arrival with
      | true =>
        have kept : keepsEvent session (arrival.event sockfd) = true := own
        simp [Option.filter, own, kept]
      | false =>
        have dropped : keepsEvent session (arrival.event sockfd) = false := own
        simp [Option.filter, own, dropped]
  have acks (sockfds : List Int32) :
      (sockfds.filterMap fun sockfd =>
          (round.acks sockfd).map (AckArrival.event sockfd)).filter (keepsEvent session) =
        sockfds.filterMap fun sockfd => (round.acks sockfd).map (AckArrival.event sockfd) := by
    rw [List.filter_eq_self]
    intro event member
    obtain ⟨sockfd, _, given⟩ := List.mem_filterMap.mp member
    obtain ⟨arrival, _, rfl⟩ := Option.map_eq_some_iff.mp given
    rfl
  have timer : (round.timer.toList.map fun expired =>
      TcpdEvent.sender (.expired expired)).filter (keepsEvent session) =
      round.timer.toList.map fun expired => .sender (.expired expired) := by
    rw [List.filter_eq_self]
    intro event member
    obtain ⟨expired, _, rfl⟩ := List.mem_map.mp member
    rfl
  simp only [roundEvents, bound, sender, List.filter_append, data, acks, timer]
  rfl

theorem reduced_round (taken : mainLoop order state round = .ok (final, calls))
    (alongside : Alongside order session (receiverEffects calls ++ later) state only) :
    ∃ only' calls', mainLoop order only (reduceRound session later round calls) =
        .ok (only', calls') ∧
      Alongside order session later final only' ∧
      ownAnswers session calls' = ownAnswers session calls := by
  obtain ⟨ready, called, front, rest, executed, continued, rfl⟩ := mainLoop_exec taken
  have fronts := Machine.events_exec executed
  have rests := Machine.events_exec continued
  rw [receiverEffects_append, List.append_assoc] at alongside
  have bound {state only : Tcpd} {later : List ReceiverEffect}
      (alongside : Alongside order session later state only) :
      only.boundSockets = state.boundSockets :=
    sameSockets_fds alongside.reduced.sockets
  obtain ⟨called', front', executed', alongside', same⟩ := reduced_calls executed alongside
  obtain ⟨only', rest', continued', alongside'', same'⟩ := reduced_calls continued alongside'
  have frontSame : reduceCalls session (receiverEffects rest ++ later) front =
      frontEvents (reduceRound session later round (front ++ rest)) := by
    cases call : round.front with
    | none =>
      simp only [frontEvents, call] at fronts
      obtain rfl := List.map_eq_nil_iff.mp fronts
      simp [reduceCalls, frontEvents, reduceRound, call]
    | some given =>
      simp only [frontEvents, call] at fronts
      obtain ⟨entry, tail, rfl, first, none⟩ := List.map_eq_cons_iff.mp fronts
      obtain rfl := List.map_eq_nil_iff.mp none
      simp only [reduceCalls, frontEvents, reduceRound, keepsFront, call, List.singleton_append]
      rw [show receiverEffects [] = [] from rfl, List.nil_append]
      cases keepsCall session (receiverEffects rest ++ later) entry <;> simp [first]
  have restSame : reduceCalls session later rest =
      roundEvents order only.waitingSocketSet called'
        (reduceRound session later round (front ++ rest)) := by
    have waiting : only.waitingSocketSet = state.waitingSocketSet := by
      simp only [Tcpd.waitingSocketSet, bound alongside, alongside.sender]
    rw [waiting, reduceRound, roundEvents_reduced _ (bound alongside') alongside'.sender, ← rests]
    apply reduceCalls_filter
    intro front sockfd member
    rw [rests] at member
    simp [roundEvents, Arrival.event, AckArrival.event] at member
  rw [frontSame] at executed'
  rw [restSame] at continued'
  refine ⟨only', front' ++ rest', ?_, alongside'', ?_⟩
  · have free : ¬ ((reduceRound session later round (front ++ rest)).front.isSome ∧
        ¬ only.sender.Ready) := by
      rintro ⟨called, full⟩
      rw [alongside.sender] at full
      apply full
      apply ready
      unfold reduceRound at called
      split at called
      · exact called
      · cases called
    simp only [mainLoop, free, if_false, executed', continued']
  · rw [ownAnswers_append, ownAnswers_append, same, same']

end Rounds

section Runs

variable {order : TcpdOrder} {state : Tcpd}
  {history : Machine.History TcpdRound (TcpdEvent × List TcpdEffect)}

/-- The run without the other sessions: their frames, their RECVs and the ACCEPTs they answer. -/
def reducedRounds (session : UInt32) :
    Machine.History TcpdRound (TcpdEvent × List TcpdEffect) → List TcpdRound
  | [] => []
  | (round, calls) :: rest =>
    reduceRound session (receiverEffects (Machine.outputs rest)) round calls ::
      reducedRounds session rest

theorem reduced_rounds {session : UInt32} {rounds : List TcpdRound} {first only final : Tcpd}
    (executed : Machine.exec (mainLoop order) first rounds = .ok (final, history))
    (alongside : Alongside order session (receiverEffects (Machine.outputs history)) first only) :
    ∃ only' history', Machine.exec (mainLoop order) only (reducedRounds session history) =
        .ok (only', history') ∧
      Alongside order session [] final only' ∧
      ownAnswers session (Machine.outputs history') =
        ownAnswers session (Machine.outputs history) := by
  induction rounds generalizing first only history with
  | nil =>
    cases executed
    exact ⟨only, [], rfl, alongside, rfl⟩
  | cons round rest ih =>
    obtain ⟨next, calls, behind, taken, continued, rfl⟩ := Machine.exec_cons_ok executed
    rw [Machine.outputs_cons, receiverEffects_append] at alongside
    obtain ⟨only', calls', taken', alongside', same⟩ := reduced_round taken alongside
    obtain ⟨only'', history', continued', final', same'⟩ := ih continued alongside'
    refine ⟨only'', _, Machine.exec_cons taken' continued', final', ?_⟩
    rw [Machine.outputs_cons, Machine.outputs_cons, ownAnswers_append, ownAnswers_append, same,
      same']

def answers (session : UInt32)
    (history : Machine.History TcpdRound (TcpdEvent × List TcpdEffect)) :
    List (SockAddr × List UInt8) :=
  (Machine.outputs (receiverCalls history)).filterMap fun
    | .recvReturn other addr data => if other = session then some (addr, data) else none
    | _ => none

def sentBlocks (effects : List SessionEffect) : List (SockAddr × List UInt8) :=
  effects.filterMap fun
    | .block addr data => some (addr, data)
    | _ => none

theorem answers_own (session : UInt32)
    (history : Machine.History TcpdRound (TcpdEvent × List TcpdEffect)) :
    answers session history = sentBlocks (ownAnswers session (Machine.outputs history)) := by
  have effects (emitted : List ReceiverEffect) :
      sentBlocks (emitted.filterMap (sessionEffect session)) = emitted.filterMap fun
        | .recvReturn other addr data => if other = session then some (addr, data) else none
        | _ => none := by
    simp only [sentBlocks, List.filterMap_filterMap]
    congr 1
    funext effect
    cases effect with
    | free other message => by_cases own : other = session <;> simp [sessionEffect, own]
    | recvReturn other addr data => by_cases own : other = session <;> simp [sessionEffect, own]
    | bindReturn | acceptReturn | acceptError | recvError | ack => rfl
  unfold answers ownAnswers receiverCalls
  induction (Machine.outputs history).filterMap receiverCall with
  | nil => rfl
  | cons entry rest ih =>
    obtain ⟨event, emitted⟩ := entry
    have first : sentBlocks (ownEffects session (event, emitted)) = emitted.filterMap fun
        | .recvReturn other addr data => if other = session then some (addr, data) else none
        | _ => none := by
      unfold ownEffects
      split
      next same =>
        cases same
        split <;> rfl
      next same =>
        cases same
        exact effects emitted
    rw [Machine.outputs_cons, List.filterMap_append, ih, ← first, List.flatMap_cons]
    simp [sentBlocks]

theorem session_isolated (run : Machine.Run (mainLoop order) .initial history state)
    (session : UInt32) :
    (∃ history' state', Machine.Run (mainLoop order) .initial history' state' ∧
      Machine.events history' = reducedRounds session history ∧
      view session state'.receiver = view session state.receiver ∧
      answers session history' = answers session history ∧
      ∀ other, other ≠ session → view other state'.receiver = .absent) ∧
    ∀ order' history' state', Machine.Run (mainLoop order') .initial history' state' →
      (roundsOf session history' = roundsOf session history ∨
        (roundsOf session history').flatten = (roundsOf session history).flatten ∧
        (consumed session (receiverCalls history)).length < 2 ^ 32 ∧
        (consumed session (receiverCalls history')).length < 2 ^ 32) →
      view session state'.receiver = view session state.receiver ∧
      answers session history' = answers session history := by
  constructor
  · have start : Alongside order session (receiverEffects (Machine.outputs history)) .initial
        .initial :=
      ⟨⟨[], .start⟩, ⟨[], .start⟩, ⟨.nil, rfl, fun _ _ => rfl⟩, rfl⟩
    obtain ⟨only, history', executed, alongside, same⟩ :=
      reduced_rounds (Machine.exec_of_run run) start
    refine ⟨history', only, Machine.run_of_exec executed, Machine.events_exec executed,
      alongside.reduced.own, ?_, alongside.reduced.only⟩
    rw [answers_own, answers_own, same]
  · intro order' history' state' run' agree
    obtain ⟨_, rounds, ran, events, outputs⟩ := run_rounds run session
    obtain ⟨_, rounds', ran', events', outputs'⟩ := run_rounds run' session
    have answer : answers session history = sentBlocks (Machine.outputs rounds) := by
      rw [answers_own, outputs]
      rfl
    have answer' : answers session history' = sentBlocks (Machine.outputs rounds') := by
      rw [answers_own, outputs']
      rfl
    rcases agree with same | ⟨same, few, few'⟩
    · have equal := ran'.same ran (by rw [events', events, same])
      rw [answer, answer', equal.2]
      exact ⟨equal.1, rfl⟩
    · -- The two runs may group the events of the session differently.
      obtain ⟨_, own, eager, ownEvents, ownOutputs⟩ := rounds_eager ran
        (fun _ member => roundsOf_filled (events ▸ member))
        (fun _ member => roundsOf_requests run (events ▸ member))
        (by rw [outputs, consumed_own]; exact few)
      obtain ⟨_, own', eager', ownEvents', ownOutputs'⟩ := rounds_eager ran'
        (fun _ member => roundsOf_filled (events' ▸ member))
        (fun _ member => roundsOf_requests run' (events' ▸ member))
        (by rw [outputs', consumed_own]; exact few')
      have equal := eager'.same eager (by rw [ownEvents', ownEvents, events', events, same])
      rw [answer, answer', ← ownOutputs, ← ownOutputs', equal.2]
      exact ⟨equal.1, rfl⟩

def quietRound (front : Option FrontCall) (data : Int32 → Option Arrival) : TcpdRound where
  front := front
  data := data
  acks _ := none
  timer := none
  clock _ := default

-- Another session comes up while the first one is read.
theorem session_isolated_pair :
    ∃ history state history' state',
      Machine.Run (mainLoop ⟨.insertion UInt32, .insertion Int32⟩) .initial history state ∧
      Machine.Run (mainLoop ⟨.insertion UInt32, .insertion Int32⟩) .initial history' state' ∧
      Machine.events history' = reducedRounds 7 history ∧
      answers 7 history' = answers 7 history ∧
      answers 7 history = [(default, [1, 2, 3, 4])] ∧
      (view 9 state.receiver).sock? ≠ none ∧ view 9 state'.receiver = .absent := by
  have run : Machine.Run (mainLoop ⟨.insertion UInt32, .insertion Int32⟩) .initial [] .initial :=
    .start
  have run := run.next (quietRound (some (.bind default 3 true)) fun _ => none) _ _ rfl
  have run := run.next (quietRound (some (.accept default 3)) fun _ => none) _ _ rfl
  have run := run.next (quietRound none fun sockfd => if sockfd = 3 then
    some ⟨frame 7 0 [1, 2, 3, 4], default, default⟩ else none) _ _ (mainLoop_ok nofun rfl
      (Machine.exec_cons (step_receiver (step_data 3 rfl (frame_intact 7 0 [1, 2, 3, 4]) default default))
        rfl))
  have run := run.next (quietRound none fun sockfd => if sockfd = 3 then
    some ⟨frame 9 0 [5, 6], default, default⟩ else none) _ _ (mainLoop_ok nofun rfl
      (Machine.exec_cons (step_receiver (step_data 3 rfl (frame_intact 9 0 [5, 6]) default default))
        rfl))
  have run := run.next (quietRound (some (.recv default 7 4)) fun _ => none) _ _ rfl
  obtain ⟨⟨history', state', run', events, _, same, only⟩, _⟩ := session_isolated run 7
  exact ⟨_, _, history', state', run, run', events, same, rfl, nofun, only 9 (by decide)⟩

end Runs

end NetworkProj.Daemon
