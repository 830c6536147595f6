import NetworkProj.Daemon.Halves
import NetworkProj.Receiver.Grouping

set_option autoImplicit false

namespace NetworkProj.Daemon

open Reception

section Shape

def isSolve : SessionEvent → Bool
  | .solve => true
  | _ => false

def ownEvents (session : UInt32) (calls : Machine.History TcpdEvent TcpdEffect) :
    List SessionEvent :=
  (calls.filterMap receiverCall).filterMap (ownEvent session)

def roundOf (session : UInt32) (calls : Machine.History TcpdEvent TcpdEffect) :
    List SessionEvent :=
  (ownEvents session calls).filter fun event => !isSolve event

@[simp] theorem ownEvents_append (session : UInt32)
    (left right : Machine.History TcpdEvent TcpdEffect) :
    ownEvents session (left ++ right) = ownEvents session left ++ ownEvents session right := by
  simp [ownEvents]

variable {session : UInt32} {calls : Machine.History TcpdEvent TcpdEffect}

theorem ownEvents_member {event : SessionEvent} (member : event ∈ ownEvents session calls) :
    ∃ called emitted, called ∈ Machine.events calls ∧
      ∃ given, called = .receiver given ∧ ownEvent session (given, emitted) = some event := by
  obtain ⟨⟨given, emitted⟩, inside, own⟩ := List.mem_filterMap.mp member
  obtain ⟨⟨called, effects⟩, call, half⟩ := List.mem_filterMap.mp inside
  refine ⟨called, emitted, List.mem_map_of_mem call, given, ?_, own⟩
  cases called with
  | receiver event =>
    cases half
    rfl
  | socket | sender => cases half

/-- The calls of a round: a RECV can only come first, and the callback comes last. -/
structure Shape (session : UInt32) (calls : Machine.History TcpdEvent TcpdEffect) : Prop where
  closed : ownEvents session calls = roundOf session calls ++ [.solve]
  requests : ∀ event ∈ (roundOf session calls).tail, isRequest event = false

theorem shape_of_split (front rest : List SessionEvent)
    (split : ownEvents session calls = front ++ rest ++ [.solve]) (single : front.length ≤ 1)
    (called : ∀ event ∈ front, isSolve event = false)
    (read : ∀ event ∈ rest, isSolve event = false ∧ isRequest event = false) :
    Shape session calls := by
  have round : roundOf session calls = front ++ rest := by
    rw [roundOf, split, List.filter_append, List.filter_eq_self.mpr]
    · simp [isSolve]
    · intro event member
      rcases List.mem_append.mp member with inside | inside
      · simp [called event inside]
      · simp [(read event inside).1]
  constructor
  · rw [round, split]
  · intro event member
    rw [round] at member
    have inside : event ∈ rest := by
      match front, single with
      | [], _ => exact List.mem_of_mem_tail member
      | [_], _ => exact member
    exact (read event inside).2

theorem mainLoop_shape {order : TcpdOrder} {state state' : Tcpd} {round : TcpdRound}
    (taken : mainLoop order state round = .ok (state', calls)) : Shape session calls := by
  obtain ⟨_, called, front, rest, executed, continued, rfl⟩ := mainLoop_exec taken
  have fronts := Machine.events_exec executed
  have rests := Machine.events_exec continued
  unfold roundEvents at rests
  obtain ⟨read, last, rfl, reads, lasts⟩ := List.map_eq_append_iff.mp rests
  obtain ⟨accepted, solved, sent, rfl⟩ : ∃ accepted solved sent,
      last = [(.receiver .solveAccept, accepted), (.receiver .solveRecv, solved),
        (.sender (.solveSend round.clock), sent)] := by
    rcases last with _ | ⟨⟨_, accepted⟩, _ | ⟨⟨_, solved⟩, _ | ⟨⟨_, sent⟩, _ | _⟩⟩⟩ <;>
      simp at lasts
    obtain ⟨rfl, rfl, rfl⟩ := lasts
    exact ⟨accepted, solved, sent, rfl⟩
  have closing : ownEvents session [(.receiver .solveAccept, accepted),
      (.receiver .solveRecv, solved), (.sender (.solveSend round.clock), sent)] =
      ownEvents session [(.receiver .solveAccept, accepted)] ++ [.solve] := by
    rw [← List.singleton_append, ownEvents_append]
    rfl
  apply shape_of_split (ownEvents session front)
    (ownEvents session read ++ ownEvents session [(.receiver .solveAccept, accepted)])
  · simp [closing]
  · have length : (ownEvents session front).length ≤ front.length :=
      (List.length_filterMap_le _ _).trans (List.length_filterMap_le _ _)
    have single : front.length = (frontEvents round).length := by
      rw [← fronts, Machine.events, List.length_map]
    refine length.trans (single.le.trans ?_)
    unfold frontEvents
    cases round.front <;> simp
  · intro event member
    obtain ⟨called, emitted, inside, given, rfl, own⟩ := ownEvents_member member
    rw [fronts, frontEvents] at inside
    by_contra solve
    cases ownEvent_brings own with
    | data | recv | solveAccept => exact solve rfl
    | solveRecv =>
      cases call : round.front with
      | none => simp [call] at inside
      | some call' => cases call' <;> simp [call, FrontCall.event] at inside
  · intro event member
    rcases List.mem_append.mp member with inside | inside
    · obtain ⟨called, emitted, inside, given, rfl, own⟩ := ownEvents_member inside
      rw [show Machine.events read = _ from reads] at inside
      have data : ∃ sockfd message remoteTroll malloc,
          given = .data sockfd message remoteTroll malloc := by
        simp only [List.mem_append, List.mem_filterMap, List.mem_map, Option.map_eq_some_iff,
          Arrival.event, AckArrival.event] at inside
        rcases inside with (⟨sockfd, _, arrival, _, same⟩ | ⟨_, _, _, _, same⟩) | ⟨_, _, same⟩
        · cases same
          exact ⟨sockfd, _, _, _, rfl⟩
        · cases same
        · cases same
      obtain ⟨sockfd, message, remoteTroll, malloc, rfl⟩ := data
      cases ownEvent_brings own
      exact ⟨rfl, rfl⟩
    · obtain ⟨called, emitted, called', given, rfl, own⟩ := ownEvents_member inside
      obtain ⟨rfl⟩ : TcpdEvent.receiver given = .receiver .solveAccept := by simpa using called'
      cases ownEvent_brings own
      exact ⟨rfl, rfl⟩

end Shape

section Runs

variable {order : TcpdOrder} {state state' : Tcpd}
  {history : Machine.History TcpdRound (TcpdEvent × List TcpdEffect)}

def receiverCalls (history : Machine.History TcpdRound (TcpdEvent × List TcpdEffect)) :
    Machine.History ReceiverEvent ReceiverEffect :=
  (Machine.outputs history).filterMap receiverCall

theorem run_receiverCalls (run : Machine.Run (mainLoop order) .initial history state) :
    Machine.Run (Receiver.step order.accepted) .initial (receiverCalls history) state.receiver :=
  run_receiver (run_calls run)

def roundsOf (session : UInt32)
    (history : Machine.History TcpdRound (TcpdEvent × List TcpdEffect)) :
    List (List SessionEvent) :=
  (history.map fun entry => roundOf session entry.2).filter fun events => !events.isEmpty

theorem mainLoop_round {round : TcpdRound} {calls : Machine.History TcpdEvent TcpdEffect}
    (consistent : Consistent state.receiver)
    (taken : mainLoop order state round = .ok (state', calls)) (session : UInt32) :
    roundStep session (view session state.receiver) (roundOf session calls) =
      .ok (view session state'.receiver,
        (calls.filterMap receiverCall).flatMap (ownEffects session)) := by
  obtain ⟨own, ran, events, outputs⟩ :=
    run_session_from consistent (run_receiver (mainLoop_calls taken)) session
  have executed := Machine.exec_of_run ran
  rw [events] at executed
  have closed : (calls.filterMap receiverCall).filterMap (ownEvent session) =
      roundOf session calls ++ [.solve] := (mainLoop_shape taken).closed
  rw [closed] at executed
  simp [roundStep, executed, outputs]

theorem roundStep_empty {session : UInt32} {current final : SessionView}
    {effects : List SessionEffect} (settled : Settled session current)
    (taken : roundStep session current [] = .ok (final, effects)) :
    final = current ∧ effects = [] := by
  unfold Settled at settled
  simp only [roundStep, List.nil_append, Machine.exec, settled] at taken
  cases taken
  exact ⟨rfl, rfl⟩

theorem roundStep_settled {session : UInt32} {current final : SessionView}
    {events : List SessionEvent} {effects : List SessionEffect}
    (taken : roundStep session current events = .ok (final, effects)) :
    Settled session final := by
  obtain ⟨history, executed, same⟩ := roundStep_ok taken
  clear taken same
  induction events generalizing current history with
  | nil =>
    obtain ⟨next, emitted, later, solved, continued, _⟩ := Machine.exec_cons_ok executed
    cases continued
    exact settled_solve solved
  | cons event rest ih =>
    obtain ⟨next, emitted, later, stepped, continued, _⟩ := Machine.exec_cons_ok executed
    exact ih later continued

theorem run_rounds (run : Machine.Run (mainLoop order) .initial history state) (session : UInt32) :
    Settled session (view session state.receiver) ∧
      ∃ rounds, Machine.Run (roundStep session) .absent rounds (view session state.receiver) ∧
        Machine.events rounds = roundsOf session history ∧
        Machine.outputs rounds = (receiverCalls history).flatMap (ownEffects session) := by
  induction run with
  | start => exact ⟨rfl, [], .start, rfl, rfl⟩
  | next round state' calls before taken ih =>
    obtain ⟨settled, rounds, ran, events, outputs⟩ := ih
    have consistent := run_consistent (run_receiverCalls before)
    have stepped := mainLoop_round consistent taken session
    refine ⟨roundStep_settled stepped, ?_⟩
    cases own : roundOf session calls with
    | nil =>
      rw [own] at stepped
      obtain ⟨same, silent⟩ := roundStep_empty settled stepped
      refine ⟨rounds, same ▸ ran, ?_, ?_⟩
      · simp [events, roundsOf, own]
      · simp [outputs, receiverCalls, silent]
    | cons first rest =>
      rw [own] at stepped
      refine ⟨_, ran.next (first :: rest) _ _ stepped, ?_, ?_⟩
      · simp [events, roundsOf, own]
      · simp [outputs, receiverCalls]

theorem roundsOf_filled {session : UInt32} {events : List SessionEvent}
    (member : events ∈ roundsOf session history) : events ≠ [] := by
  have filled := (List.mem_filter.mp member).2
  intro empty
  simp [empty] at filled

theorem roundsOf_requests (run : Machine.Run (mainLoop order) .initial history state)
    {session : UInt32} {events : List SessionEvent} (member : events ∈ roundsOf session history) :
    ∀ event ∈ events.tail, isRequest event = false := by
  obtain ⟨⟨round, calls⟩, inside, rfl⟩ := List.mem_map.mp (List.mem_filter.mp member).1
  obtain ⟨before, after, rfl⟩ := List.append_of_mem inside
  obtain ⟨_, _, _, taken⟩ := run.split
  exact (mainLoop_shape taken).requests

end Runs

end NetworkProj.Daemon
