import NetworkProj.Model.Tcpd

set_option autoImplicit false

namespace NetworkProj.Daemon

variable {order : TcpdOrder} {first state : Tcpd}

section Calls

theorem mainLoop_exec {round : TcpdRound} {calls : Machine.History TcpdEvent TcpdEffect}
    (taken : mainLoop order first round = .ok (state, calls)) :
    (round.front.isSome → first.sender.Ready) ∧
      ∃ called front rest,
        Machine.exec (Tcpd.step order) first (frontEvents round) = .ok (called, front) ∧
        Machine.exec (Tcpd.step order) called
          (roundEvents order first.waitingSocketSet called round) = .ok (state, rest) ∧
        calls = front ++ rest := by
  unfold mainLoop at taken
  split at taken
  · cases taken
  next ready =>
    split at taken
    · cases taken
    next called front executed =>
      split at taken
      · cases taken
      next final rest continued =>
        cases taken
        refine ⟨?_, called, front, rest, executed, continued, rfl⟩
        intro some
        by_contra full
        exact ready ⟨some, full⟩

theorem mainLoop_ok {round : TcpdRound} {called : Tcpd}
    {front rest : Machine.History TcpdEvent TcpdEffect}
    (ready : round.front.isSome → first.sender.Ready)
    (executed : Machine.exec (Tcpd.step order) first (frontEvents round) = .ok (called, front))
    (continued : Machine.exec (Tcpd.step order) called
      (roundEvents order first.waitingSocketSet called round) = .ok (state, rest)) :
    mainLoop order first round = .ok (state, front ++ rest) := by
  have free : ¬ (round.front.isSome ∧ ¬ first.sender.Ready) := fun ⟨call, full⟩ => full (ready call)
  simp only [mainLoop, free, if_false, executed, continued]

theorem mainLoop_calls {round : TcpdRound} {calls : Machine.History TcpdEvent TcpdEffect}
    (taken : mainLoop order first round = .ok (state, calls)) :
    Machine.Run (Tcpd.step order) first calls state := by
  obtain ⟨_, called, front, rest, executed, continued, rfl⟩ := mainLoop_exec taken
  exact (Machine.run_of_exec executed).trans (Machine.run_of_exec continued)

theorem run_calls {history : Machine.History TcpdRound (TcpdEvent × List TcpdEffect)}
    (run : Machine.Run (mainLoop order) first history state) :
    Machine.Run (Tcpd.step order) first (Machine.outputs history) state := by
  induction run with
  | start => exact .start
  | next round state' calls before taken ih =>
    rw [Machine.outputs_append]
    simpa using ih.trans (mainLoop_calls taken)

end Calls

section Halves

variable {calls : Machine.History TcpdEvent TcpdEffect}

def receiverEffect : TcpdEffect → Option ReceiverEffect
  | .receiver effect => some effect
  | _ => none

def senderEffect : TcpdEffect → Option SenderEffect
  | .sender effect => some effect
  | _ => none

def receiverCall : TcpdEvent × List TcpdEffect → Option (ReceiverEvent × List ReceiverEffect)
  | (.receiver event, emitted) => some (event, emitted.filterMap receiverEffect)
  | _ => none

def senderCall : TcpdEvent × List TcpdEffect → Option (SenderEvent × List SenderEffect)
  | (.sender event, emitted) => some (event, emitted.filterMap senderEffect)
  | _ => none

@[simp] theorem receiverCall_receiver (event : ReceiverEvent) (emitted : List ReceiverEffect) :
    receiverCall (.receiver event, emitted.map .receiver) = some (event, emitted) := by
  simp [receiverCall, List.filterMap_map, Function.comp_def, receiverEffect]

@[simp] theorem senderCall_sender (event : SenderEvent) (emitted : List SenderEffect) :
    senderCall (.sender event, emitted.map .sender) = some (event, emitted) := by
  simp [senderCall, List.filterMap_map, Function.comp_def, senderEffect]

inductive HalfStep (order : TcpdOrder) (state : Tcpd) :
    TcpdEvent → Tcpd → List TcpdEffect → Prop where
  | socket (front : SockAddr) (retSock : Int32) (granted : ¬ retSock < 0) :
      HalfStep order state (.socket front retSock) state [.socketReturn front retSock]
  | receiver (event : ReceiverEvent) (receiver : Receiver) (emitted : List ReceiverEffect)
      (taken : Receiver.step order.accepted state.receiver event = .ok (receiver, emitted)) :
      HalfStep order state (.receiver event) { state with receiver } (emitted.map .receiver)
  | sender (event : SenderEvent) (sender : Sender) (emitted : List SenderEffect)
      (taken : Sender.step order.connected state.sender event = .ok (sender, emitted)) :
      HalfStep order state (.sender event) { state with sender } (emitted.map .sender)

theorem step_half {event : TcpdEvent} {emitted : List TcpdEffect}
    (taken : Tcpd.step order first event = .ok (state, emitted)) :
    HalfStep order first event state emitted := by
  cases event with
  | socket front retSock =>
    simp only [Tcpd.step, tcpdSocket] at taken
    split at taken
    · cases taken
    next granted =>
      cases taken
      exact .socket front retSock granted
  | receiver event =>
    simp only [Tcpd.step] at taken
    split at taken
    · cases taken
    next receiver emitted stepped =>
      cases taken
      exact .receiver event receiver emitted stepped
  | sender event =>
    simp only [Tcpd.step] at taken
    split at taken
    · cases taken
    next sender emitted stepped =>
      cases taken
      exact .sender event sender emitted stepped

theorem step_receiver {event : ReceiverEvent} {receiver : Receiver} {emitted : List ReceiverEffect}
    (taken : Receiver.step order.accepted first.receiver event = .ok (receiver, emitted)) :
    Tcpd.step order first (.receiver event) =
      .ok ({ first with receiver }, emitted.map .receiver) := by
  simp [Tcpd.step, taken]

theorem run_receiver (run : Machine.Run (Tcpd.step order) first calls state) :
    Machine.Run (Receiver.step order.accepted) first.receiver (calls.filterMap receiverCall)
      state.receiver := by
  apply run.component Tcpd.receiver
  intro _ _ _ _ taken
  cases step_half taken with
  | socket | sender => exact .inl ⟨rfl, rfl⟩
  | receiver event receiver emitted stepped =>
    exact .inr ⟨event, emitted, receiverCall_receiver event emitted, stepped⟩

theorem run_sender (run : Machine.Run (Tcpd.step order) first calls state) :
    Machine.Run (Sender.step order.connected) first.sender (calls.filterMap senderCall)
      state.sender := by
  apply run.component Tcpd.sender
  intro _ _ _ _ taken
  cases step_half taken with
  | socket | receiver => exact .inl ⟨rfl, rfl⟩
  | sender event sender emitted stepped =>
    exact .inr ⟨event, emitted, senderCall_sender event emitted, stepped⟩

end Halves

end NetworkProj.Daemon
