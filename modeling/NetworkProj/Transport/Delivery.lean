import NetworkProj.Model.Transport
import NetworkProj.Receiver.Reordering
import NetworkProj.Sender.Bookkeeping

set_option autoImplicit false

namespace NetworkProj.Transport

variable {order : TcpdOrder} {state state' : Transport} {event : TransportEvent}
  {emitted : List TransportEffect} {history : Machine.History TransportEvent TransportEffect}

section Parties

def clientCall : TransportEvent × List TransportEffect → Option (SenderEvent × List SenderEffect)
  | (.client event, emitted) => some (event, emitted.filterMap clientEffect)
  | (.server _, _) => none

def serverCall :
    TransportEvent × List TransportEffect → Option (ReceiverEvent × List ReceiverEffect)
  | (.server event, emitted) => some (event, emitted.filterMap serverEffect)
  | (.client _, _) => none

def clientCalls (history : Machine.History TransportEvent TransportEffect) :
    Machine.History SenderEvent SenderEffect :=
  history.filterMap clientCall

def serverCalls (history : Machine.History TransportEvent TransportEffect) :
    Machine.History ReceiverEvent ReceiverEffect :=
  history.filterMap serverCall

@[simp] theorem clientCall_client (event : SenderEvent) (emitted : List SenderEffect) :
    clientCall (.client event, emitted.map .client) = some (event, emitted) := by
  simp [clientCall, List.filterMap_map, Function.comp_def, clientEffect]

@[simp] theorem serverCall_server (event : ReceiverEvent) (emitted : List ReceiverEffect) :
    serverCall (.server event, emitted.map .server) = some (event, emitted) := by
  simp [serverCall, List.filterMap_map, Function.comp_def, serverEffect]

@[simp] theorem clientCall_server (event : ReceiverEvent) (emitted : List TransportEffect) :
    clientCall (.server event, emitted) = none := rfl

@[simp] theorem serverCall_client (event : SenderEvent) (emitted : List TransportEffect) :
    serverCall (.client event, emitted) = none := rfl

@[simp] theorem clientCalls_append (left right : Machine.History TransportEvent TransportEffect) :
    clientCalls (left ++ right) = clientCalls left ++ clientCalls right :=
  List.filterMap_append

@[simp] theorem serverCalls_append (left right : Machine.History TransportEvent TransportEffect) :
    serverCalls (left ++ right) = serverCalls left ++ serverCalls right :=
  List.filterMap_append

inductive PartyStep (order : TcpdOrder) (state : Transport) :
    TransportEvent → Transport → List TransportEffect → Prop where
  | client (event : SenderEvent) (client : Sender) (emitted : List SenderEffect)
      (delivers : state.Delivers (.client event))
      (taken : Sender.step order.connected state.client event = .ok (client, emitted)) :
      PartyStep order state (.client event)
        { state with client, frames := state.frames ++ emitted.filterMap SenderEffect.frame? }
        (emitted.map .client)
  | server (event : ReceiverEvent) (server : Receiver) (emitted : List ReceiverEffect)
      (delivers : state.Delivers (.server event))
      (taken : Receiver.step order.accepted state.server event = .ok (server, emitted)) :
      PartyStep order state (.server event)
        { state with server, acks := state.acks ++ emitted.filterMap ReceiverEffect.ack? }
        (emitted.map .server)

theorem step_party (taken : Transport.step order state event = .ok (state', emitted)) :
    PartyStep order state event state' emitted := by
  unfold Transport.step at taken
  split at taken
  next delivers =>
    cases event with
    | client event =>
      dsimp only at taken
      split at taken
      · cases taken
      next client emitted stepped =>
        cases taken
        exact .client event client emitted delivers stepped
    | server event =>
      dsimp only at taken
      split at taken
      · cases taken
      next server emitted stepped =>
        cases taken
        exact .server event server emitted delivers stepped
  · cases taken

theorem step_client (event : SenderEvent) {client : Sender} {emitted : List SenderEffect}
    (delivers : state.Delivers (.client event))
    (taken : Sender.step order.connected state.client event = .ok (client, emitted)) :
    Transport.step order state (.client event) =
      .ok ({ state with client, frames := state.frames ++ emitted.filterMap SenderEffect.frame? },
        emitted.map .client) := by
  simp [Transport.step, delivers, taken]

theorem step_server (event : ReceiverEvent) {server : Receiver} {emitted : List ReceiverEffect}
    (delivers : state.Delivers (.server event))
    (taken : Receiver.step order.accepted state.server event = .ok (server, emitted)) :
    Transport.step order state (.server event) =
      .ok ({ state with server, acks := state.acks ++ emitted.filterMap ReceiverEffect.ack? },
        emitted.map .server) := by
  simp [Transport.step, delivers, taken]

theorem run_client (run : Machine.Run (Transport.step order) .initial history state) :
    Machine.Run (Sender.step order.connected) .initial (clientCalls history) state.client := by
  apply run.component Transport.client
  intro _ _ _ _ taken
  cases step_party taken with
  | client event client emitted delivers stepped =>
    exact .inr ⟨event, emitted, clientCall_client event emitted, stepped⟩
  | server => exact .inl ⟨rfl, rfl⟩

theorem run_server (run : Machine.Run (Transport.step order) .initial history state) :
    Machine.Run (Receiver.step order.accepted) .initial (serverCalls history) state.server := by
  apply run.component Transport.server
  intro _ _ _ _ taken
  cases step_party taken with
  | client => exact .inl ⟨rfl, rfl⟩
  | server event server emitted delivers stepped =>
    exact .inr ⟨event, emitted, serverCall_server event emitted, stepped⟩

end Parties

section Network

theorem acks_accepting {sockets sockets' : List BindedSocket}
    {accepted accepted' : Table UInt32 AcceptedSocket} {waiting waiting' : List AcceptedSocket}
    {effects : List ReceiverEffect}
    (ran : Reception.Accepting sockets accepted waiting sockets' accepted' waiting' effects) :
    effects.filterMap ReceiverEffect.ack? = [] := by
  induction ran with
  | done => rfl
  | stay _ _ _ ih => exact ih
  | take _ _ _ _ _ _ _ _ ih => simpa [ReceiverEffect.ack?] using ih

theorem acks_solveRecv {order : IterOrder UInt32} {state state' : Receiver}
    {effects : List ReceiverEffect} (ran : solveRecvCallback order state = .ok (state', effects)) :
    effects.filterMap ReceiverEffect.ack? = [] := by
  obtain ⟨accepted, swept, rfl⟩ := Reception.solveRecvCallback_swept ran
  apply List.filterMap_eq_nil_iff.mpr
  intro effect member
  obtain ⟨session, _, sock, _, _, _, final, emitted, visited, emits⟩ :=
    Table.sweep_emits (order.nodup state.acceptedSockets) swept member
  obtain ⟨_, solved⟩ := Reception.solveRecvSocket_solved (Reception.visitSocket_ok visited)
  obtain ⟨freed, _, ⟨_, rfl⟩ | ⟨_, _, _, data, _, rfl⟩⟩ := solved.answer
  · obtain ⟨message, _, rfl⟩ := List.mem_map.mp emits
    rfl
  · rcases List.mem_append.mp emits with free | answer
    · obtain ⟨message, _, rfl⟩ := List.mem_map.mp free
      rfl
    · rw [List.mem_singleton.mp answer]
      rfl

-- Only `RecvData` acks, and only a frame that passes the checksum test.
theorem acked_data {order : IterOrder UInt32} {state state' : Receiver} {event : ReceiverEvent}
    {emitted : List ReceiverEffect}
    (taken : Receiver.step order state event = .ok (state', emitted)) {ack : TrollAck}
    (member : ack ∈ emitted.filterMap ReceiverEffect.ack?) :
    ∃ sockfd message remoteTroll malloc, event = .data sockfd message remoteTroll malloc ∧
      message.Intact ∧ ack = ackOf message remoteTroll := by
  cases Reception.step_move taken with
  | bind | refused | request | garbled => cases member
  | accept front sockfd =>
    unfold tcpdAccept at member
    dsimp only at member
    split at member <;> cases member
  | data sockfd message remoteTroll malloc intact =>
    exact ⟨sockfd, message, remoteTroll, malloc, rfl, intact, List.mem_singleton.mp member⟩
  | solveAccept _ _ ran =>
    rw [acks_accepting ran] at member
    cases member
  | solveRecv _ _ ran =>
    rw [acks_solveRecv ran] at member
    cases member

/-- The wires hold what was sent, and what was taken from them intact had been put on them. -/
structure Wired (history : Machine.History TransportEvent TransportEffect) (state : Transport) :
    Prop where
  frames : ∀ message ∈ state.frames,
    ∃ sockfd, .data sockfd message ∈ Machine.outputs (clientCalls history)
  acks : ∀ ack ∈ state.acks,
    ∃ now ∈ Reception.received ack.session (serverCalls history), now.seqNum = ack.seqNum
  arrived : ∀ session, ∀ now ∈ Reception.received session (serverCalls history),
    ∃ sent ∈ state.frames, now.content = sent.content
  acked : ∀ sockfd, ∀ ack ∈ Sending.validAcks sockfd (Machine.events (clientCalls history)),
    ∃ sent ∈ state.acks, ack.SameNames sent

theorem wired_client (wired : Wired history state) {event : SenderEvent} {client : Sender}
    {emitted : List SenderEffect} (delivers : state.Delivers (.client event)) :
    Wired (history ++ [(.client event, emitted.map .client)])
      { state with client, frames := state.frames ++ emitted.filterMap SenderEffect.frame? } := by
  have client : clientCalls (history ++ [(.client event, emitted.map .client)]) =
      clientCalls history ++ [(event, emitted)] := by
    simp [clientCalls]
  have server : serverCalls (history ++ [(.client event, emitted.map .client)]) =
      serverCalls history := by
    simp [serverCalls, List.filterMap_cons]
  constructor
  · intro message member
    rw [client, Machine.outputs_append]
    rcases List.mem_append.mp member with old | new
    · obtain ⟨sockfd, sent⟩ := wired.frames message old
      exact ⟨sockfd, List.mem_append_left _ sent⟩
    · obtain ⟨effect, sent, same⟩ := List.mem_filterMap.mp new
      cases effect with
      | data sockfd message' =>
        cases same
        exact ⟨sockfd, List.mem_append_right _ (by simpa using sent)⟩
      | connectReturn | sendReturn | timer | free => cases same
  · intro ack member
    rw [server]
    exact wired.acks ack member
  · intro session now member
    rw [server] at member
    obtain ⟨sent, inside, same⟩ := wired.arrived session now member
    exact ⟨sent, List.mem_append_left _ inside, same⟩
  · intro sockfd ack member
    rw [client, Machine.events_append, Sending.validAcks_append] at member
    rcases List.mem_append.mp member with old | new
    · exact wired.acked sockfd ack old
    · obtain ⟨event', received, own⟩ := List.mem_filterMap.mp new
      obtain rfl := List.mem_singleton.mp received
      split at own
      next other ack' now =>
        split at own
        next here =>
          cases own
          exact delivers here.2
        · cases own
      · cases own

theorem wired_server (wired : Wired history state) {order : IterOrder UInt32}
    {event : ReceiverEvent} {server : Receiver} {emitted : List ReceiverEffect}
    (delivers : state.Delivers (.server event))
    (taken : Receiver.step order state.server event = .ok (server, emitted)) :
    Wired (history ++ [(.server event, emitted.map .server)])
      { state with server, acks := state.acks ++ emitted.filterMap ReceiverEffect.ack? } := by
  have client : clientCalls (history ++ [(.server event, emitted.map .server)]) =
      clientCalls history := by
    simp [clientCalls, List.filterMap_cons]
  have server : serverCalls (history ++ [(.server event, emitted.map .server)]) =
      serverCalls history ++ [(event, emitted)] := by
    simp [serverCalls]
  constructor
  · intro message member
    rw [client]
    exact wired.frames message member
  · intro ack member
    rw [server, Reception.received_append]
    rcases List.mem_append.mp member with old | new
    · obtain ⟨now, arrived, same⟩ := wired.acks ack old
      exact ⟨now, List.mem_append_left _ arrived, same⟩
    · obtain ⟨sockfd, message, remoteTroll, malloc, rfl, intact, rfl⟩ := acked_data taken new
      refine ⟨message, List.mem_append_right _ ?_, rfl⟩
      simp [Reception.received, intact, ackOf, TrollAck.sealed]
  · intro session now member
    rw [server, Reception.received_append] at member
    rcases List.mem_append.mp member with old | new
    · exact wired.arrived session now old
    · obtain ⟨event', received, own⟩ := List.mem_filterMap.mp new
      obtain rfl := List.mem_singleton.mp received
      split at own
      next sockfd message remoteTroll malloc =>
        split at own
        next here =>
          cases own
          exact delivers here.1
        · cases own
      · cases own
  · intro sockfd ack member
    rw [client] at member
    obtain ⟨sent, inside, same⟩ := wired.acked sockfd ack member
    exact ⟨sent, List.mem_append_left _ inside, same⟩

theorem run_wired (run : Machine.Run (Transport.step order) .initial history state) :
    Wired history state := by
  induction run with
  | start => exact ⟨by simp [initial], by simp [initial], nofun, nofun⟩
  | next event state' emitted before taken ih =>
    cases step_party taken with
    | client event client emitted delivers stepped => exact wired_client ih delivers
    | server event server emitted delivers stepped => exact wired_server ih delivers stepped

end Network

end NetworkProj.Transport
