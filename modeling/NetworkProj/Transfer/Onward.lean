import NetworkProj.Shared.Reachability
import NetworkProj.Transfer.Files

set_option autoImplicit false

namespace NetworkProj.Transfer

variable {order : TcpdOrder} {addr : SockAddr} {sock : Int32} {before state state' : Transfer}
  {event : TransferEvent} {emitted : List TransferEffect}
  {history later : Machine.History TransferEvent TransferEffect}

section Sound

def Uncalled : TransferEvent → Prop
  | .start .. | .client (.connect ..) => False
  | .client (.send ..) | .client (.ack ..) | .client (.expired _) | .client (.solveSend _)
  | .server _ | .read => True

def connections (history : Machine.History TransferEvent TransferEffect) : List (Int32 × UInt32) :=
  Sending.opened (Machine.events (clientCalls history))

/-- A name that fits into its field, and a file whose size does. -/
structure Fits (ftpc : Ftpc) : Prop where
  size : ftpc.file.length < 2 ^ 32
  short : ftpc.fileName.length ≤ 20
  text : 0 ∉ ftpc.fileName

/-- A run in which no session is used twice and none is the `-1` of an error. -/
structure Sound (order : TcpdOrder) (addr : SockAddr) (sock : Int32)
    (history : Machine.History TransferEvent TransferEffect) (state : Transfer) : Prop where
  run : Machine.Run (Transfer.step order) (.initial addr sock) history state
  distinct : ((connections history).map Prod.snd).Nodup
  valid : ∀ connection ∈ connections history, connection.2.toInt32 ≠ -1
  fits : ∀ sockfd ftpc, state.ftpcs.find sockfd = some ftpc → Fits ftpc

@[simp] theorem connections_append (left right : Machine.History TransferEvent TransferEffect) :
    connections (left ++ right) = connections left ++ connections right := by
  simp [connections]

theorem uncalled_opens (uncalled : Uncalled event)
    (taken : Transfer.step order state event = .ok (state', emitted)) :
    connections [(event, emitted)] = [] := by
  cases step_move taken with
  | start => exact absurd uncalled id
  | client event client effects =>
    rw [connections, clientCalls_client]
    cases event <;> first | rfl | exact absurd uncalled id
  | server | read => rfl

theorem ftpcs_kept (uncalled : Uncalled event)
    (taken : Transfer.step order state event = .ok (state', emitted)) (sockfd : Int32) :
    (state'.ftpcs.find sockfd).map (fun ftpc => (ftpc.fileName, ftpc.file)) =
      (state.ftpcs.find sockfd).map fun ftpc => (ftpc.fileName, ftpc.file) := by
  cases step_move taken with
  | start => exact absurd uncalled id
  | client event client effects ftpcs frames called ran =>
    cases called_move ran called with
    | connect => exact absurd uncalled id
    | send _ other _ _ _ ftpc value found =>
      rw [Table.find_insert_eq]
      split
      next same =>
        rw [same, found, Option.map_some, Option.map_some, (returned_names ftpc value).1,
          (returned_names ftpc value).2]
      · rfl
    | idle => rfl
  | server | read => rfl

theorem Sound.next (sound : Sound order addr sock history state) (uncalled : Uncalled event)
    (taken : Transfer.step order state event = .ok (state', emitted)) :
    Sound order addr sock (history ++ [(event, emitted)]) state' := by
  have same : connections (history ++ [(event, emitted)]) = connections history := by
    rw [connections_append, uncalled_opens uncalled taken, List.append_nil]
  constructor
  · exact sound.run.next event state' emitted taken
  · rw [same]
    exact sound.distinct
  · rw [same]
    exact sound.valid
  · intro sockfd ftpc found
    have kept := ftpcs_kept uncalled taken sockfd
    rw [found, Option.map_some] at kept
    obtain ⟨old, present, names⟩ := Option.map_eq_some_iff.mp kept.symm
    obtain ⟨fileName, file⟩ := Prod.mk.inj names
    have fits := sound.fits sockfd old present
    exact ⟨file ▸ fits.size, fileName ▸ fits.short, fileName ▸ fits.text⟩

theorem Sound.client (sound : Sound order addr sock history state) :
    Machine.Run (Sender.step order.connected) .initial (clientCalls history)
      state.transport.client :=
  Transport.run_client (run_transport sound.run)

theorem Sound.server (sound : Sound order addr sock history state) :
    Machine.Run (Receiver.step order.accepted) .initial (serverCalls history)
      state.transport.server :=
  Transport.run_server (run_transport sound.run)

theorem Sound.served (sound : Sound order addr sock history state) :
    Served (Machine.events (clientCalls history)) state.ftpcs :=
  run_served sound.run

theorem Sound.books (sound : Sound order addr sock history state) :
    Sending.Books (clientCalls history) state.transport.client.connectedSockets :=
  Sending.run_books sound.client sound.served.once

theorem Sound.unique (sound : Sound order addr sock history state) {sockfd other : Int32}
    {session : UInt32} (connected : (sockfd, session) ∈ connections history)
    (member : (other, session) ∈ connections history) : other = sockfd :=
  congrArg Prod.fst (List.inj_on_of_nodup_map sound.distinct member connected rfl)

theorem Sound.program (sound : Sound order addr sock history state) {sockfd : Int32}
    {session : UInt32} (connected : (sockfd, session) ∈ connections history) :
    ∃ ftpc, state.ftpcs.find sockfd = some ftpc ∧ ftpc.point ≠ .connect := by
  apply sound.served.known
  rw [← Sending.opened_sockets]
  exact List.mem_map_of_mem connected

theorem Sound.conversation (sound : Sound order addr sock history state) {sockfd : Int32}
    {session : UInt32} (connected : (sockfd, session) ∈ connections history) {ftpc : Ftpc}
    (found : state.ftpcs.find sockfd = some ftpc) :
    Conversation session ftpc.fileName ftpc.file history state := by
  have fits := sound.fits sockfd ftpc found
  refine run_conversation sound.run fits.size fits.short fits.text ?_
  exact received_plan sound.run found (fits.size.trans (by decide))
    fun _ => sound.unique connected

end Sound

section Onward

def Since (before state : Transfer) : TransferEvent → Prop
  | .client event => Transport.Delivers
      { state.transport with acks := state.transport.acks.drop before.transport.acks.length }
      (.client event)
  | .server event => Transport.Delivers
      { state.transport with frames := state.transport.frames.drop before.transport.frames.length }
      (.server event)
  | .start .. | .read => True

/-- A way on from a state, with all that was under way lost. -/
structure Onward (order : TcpdOrder) (addr : SockAddr) (sock : Int32)
    (history : Machine.History TransferEvent TransferEffect) (before : Transfer)
    (later : Machine.History TransferEvent TransferEffect) (state : Transfer) : Prop where
  sound : Sound order addr sock (history ++ later) state
  run : Machine.Run (Transfer.step order) before later state
  uncalled : ∀ event ∈ Machine.events later, Uncalled event
  since : Machine.Guarded (Transfer.step order) before (Since before) later

theorem Sound.onward (sound : Sound order addr sock history before) :
    Onward order addr sock history before [] before :=
  ⟨by rwa [List.append_nil], .start, nofun, .start _ _ _⟩

theorem Onward.next (onward : Onward order addr sock history before later state)
    (uncalled : Uncalled event) (since : Since before state event)
    (taken : Transfer.step order state event = .ok (state', emitted)) :
    Onward order addr sock history before (later ++ [(event, emitted)]) state' := by
  constructor
  · rw [← List.append_assoc]
    exact onward.sound.next uncalled taken
  · exact onward.run.next event state' emitted taken
  · intro other member
    rw [Machine.events_append, List.mem_append] at member
    rcases member with old | new
    · exact onward.uncalled other old
    · rw [List.mem_singleton.mp new]
      exact uncalled
  · exact onward.since.next onward.run since

theorem transport_wires {transport transport' : Transport} {event : TransportEvent}
    {emitted : List TransportEffect}
    (taken : Transport.step order transport event = .ok (transport', emitted)) :
    transport.frames <+: transport'.frames ∧ transport.acks <+: transport'.acks := by
  cases Transport.step_party taken with
  | client => exact ⟨List.prefix_append _ _, List.prefix_rfl⟩
  | server => exact ⟨List.prefix_rfl, List.prefix_append _ _⟩

theorem Onward.longer (onward : Onward order addr sock history before later state) :
    before.transport.frames.length ≤ state.transport.frames.length ∧
      before.transport.acks.length ≤ state.transport.acks.length := by
  have run := onward.run
  clear onward
  induction run with
  | start => exact ⟨le_rfl, le_rfl⟩
  | next event state' emitted ran taken ih =>
    cases step_move taken with
    | start | read => exact ih
    | client _ _ _ _ _ _ _ stepped | server _ _ _ _ _ _ _ stepped =>
      obtain ⟨frames, acks⟩ := transport_wires stepped
      exact ⟨ih.1.trans frames.length_le, ih.2.trans acks.length_le⟩

theorem Onward.kept (onward : Onward order addr sock history before later state) :
    connections (history ++ later) = connections history ∧
      ∀ sockfd, (state.ftpcs.find sockfd).map (fun ftpc => (ftpc.fileName, ftpc.file)) =
        (before.ftpcs.find sockfd).map fun ftpc => (ftpc.fileName, ftpc.file) := by
  have run := onward.run
  have uncalled := onward.uncalled
  clear onward
  induction run with
  | start => exact ⟨by rw [List.append_nil], fun _ => rfl⟩
  | next event state' emitted ran taken ih =>
    rw [Machine.events_append] at uncalled
    obtain ⟨same, files⟩ := ih fun event member => uncalled event (List.mem_append_left _ member)
    have last := uncalled event (List.mem_append_right _ (List.mem_singleton_self _))
    constructor
    · rw [← List.append_assoc, connections_append, uncalled_opens last taken, List.append_nil]
      exact same
    · exact fun sockfd => (ftpcs_kept last taken sockfd).trans (files sockfd)

def Reached (order : TcpdOrder) (addr : SockAddr) (sock : Int32)
    (history : Machine.History TransferEvent TransferEffect) (before state : Transfer) : Prop :=
  ∃ later, Onward order addr sock history before later state

theorem Reached.client (reached : Reached order addr sock history before state)
    {event : SenderEvent} {client : Sender} {effects : List SenderEffect} {ftpcs : Table Int32 Ftpc}
    (uncalled : Uncalled (.client event)) (since : Since before state (.client event))
    (taken : Sender.step order.connected state.transport.client event = .ok (client, effects))
    (called : Transfer.called state.ftpcs effects event = some ftpcs) :
    Reached order addr sock history before
      { state with
        ftpcs
        transport := { state.transport with
          client, frames := state.transport.frames ++ effects.filterMap SenderEffect.frame? } } := by
  obtain ⟨later, onward⟩ := reached
  have delivers : state.transport.Delivers (.client event) := by
    cases event with
    | ack =>
      intro intact
      obtain ⟨sent, inside, same⟩ := since intact
      exact ⟨sent, List.mem_of_mem_drop inside, same⟩
    | connect | send | expired | solveSend => trivial
  exact ⟨_, onward.next uncalled since
    (step_client event (Transport.step_client event delivers taken) called)⟩

theorem Reached.server (reached : Reached order addr sock history before state)
    {event : ReceiverEvent} {server : Receiver} {effects : List ReceiverEffect} {ftps : Ftps}
    (since : Since before state (.server event))
    (taken : Receiver.step order.accepted state.transport.server event = .ok (server, effects))
    (called : state.ftps.called event = some ftps) :
    Reached order addr sock history before
      { state with
        ftps
        transport := { state.transport with
          server, acks := state.transport.acks ++ effects.filterMap ReceiverEffect.ack? }
        inbox := state.inbox ++ answers ftps.addr effects } := by
  obtain ⟨later, onward⟩ := reached
  have delivers : state.transport.Delivers (.server event) := by
    cases event with
    | data =>
      intro intact
      obtain ⟨sent, inside, same⟩ := since intact
      exact ⟨sent, List.mem_of_mem_drop inside, same⟩
    | bind | accept | recv | solveAccept | solveRecv => trivial
  exact ⟨_, onward.next (show Uncalled (.server event) from trivial) since
    (step_server event (Transport.step_server event delivers taken) called)⟩

theorem Reached.read (reached : Reached order addr sock history before state)
    (waiting : state.ftps.waiting = true) {datagram : List UInt8} {rest : List (List UInt8)}
    (arrived : state.inbox = datagram :: rest) :
    Reached order addr sock history before
      { state with ftps := (state.ftps.received datagram).1, inbox := rest } := by
  obtain ⟨later, onward⟩ := reached
  have taken : Transfer.step order state .read =
      .ok ({ state with ftps := (state.ftps.received datagram).1, inbox := rest },
        (state.ftps.received datagram).2.map .ftps) := by
    simp only [Transfer.step, waiting, arrived]
  exact ⟨_, onward.next (show Uncalled .read from trivial) (show Since before state .read from trivial) taken⟩

end Onward

end NetworkProj.Transfer
