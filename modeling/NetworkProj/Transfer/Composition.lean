import NetworkProj.Transfer.Programs
import NetworkProj.Receiver.Stream
import NetworkProj.Transport.Custody

set_option autoImplicit false

namespace NetworkProj.Transfer

variable {order : TcpdOrder} {addr : SockAddr} {sock : Int32} {state state' : Transfer}
  {event : TransferEvent} {emitted : List TransferEffect}
  {history : Machine.History TransferEvent TransferEffect}

section Parts

def transportEffect : TransferEffect → Option TransportEffect
  | .transport effect => some effect
  | .ftps _ => none

def ftpsEffect : TransferEffect → Option FtpsEffect
  | .ftps effect => some effect
  | .transport _ => none

def transportCall :
    TransferEvent × List TransferEffect → Option (TransportEvent × List TransportEffect)
  | (.client event, emitted) => some (.client event, emitted.filterMap transportEffect)
  | (.server event, emitted) => some (.server event, emitted.filterMap transportEffect)
  | (.start .., _) | (.read, _) => none

def transportCalls (history : Machine.History TransferEvent TransferEffect) :
    Machine.History TransportEvent TransportEffect :=
  history.filterMap transportCall

def clientCalls (history : Machine.History TransferEvent TransferEffect) :
    Machine.History SenderEvent SenderEffect :=
  Transport.clientCalls (transportCalls history)

def serverCalls (history : Machine.History TransferEvent TransferEffect) :
    Machine.History ReceiverEvent ReceiverEffect :=
  Transport.serverCalls (transportCalls history)

def ftpsEffects (history : Machine.History TransferEvent TransferEffect) : List FtpsEffect :=
  (Machine.outputs history).filterMap ftpsEffect

@[simp] theorem clientCalls_append (left right : Machine.History TransferEvent TransferEffect) :
    clientCalls (left ++ right) = clientCalls left ++ clientCalls right := by
  simp [clientCalls, transportCalls]

@[simp] theorem serverCalls_append (left right : Machine.History TransferEvent TransferEffect) :
    serverCalls (left ++ right) = serverCalls left ++ serverCalls right := by
  simp [serverCalls, transportCalls]

@[simp] theorem ftpsEffects_append (left right : Machine.History TransferEvent TransferEffect) :
    ftpsEffects (left ++ right) = ftpsEffects left ++ ftpsEffects right := by
  simp [ftpsEffects]

@[simp] theorem transportEffects_map (effects : List TransportEffect) :
    (effects.map TransferEffect.transport).filterMap transportEffect = effects := by
  simp [List.filterMap_map, Function.comp_def, transportEffect]

inductive TransferMove (order : TcpdOrder) (state : Transfer) :
    TransferEvent → Transfer → List TransferEffect → Prop where
  | start (sockfd : Int32) (fileName file : List UInt8)
      (fresh : state.ftpcs.find sockfd = none) :
      TransferMove order state (.start sockfd fileName file)
        { state with ftpcs := state.ftpcs.insert sockfd { fileName, file, point := .connect } } []
  | client (event : SenderEvent) (client : Sender) (effects : List SenderEffect)
      (ftpcs : Table Int32 Ftpc) (frames : List TrollMessage)
      (called : Transfer.called state.ftpcs effects event = some ftpcs)
      (taken : Sender.step order.connected state.transport.client event = .ok (client, effects))
      (stepped : Transport.step order state.transport (.client event) =
        .ok ({ state.transport with client, frames }, effects.map .client)) :
      TransferMove order state (.client event)
        { state with ftpcs, transport := { state.transport with client, frames } }
        ((effects.map .client).map .transport)
  | server (event : ReceiverEvent) (server : Receiver) (effects : List ReceiverEffect)
      (ftps : Ftps) (acks : List TrollAck) (called : state.ftps.called event = some ftps)
      (taken : Receiver.step order.accepted state.transport.server event = .ok (server, effects))
      (stepped : Transport.step order state.transport (.server event) =
        .ok ({ state.transport with server, acks }, effects.map .server)) :
      TransferMove order state (.server event)
        { state with
          ftps
          transport := { state.transport with server, acks }
          inbox := state.inbox ++ effects.filterMap (ReceiverEffect.datagram? ftps.addr) }
        ((effects.map .server).map .transport)
  | read (datagram : List UInt8) (rest : List (List UInt8)) (waiting : state.ftps.waiting = true)
      (arrived : state.inbox = datagram :: rest) :
      TransferMove order state .read
        { state with ftps := (state.ftps.received datagram).1, inbox := rest }
        ((state.ftps.received datagram).2.map .ftps)

theorem step_move (taken : Transfer.step order state event = .ok (state', emitted)) :
    TransferMove order state event state' emitted := by
  cases event with
  | start sockfd fileName file =>
    simp only [Transfer.step] at taken
    split at taken
    · cases taken
    next fresh =>
      cases taken
      exact .start sockfd fileName file fresh
  | client event =>
    simp only [Transfer.step] at taken
    split at taken
    · cases taken
    next transport effects stepped =>
      split at taken
      · cases taken
      next ftpcs called =>
        cases taken
        have party := Transport.step_party stepped
        cases party with
        | client _ client effects delivers ran =>
          have own : (effects.map TransportEffect.client).filterMap Transport.clientEffect =
              effects := by
            simp [List.filterMap_map, Function.comp_def, Transport.clientEffect]
          rw [own] at called
          exact .client event client effects ftpcs _ called ran stepped
  | server event =>
    simp only [Transfer.step] at taken
    split at taken
    next ftps transport effects called stepped =>
      cases taken
      have party := Transport.step_party stepped
      cases party with
      | server _ server effects delivers ran =>
        have own : (effects.map TransportEffect.server).filterMap Transport.serverEffect =
            effects := by
          simp [List.filterMap_map, Function.comp_def, Transport.serverEffect]
        rw [own]
        exact .server event server effects ftps _ called ran stepped
    · cases taken
    · cases taken
  | read =>
    simp only [Transfer.step] at taken
    split at taken
    next datagram rest waiting arrived =>
      cases taken
      exact .read datagram rest waiting arrived
    · cases taken

theorem step_client (event : SenderEvent) {transport : Transport} {effects : List SenderEffect}
    {ftpcs : Table Int32 Ftpc}
    (stepped : Transport.step order state.transport (.client event) =
      .ok (transport, effects.map .client))
    (called : Transfer.called state.ftpcs effects event = some ftpcs) :
    Transfer.step order state (.client event) =
      .ok ({ state with ftpcs, transport }, (effects.map .client).map .transport) := by
  have own : (effects.map TransportEffect.client).filterMap Transport.clientEffect = effects := by
    simp [List.filterMap_map, Function.comp_def, Transport.clientEffect]
  simp only [Transfer.step, stepped, own, called]

theorem step_server (event : ReceiverEvent) {transport : Transport}
    {effects : List ReceiverEffect} {ftps : Ftps}
    (stepped : Transport.step order state.transport (.server event) =
      .ok (transport, effects.map .server))
    (called : state.ftps.called event = some ftps) :
    Transfer.step order state (.server event) =
      .ok ({ state with
          ftps
          transport
          inbox := state.inbox ++ effects.filterMap (ReceiverEffect.datagram? ftps.addr) },
        (effects.map .server).map .transport) := by
  have own : (effects.map TransportEffect.server).filterMap Transport.serverEffect = effects := by
    simp [List.filterMap_map, Function.comp_def, Transport.serverEffect]
  simp only [Transfer.step, stepped, own, called]

theorem run_transport (run : Machine.Run (Transfer.step order) (.initial addr sock) history state) :
    Machine.Run (Transport.step order) .initial (transportCalls history) state.transport := by
  apply run.component Transfer.transport
  intro _ _ _ _ taken
  cases step_move taken with
  | start | read => exact .inl ⟨rfl, rfl⟩
  | client event client effects ftpcs frames called ran stepped =>
    exact .inr ⟨_, _, by rw [transportCall, transportEffects_map], stepped⟩
  | server event server effects ftps acks called ran stepped =>
    exact .inr ⟨_, _, by rw [transportCall, transportEffects_map], stepped⟩

theorem clientCalls_client (event : SenderEvent) (effects : List SenderEffect) :
    clientCalls [(.client event, (effects.map .client).map .transport)] = [(event, effects)] := by
  simp only [clientCalls, transportCalls, transportCall, Transport.clientCalls,
    List.filterMap_cons, List.filterMap_nil, transportEffects_map, Transport.clientCall_client]

theorem clientCalls_server (event : ReceiverEvent) (emitted : List TransferEffect) :
    clientCalls [(.server event, emitted)] = [] := rfl

theorem serverCalls_client (event : SenderEvent) (emitted : List TransferEffect) :
    serverCalls [(.client event, emitted)] = [] := rfl

theorem serverCalls_server (event : ReceiverEvent) (effects : List ReceiverEffect) :
    serverCalls [(.server event, (effects.map .server).map .transport)] = [(event, effects)] := by
  simp only [serverCalls, transportCalls, transportCall, Transport.serverCalls,
    List.filterMap_cons, List.filterMap_nil, transportEffects_map, Transport.serverCall_server]

theorem ftpsEffects_transport (event : TransferEvent) (effects : List TransportEffect) :
    ftpsEffects [(event, effects.map .transport)] = [] := by
  simp [ftpsEffects, List.filterMap_map, Function.comp_def, ftpsEffect]

theorem ftpsEffects_read (event : TransferEvent) (effects : List FtpsEffect) :
    ftpsEffects [(event, effects.map .ftps)] = effects := by
  simp [ftpsEffects, List.filterMap_map, Function.comp_def, ftpsEffect]

end Parts

section Clients

@[simp] theorem returned_names (ftpc : Ftpc) (value : Int32) :
    (ftpc.returned value).fileName = ftpc.fileName ∧ (ftpc.returned value).file = ftpc.file := by
  unfold Ftpc.returned
  split
  · exact ⟨rfl, rfl⟩
  · split <;> exact ⟨rfl, rfl⟩

theorem returned_point (ftpc : Ftpc) (value : Int32) : (ftpc.returned value).point ≠ .connect := by
  have loop (fileLeft : UInt64) (position : Nat) : Ftpc.loop fileLeft position ≠ .connect := by
    unfold Ftpc.loop
    split <;> nofun
  unfold Ftpc.returned
  split
  · nofun
  · split
    · nofun
    · nofun
    · exact loop _ _
    · exact loop _ _
    next exited =>
      rw [exited]
      nofun

inductive ClientMove (ftpcs : Table Int32 Ftpc) : SenderEvent → Table Int32 Ftpc → Prop where
  | connect (front : SockAddr) (sockfd : Int32) (addr : SockAddr) (rand : UInt32) (ftpc : Ftpc)
      (value : Int32) (found : ftpcs.find sockfd = some ftpc) (connecting : ftpc.point = .connect) :
      ClientMove ftpcs (.connect front sockfd addr rand)
        (ftpcs.insert sockfd (ftpc.returned value))
  | send (front : SockAddr) (sockfd : Int32) (len : UInt64) (buf : Block bufLen)
      (malloc : TrollMessage) (ftpc : Ftpc) (value : Int32) (found : ftpcs.find sockfd = some ftpc)
      (sending : ftpc.message = some (buf.take len.toNat)) :
      ClientMove ftpcs (.send front sockfd len buf malloc)
        (ftpcs.insert sockfd (ftpc.returned value))
  | idle (event : SenderEvent) (noConnect : Sending.connected [event] = [])
      (noSend : ∀ sockfd, Sending.sends sockfd [event] = []) : ClientMove ftpcs event ftpcs

theorem called_move {order : IterOrder Int32} {state state' : Sender} {event : SenderEvent}
    {effects : List SenderEffect} {ftpcs ftpcs' : Table Int32 Ftpc}
    (taken : Sender.step order state event = .ok (state', effects))
    (called : Transfer.called ftpcs effects event = some ftpcs') : ClientMove ftpcs event ftpcs' := by
  cases event with
  | connect front sockfd addr rand =>
    simp only [Transfer.called] at called
    split at called
    next ftpc found =>
      split at called
      next connecting =>
        cases Sending.step_move taken with
        | connect =>
          cases called
          exact .connect front sockfd addr rand ftpc _ found connecting
      · cases called
    · cases called
  | send front sockfd len buf malloc =>
    simp only [Transfer.called] at called
    split at called
    next ftpc found =>
      split at called
      next data sending =>
        split at called
        next same =>
          rw [← same.2] at sending
          cases Sending.step_move taken with
          | send =>
            cases called
            exact .send front sockfd len buf malloc ftpc _ found sending
        · cases called
      · cases called
    · cases called
  | ack | expired | solveSend =>
    cases called
    exact .idle _ rfl fun _ => rfl

/-- The calls that the client's daemon has taken are those of the `ftpc` processes, each at its
point. -/
structure Served (events : List SenderEvent) (ftpcs : Table Int32 Ftpc) : Prop where
  once : (Sending.connected events).Nodup
  known : ∀ sockfd ∈ Sending.connected events,
    ∃ ftpc, ftpcs.find sockfd = some ftpc ∧ ftpc.point ≠ .connect
  unknown : ∀ sockfd, ftpcs.find sockfd = none → Sending.sends sockfd events = []
  follows : ∀ sockfd ftpc, ftpcs.find sockfd = some ftpc → ftpc.file.length < 2 ^ 64 →
    Follows (Sending.sends sockfd events) ftpc

variable {events : List SenderEvent} {ftpcs ftpcs' : Table Int32 Ftpc}

theorem served_start (served : Served events ftpcs) {sockfd : Int32} (fresh : ftpcs.find sockfd = none)
    (fileName file : List UInt8) :
    Served events (ftpcs.insert sockfd { fileName, file, point := .connect }) := by
  constructor
  · exact served.once
  · intro other member
    obtain ⟨ftpc, found, connected⟩ := served.known other member
    have different : other ≠ sockfd := by
      rintro rfl
      cases fresh.symm.trans found
    exact ⟨ftpc, by rwa [Table.find_insert_of_ne _ _ _ _ different], connected⟩
  · intro other absent
    apply served.unknown other
    rw [Table.find_insert_eq] at absent
    split at absent
    · cases absent
    · exact absent
  · intro other ftpc found small
    rcases Table.find_insert_some found with ⟨rfl, rfl⟩ | ⟨_, old⟩
    · rw [served.unknown other fresh]
      exact ⟨List.nil_prefix, fun _ => rfl, nofun⟩
    · exact served.follows other ftpc old small

theorem served_move (served : Served events ftpcs) {event : SenderEvent}
    (move : ClientMove ftpcs event ftpcs') : Served (events ++ [event]) ftpcs' := by
  cases move with
  | connect front sockfd addr rand ftpc value found connecting =>
    -- A program connects once, so nothing was sent on its socket before.
    have fresh : sockfd ∉ Sending.connected events := by
      intro member
      obtain ⟨other, found', connected⟩ := served.known sockfd member
      obtain rfl := Option.some.inj (found.symm.trans found')
      exact connected connecting
    have connected : Sending.connected (events ++ [.connect front sockfd addr rand]) =
        Sending.connected events ++ [sockfd] := Sending.connected_append _ _
    have sends (other : Int32) : Sending.sends other (events ++ [.connect front sockfd addr rand]) =
        Sending.sends other events := by
      rw [Sending.sends_append]
      exact List.append_nil _
    constructor
    · rw [connected]
      exact served.once.append (List.nodup_singleton sockfd) (by simpa using fresh)
    · intro other member
      rw [connected] at member
      by_cases same : other = sockfd
      · exact ⟨_, by rw [same, Table.find_insert], returned_point ftpc value⟩
      · rw [Table.find_insert_of_ne _ _ _ _ same]
        exact served.known other (by simpa [same] using member)
    · intro other absent
      rw [sends]
      apply served.unknown other
      rw [Table.find_insert_eq] at absent
      split at absent
      · cases absent
      · exact absent
    · intro other ftpc' found' small
      rw [sends]
      rcases Table.find_insert_some found' with ⟨rfl, rfl⟩ | ⟨_, old⟩
      · rw [(returned_names ftpc value).2] at small
        have follows := served.follows other ftpc found small
        have silent : Sending.sends other events = [] := by
          have whole := follows.next (by simp [connecting])
          rw [todo, connecting] at whole
          exact List.append_left_eq_self.mp whole
        rw [silent] at follows ⊢
        exact follows_connected follows connecting value
      · exact served.follows other ftpc' old small
  | send front sockfd len buf malloc ftpc value found sending =>
    have connected : Sending.connected (events ++ [.send front sockfd len buf malloc]) =
        Sending.connected events := by
      rw [Sending.connected_append]
      exact List.append_nil _
    have sends (other : Int32) :
        Sending.sends other (events ++ [.send front sockfd len buf malloc]) =
          Sending.sends other events ++ if sockfd = other then [buf.take len.toNat] else [] := by
      rw [Sending.sends_append]
      congr 1
      simp only [Sending.sends, List.filterMap_cons, List.filterMap_nil]
      split <;> simp_all
    constructor
    · rw [connected]
      exact served.once
    · intro other member
      rw [connected] at member
      by_cases same : other = sockfd
      · exact ⟨_, by rw [same, Table.find_insert], returned_point ftpc value⟩
      · rw [Table.find_insert_of_ne _ _ _ _ same]
        exact served.known other member
    · intro other absent
      rw [Table.find_insert_eq] at absent
      split at absent
      · cases absent
      next different =>
        rw [sends, if_neg (Ne.symm different), List.append_nil]
        exact served.unknown other absent
    · intro other ftpc' found' small
      -- The block goes to the end of what this program has sent.
      rcases Table.find_insert_some found' with ⟨rfl, rfl⟩ | ⟨different, old⟩
      · rw [(returned_names ftpc value).2] at small
        rw [sends, if_pos rfl]
        exact follows_sent small (served.follows other ftpc found small) sending value
      · rw [sends, if_neg (Ne.symm different), List.append_nil]
        exact served.follows other ftpc' old small
  | idle event noConnect noSend =>
    constructor
    · rw [Sending.connected_append, noConnect, List.append_nil]
      exact served.once
    · rw [Sending.connected_append, noConnect, List.append_nil]
      exact served.known
    · intro other absent
      rw [Sending.sends_append, noSend, List.append_nil]
      exact served.unknown other absent
    · intro other ftpc found small
      rw [Sending.sends_append, noSend, List.append_nil]
      exact served.follows other ftpc found small

theorem run_served (run : Machine.Run (Transfer.step order) (.initial addr sock) history state) :
    Served (Machine.events (clientCalls history)) state.ftpcs := by
  induction run with
  | start => exact ⟨.nil, nofun, fun _ _ => rfl, nofun⟩
  | next event state' emitted before taken ih =>
    rw [clientCalls_append, Machine.events_append]
    cases step_move taken with
    | start sockfd fileName file fresh =>
      rw [show clientCalls [(.start sockfd fileName file, [])] = [] from rfl, Machine.events_nil,
        List.append_nil]
      exact served_start ih fresh fileName file
    | client event client effects ftpcs frames called ran stepped =>
      rw [clientCalls_client]
      exact served_move ih (called_move ran called)
    | server event server effects ftps acks called ran stepped =>
      rw [clientCalls_server, Machine.events_nil, List.append_nil]
      exact ih
    | read datagram rest waiting arrived =>
      rw [show ∀ emitted, clientCalls [(.read, emitted)] = [] from fun _ => rfl, Machine.events_nil,
        List.append_nil]
      exact ih

theorem received_plan
    (run : Machine.Run (Transfer.step order) (.initial addr sock) history state) {sockfd : Int32}
    {ftpc : Ftpc} (found : state.ftpcs.find sockfd = some ftpc)
    (small : ftpc.file.length < 2 ^ 64) {session : UInt32}
    (unique : ∀ other,
      (other, session) ∈ Sending.opened (Machine.events (clientCalls history)) → other = sockfd) :
    Reception.Carries (plan ftpc.fileName ftpc.file)
      (Reception.received session (serverCalls history)) := by
  intro now arrived
  have served := run_served run
  have daemons := run_transport run
  obtain ⟨other, connected, present, own, _, fits, payload⟩ :=
    Transport.received_genuine daemons served.once arrived
  have named := Sending.run_opened (Transport.run_client daemons) present
  rw [own] at named
  obtain rfl := unique other named
  refine ⟨?_, fits⟩
  obtain ⟨rest, whole⟩ := (served.follows other ftpc found small).within
  obtain ⟨inside, _⟩ := List.getElem?_eq_some_iff.mp payload
  rw [← whole]
  exact (List.getElem?_append_left inside).trans payload

end Clients

end NetworkProj.Transfer
