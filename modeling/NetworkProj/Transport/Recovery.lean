import NetworkProj.Receiver.Acceptance
import NetworkProj.Sender.Progress
import NetworkProj.Timer.Recovery
import NetworkProj.Transport.Connections

set_option autoImplicit false

namespace NetworkProj.Network

variable {κ : Type} [DecidableEq κ] {order : TcpdOrder} {driver : κ → SockAddr} {client : κ}
  {state state' : Network κ} {event : NetworkEvent κ} {emitted : List (NetworkEffect κ)}
  {history : Machine.History (NetworkEvent κ) (NetworkEffect κ)}

def lost (state : Network κ) : Network κ :=
  { state with frames := [], acks := [] }

/-- What happens in a recovery: no front call, and nothing at the other clients. -/
def Recovers (client : κ) : NetworkEvent κ → Prop
  | .client other event => other = client ∧ Timer.Uncalled event
  | .server _ (.data ..) => True
  | .server _ (.bind ..) | .server _ (.accept ..) | .server _ (.recv ..) | .server _ .solveAccept
  | .server _ .solveRecv => False

/-- An ack comes in on the socket of its session. -/
def OwnSocket (client : κ) (state : Network κ) : NetworkEvent κ → Prop
  | .client other event => other = client → (state.clients client).Delivers event
  | .server _ _ => True

section Clients

theorem act_delivered {order : IterOrder Int32} {driver : SockAddr} {state : TimedSender}
    {event : TimedEvent} (delivers : state.Delivers event) :
    TimedSender.step order driver state event = TimedSender.act order driver state event := by
  unfold TimedSender.step
  rw [if_pos delivers]
  rfl

omit [DecidableEq κ] in
theorem opening_sender (client : κ) (event : TimedEvent) (emitted : List TimedEffect) :
    ((opening client event).toList.map fun connection => (connection.sockfd, connection.session)) =
      Sending.opened (Machine.events (Timer.senderCalls [(event, emitted)])) := by
  cases event with
  | timer => rfl
  | sender event => cases event <;> rfl

omit [DecidableEq κ] in
theorem opening_client {client : κ} {event : TimedEvent} {connection : Connection κ}
    (member : connection ∈ (opening client event).toList) : connection.client = client := by
  cases event with
  | timer => cases member
  | sender event =>
    cases event with
    | connect => rw [List.mem_singleton.mp member]
    | send | ack | expired | solveSend => cases member

def opened (client : κ) (connections : List (Connection κ)) : List (Int32 × UInt32) :=
  (connections.filter fun connection => connection.client = client).map fun connection =>
    (connection.sockfd, connection.session)

theorem opened_acted (state : Network κ) (client other : κ) (event : TimedEvent) (next : TimedSender)
    (emitted : List TimedEffect) :
    opened client (state.acted other event next emitted).connections =
      opened client state.connections ++
        if other = client then Sending.opened (Machine.events (Timer.senderCalls [(event, emitted)]))
        else [] := by
  change opened client (state.connections ++ (opening other event).toList) = _
  rw [opened, List.filter_append, List.map_append, ← opening_sender other]
  congr 1
  split
  next same =>
    rw [List.filter_eq_self.mpr]
    intro connection member
    simpa [opening_client member] using same
  next different =>
    rw [List.filter_eq_nil_iff.mpr, List.map_nil]
    intro connection member
    simpa [opening_client member] using different

theorem step_client {other : κ} {event : TimedEvent}
    (taken : Network.step order driver state (.client other event) = .ok (state', emitted)) :
    ∃ next acted, TimedSender.act order.connected (driver other) (state.clients other) event =
        .ok (next, acted) ∧ state' = state.acted other event next acted := by
  unfold Network.step at taken
  split at taken
  · dsimp only at taken
    split at taken
    · cases taken
    next next acted stepped =>
      cases taken
      exact ⟨next, acted, stepped, rfl⟩
  · cases taken

theorem run_timed (run : Machine.Run (Network.step order driver) (.initial κ) history state)
    (own : Machine.Guarded (Network.step order driver) (.initial κ) (OwnSocket client) history) :
    ∃ calls, Machine.Run (TimedSender.step order.connected (driver client)) .initial calls
        (state.clients client) ∧
      Sending.opened (Machine.events (Timer.senderCalls calls)) = opened client state.connections := by
  induction run with
  | start => exact ⟨[], .start, rfl⟩
  | next event state' emitted before taken ih =>
    obtain ⟨calls, ran, same⟩ := ih own.before
    cases event with
    | client other event =>
      obtain ⟨next, acted, stepped, rfl⟩ := step_client taken
      rw [opened_acted]
      by_cases mine : other = client
      next =>
        subst mine
        have delivers := own.last before rfl
        refine ⟨calls ++ [(event, acted)], ?_, ?_⟩
        · rw [acted_self]
          exact ran.next event next acted ((act_delivered delivers).trans stepped)
        · rw [if_pos rfl, ← same, Timer.senderCalls_append, Machine.events_append,
            Sending.opened_append]
      next =>
        rw [acted_other _ (Ne.symm mine), if_neg mine, List.append_nil]
        exact ⟨calls, ran, same⟩
    | server origin event =>
      cases step_network taken
      exact ⟨calls, ran, same⟩

theorem run_sound (run : Machine.Run (Network.step order driver) (.initial κ) history state)
    (own : Machine.Guarded (Network.step order driver) (.initial κ) (OwnSocket client) history)
    (once : ((opened client state.connections).map Prod.fst).Nodup)
    (distinct : ((opened client state.connections).map Prod.snd).Nodup) :
    Timer.Sound order.connected (driver client) (state.clients client) := by
  obtain ⟨calls, ran, same⟩ := run_timed run own
  refine ⟨calls, ran, ?_, ?_⟩
  · rwa [← Sending.opened_sockets, same]
  · rwa [Sending.sessions, same]

end Clients

section Accounts

/-- The package is still held, or the server has acked it. -/
def Accounted (client : κ) (now : TrollMessage) (state : Network κ) : Prop :=
  (∃ sockfd sock, (state.clients client).sender.connectedSockets.find sockfd = some sock ∧
      now ∈ Sending.unacked sock) ∨
    ∃ ack ∈ state.acks, ack.session = now.session ∧ ack.seqNum = now.seqNum

-- A package leaves its record only for an ack.
theorem unacked_step {order : IterOrder Int32} {sender sender' : Sender} {event : SenderEvent}
    {emitted : List SenderEffect} (uncalled : Timer.Uncalled (.sender event))
    (move : Sending.SenderMove order sender event sender' emitted) {sockfd : Int32}
    {sock : ConnectedSocket} (found : sender.connectedSockets.find sockfd = some sock)
    {now : TrollMessage} (member : now ∈ Sending.unacked sock) :
    (∃ sock', sender'.connectedSockets.find sockfd = some sock' ∧ now ∈ Sending.unacked sock') ∨
      ∃ other ack clock, event = .ack other ack clock ∧ ack.Intact ∧
        now.session = ack.session ∧ now.seqNum = ack.seqNum := by
  cases move with
  | connect | send => exact absurd uncalled id
  | garbled | unmatched | stale => exact .inl ⟨sock, found, member⟩
  | acked other ack clock estimator old before message after intact present split session seqNum =>
    by_cases same : sockfd = other
    next =>
      subst same
      obtain rfl := Option.some.inj (found.symm.trans present)
      have perm : (Sending.unacked sock).Perm
          (message :: (before ++ after ++ sock.pendingPackages)) := by
        rw [Sending.unacked, split, List.append_assoc, List.append_assoc]
        exact List.perm_middle
      rcases List.mem_cons.mp (perm.mem_iff.mp member) with rfl | kept
      · exact .inr ⟨_, ack, clock, rfl, intact, session, seqNum⟩
      · exact .inl ⟨_, Table.find_insert _ _ _, kept⟩
    next => exact .inl ⟨sock, (Table.find_insert_of_ne _ _ _ _ same).trans found, member⟩
  | expire expired other old before message after present _ split =>
    by_cases same : sockfd = other
    next =>
      subst same
      obtain rfl := Option.some.inj (found.symm.trans present)
      have perm := Sending.unacked_expire split
      exact .inl ⟨_, Table.find_insert _ _ _, perm.mem_iff.mpr member⟩
    next => exact .inl ⟨sock, (Table.find_insert_of_ne _ _ _ _ same).trans found, member⟩
  | solve clock sender' effects ran =>
    refine .inl ⟨Sending.transmitted sock, ?_, (Sending.unacked_transmitted sock).mem_iff.mpr member⟩
    rw [Sending.solveSend_find ran, found, Option.map_some]

theorem accounted_step {now : TrollMessage} (recovers : Recovers client event)
    (accounted : Accounted client now state)
    (taken : Network.step order driver state event = .ok (state', emitted)) :
    Accounted client now state' := by
  cases step_network taken with
  | sender other event sender emitted delivers stepped =>
    obtain ⟨rfl, uncalled⟩ := recovers
    rcases accounted with ⟨sockfd, sock, found, member⟩ | acked
    · rcases unacked_step uncalled (Sending.step_move stepped) found member with
        ⟨sock', found', member'⟩ | ⟨sockfd', ack, clock, rfl, intact, session, seqNum⟩
      · refine .inl ⟨sockfd, sock', ?_, member'⟩
        rw [acted_self]
        exact found'
      · obtain ⟨sent, inside, names⟩ := delivers intact
        exact .inr ⟨sent, inside, names.1.symm.trans session.symm, names.2.symm.trans seqNum.symm⟩
    · exact .inr acked
  | timer other =>
    obtain ⟨rfl, _⟩ := recovers
    refine accounted.imp ?_ id
    rintro ⟨sockfd, sock, found, member⟩
    refine ⟨sockfd, sock, ?_, member⟩
    rw [acted_self]
    exact found
  | server =>
    refine accounted.imp id ?_
    rintro ⟨ack, inside, names⟩
    exact ⟨ack, List.mem_append_left _ inside, names⟩

end Accounts

section Rounds

/-- No package waits for the window, and the network still has all that is in flight. -/
structure Flying (order : TcpdOrder) (driver : κ → SockAddr) (client : κ) (state : Network κ) :
    Prop where
  sound : Timer.Sound order.connected (driver client) (state.clients client)
  bound : state.server.bindedSockets ≠ []
  sent : ∀ sockfd sock, (state.clients client).sender.connectedSockets.find sockfd = some sock →
    sock.pendingPackages = [] ∧ ∀ now ∈ sock.packages, ∃ origin, (origin, now) ∈ state.frames

theorem held_none {sender : Sender}
    (none : ∀ sockfd sock, sender.connectedSockets.find sockfd = some sock →
      sock.packages = [] ∧ sock.pendingPackages = []) : Sending.held sender = 0 := by
  apply Table.total_eq_zero
  intro sockfd sock found
  obtain ⟨packages, pending⟩ := none sockfd sock found
  simp [packages, pending]

theorem none_held {sender : Sender} (zero : Sending.held sender = 0) {sockfd : Int32}
    {sock : ConnectedSocket} (found : sender.connectedSockets.find sockfd = some sock) :
    sock.packages = [] ∧ sock.pendingPackages = [] := by
  have weight := Table.weight_le_total
    (fun sock : ConnectedSocket => sock.packages.length + sock.pendingPackages.length) found
  unfold Sending.held at zero
  exact ⟨List.eq_nil_of_length_eq_zero (by omega), List.eq_nil_of_length_eq_zero (by omega)⟩

theorem acked_once {order : IterOrder Int32} {sender : Sender} {sockfd : Int32}
    {sock : ConnectedSocket} (found : sender.connectedSockets.find sockfd = some sock)
    {now : TrollMessage} (member : now ∈ sock.packages) {ack : TrollAck} (intact : ack.Intact)
    (session : ack.session = now.session) (seqNum : ack.seqNum = now.seqNum) :
    ∃ sender' emitted packages, Sender.step order sender (.ack sockfd ack default) =
        .ok (sender', emitted) ∧ packages ⊆ sock.packages ∧
      sender'.connectedSockets = sender.connectedSockets.insert sockfd { sock with packages } ∧
      sender'.inBufferPackages = sender.inBufferPackages - 1 := by
  rw [Sending.step_ack sockfd found intact default]
  rcases Sending.named_cases ack.session ack.seqNum sock.packages with
    ⟨_, absent⟩ | ⟨before, message, after, split, some, erased, _, _⟩
  · exact absurd ⟨session.symm, seqNum.symm⟩ (absent now member)
  · refine ⟨_, _, before ++ after, rfl, ?_, ?_, ?_⟩
    · intro tmp kept
      rw [split]
      exact List.mem_append.mpr ((List.mem_append.mp kept).imp id (List.mem_cons_of_mem _))
    · simp only [some, erased]
    · simp only [some]

-- One package is delivered and its ack comes back.
theorem round_trip (flying : Flying order driver client state)
    (left : Sending.held (state.clients client).sender ≠ 0) :
    ∃ state', Machine.Reaches (Network.step order driver) (Recovers client) state state' ∧
      Flying order driver client state' ∧
      Sending.held (state'.clients client).sender < Sending.held (state.clients client).sender := by
  obtain ⟨sound, bound, sent⟩ := flying
  obtain ⟨sockfd, sock, found, now, member⟩ : ∃ sockfd sock,
      (state.clients client).sender.connectedSockets.find sockfd = some sock ∧
        ∃ now, now ∈ sock.packages := by
    by_contra none
    push Not at none
    apply left
    apply held_none
    intro sockfd sock found
    exact ⟨List.eq_nil_iff_forall_not_mem.mpr (none sockfd sock found), (sent sockfd sock found).1⟩
  have unacked : now ∈ Sending.unacked sock := List.mem_append_left _ member
  obtain ⟨session, _⟩ := sound.orderly.own sockfd sock found now unacked
  -- The server gets the frame on a bound socket.
  obtain ⟨origin, frame⟩ := (sent sockfd sock found).2 now member
  obtain ⟨tmp, rest, shape⟩ := List.exists_cons_of_ne_nil bound
  have delivered : state.Delivers (.server origin (.data tmp.socketFD now default default)) :=
    fun _ => ⟨(origin, now), frame, rfl, rfl⟩
  have arrived := @Reception.step_data order.accepted state.server tmp.socketFD now (by simp [shape])
    (sound.intact found unacked) default default
  have stored := @step_server κ _ order driver state origin _ _ _ delivered arrived
  -- The ack comes in on the socket of its session.
  obtain ⟨sender, emitted, packages, taken, inside, sockets, fewer⟩ :=
    @acked_once order.connected _ sockfd sock found now member (ackOf now default)
      (TrollAck.sealed_intact _) rfl rfl
  have own : (state.clients client).Delivers (.sender (.ack sockfd (ackOf now default) default)) :=
    fun _ other _ old present same =>
      sound.orderly.unique other sockfd old sock present found (same.trans session)
  have timed : TimedSender.step order.connected (driver client) (state.clients client) _ = .ok _ :=
    Timer.step_sender _ own taken
  have counted := sound.counted
  have sound := sound.next (show Timer.Uncalled (.sender (.ack sockfd _ default)) from trivial) timed
  have counted' := sound.counted
  have acked := @step_sender κ _ order driver
    { state with
      server := storeData state.server tmp.socketFD now default
      acks := state.acks ++ [ackOf now default] } client
    (.ack sockfd (ackOf now default) default) sender emitted
    (fun _ => ⟨ackOf now default, by simp, rfl, rfl⟩) taken
  refine ⟨_, (Machine.Reaches.single stored trivial).trans (.single acked ⟨rfl, trivial⟩), ⟨?_, ?_, ?_⟩, ?_⟩
  · rw [acted_self]
    exact sound
  · change (storeData state.server tmp.socketFD now default).bindedSockets ≠ []
    rwa [Reception.storeData_sockets]
  · rw [acted_self]
    intro other old present
    have kept (now : TrollMessage) (frame : ∃ origin, (origin, now) ∈ state.frames) :
        ∃ origin, (origin, now) ∈ state.frames ++
          (emitted.map TimedEffect.sender).filterMap (originated (state.current client)) :=
      frame.imp fun _ => List.mem_append_left _
    rw [sockets] at present
    rcases Table.find_insert_some present with ⟨rfl, rfl⟩ | ⟨_, elsewhere⟩
    · obtain ⟨pending, frames⟩ := sent other sock found
      exact ⟨pending, fun now member => kept now (frames now (inside member))⟩
    · obtain ⟨pending, frames⟩ := sent other old elsewhere
      exact ⟨pending, fun now member => kept now (frames now member)⟩
  · rw [acted_self]
    dsimp only at counted' ⊢
    omega

-- With nothing in flight, `SolveSendCallback` sends everything whose number is below `farthest`.
theorem sends_all (sound : Timer.Sound order.connected (driver client) (state.clients client))
    (bound : state.server.bindedSockets ≠ [])
    (idle : ∀ sockfd sock, (state.clients client).sender.connectedSockets.find sockfd = some sock →
      sock.packages = [])
    (few : ∀ sockfd sock, (state.clients client).sender.connectedSockets.find sockfd = some sock →
      sock.base.toNat ≤ Sending.farthest) :
    ∃ state', Machine.Reaches (Network.step order driver) (Recovers client) state state' ∧
      Flying order driver client state' := by
  obtain ⟨sender, emitted, ran⟩ :=
    Sending.solveSend_total order.connected (state.clients client).sender fun _ => default
  have taken : Sender.step order.connected (state.clients client).sender (.solveSend _) = .ok _ := ran
  have timed : TimedSender.step order.connected (driver client) (state.clients client) _ = .ok _ :=
    Timer.step_sender (.solveSend fun _ => default) trivial taken
  have stepped := @step_sender κ _ order driver state client (.solveSend fun _ => default) _ _ trivial
    taken
  refine ⟨_, .single stepped ⟨rfl, trivial⟩, ⟨?_, bound, ?_⟩⟩
  · rw [acted_self]
    exact sound.next (show Timer.Uncalled (.sender (.solveSend _)) from trivial) timed
  · rw [acted_self]
    intro sockfd sock' found'
    rw [Sending.solveSend_find ran] at found'
    obtain ⟨sock, found, rfl⟩ := Option.map_eq_some_iff.mp found'
    have packages := idle sockfd sock found
    constructor
    · rw [List.eq_nil_iff_forall_not_mem]
      intro now held
      obtain ⟨pending, beyond⟩ := Sending.mem_withholds.mp held
      have below := (sound.orderly.own sockfd sock found now (List.mem_append_right _ pending)).2
      rw [UInt32.lt_iff_toNat_lt] at below
      have bounded := few sockfd sock found
      rw [Sending.limitOf_idle packages] at beyond
      omega
    · intro now flying
      have sent : now ∈ Sending.transmits sock := by
        change now ∈ sock.packages ++ Sending.transmits sock at flying
        rwa [packages, List.nil_append] at flying
      have data := Sending.solveSend_data ran (fun _ _ found => sound.keyed found) sockfd
      rw [found, Option.map_some, Option.getD_some] at data
      rw [← data] at sent
      obtain ⟨effect, inside, own⟩ := List.mem_filterMap.mp sent
      have shape : effect = .data sockfd now := by
        cases effect with
        | data other message => simpa [Sending.dataOn] using own
        | connectReturn | sendReturn | timer | free => cases own
      refine ⟨(state.current client) sockfd, List.mem_append_right _ ?_⟩
      exact mem_originated.mpr ⟨sockfd, shape ▸ inside, rfl⟩

-- What a daemon does without its network, it does in the network.
theorem alone_recovers {next : TimedSender}
    (reaches : Machine.Reaches (TimedSender.step order.connected (driver client)) Timer.Alone
      (state.clients client) next) :
    ∃ state', Machine.Reaches (Network.step order driver) (Recovers client) state state' ∧
      state'.clients client = next := by
  refine Machine.Reaches.lift (fun state : Network κ => state.clients client) ?_ reaches
  intro state event next emitted alone taken
  have delivers : (state.clients client).Delivers event := by
    by_contra blocked
    unfold TimedSender.step at taken
    rw [if_neg blocked] at taken
    cases taken
  rw [act_delivered delivers] at taken
  have delivers' : state.Delivers (.client client event) := by
    cases event with
    | timer elapsedSeconds ready => cases ready <;> exact delivers
    | sender event => cases event <;> first | exact delivers | exact absurd alone id
  have stepped : Network.step order driver state (.client client event) =
      .ok (state.acted client event next emitted, emitted.map (.client client)) := by
    simp [Network.step, delivers', taken]
  exact ⟨_, .single stepped ⟨rfl, alone.uncalled⟩, acted_self state client event next emitted⟩

end Rounds

section Recovery

/-- The client holds nothing any more, and the server has acked all that it held before. -/
structure Drained (client : κ) (before state : Network κ) : Prop where
  empty : ∀ sockfd sock, (state.clients client).sender.connectedSockets.find sockfd = some sock →
    sock.packages = [] ∧ sock.pendingPackages = []
  counted : (state.clients client).sender.inBufferPackages = 0
  acked : ∀ sockfd sock, (before.clients client).sender.connectedSockets.find sockfd = some sock →
    ∀ now ∈ Sending.unacked sock, ∃ ack ∈ state.acks,
      ack.session = now.session ∧ ack.seqNum = now.seqNum

theorem bases_kept (recovers : Recovers client event)
    (taken : Network.step order driver state event = .ok (state', emitted)) (sockfd : Int32) :
    ((state'.clients client).sender.connectedSockets.find sockfd).map ConnectedSocket.base =
      ((state.clients client).sender.connectedSockets.find sockfd).map ConnectedSocket.base := by
  cases step_network taken with
  | sender other event sender emitted delivers stepped =>
    obtain ⟨rfl, uncalled⟩ := recovers
    rw [acted_self]
    exact Timer.step_base uncalled (Sending.step_move stepped) sockfd
  | timer other =>
    obtain ⟨rfl, _⟩ := recovers
    rw [acted_self]
  | server => rfl

theorem bound_kept (recovers : Recovers client event)
    (taken : Network.step order driver state event = .ok (state', emitted))
    (bound : state.server.bindedSockets ≠ []) : state'.server.bindedSockets ≠ [] := by
  cases step_network taken with
  | sender | timer => exact bound
  | server origin event server emitted delivers stepped =>
    cases event with
    | data sockfd message remoteTroll malloc =>
      simp only [Receiver.step, recvData] at stepped
      split at stepped
      · split at stepped
        · cases stepped
          change (storeData state.server sockfd message malloc).bindedSockets ≠ []
          rwa [Reception.storeData_sockets]
        · cases stepped
          exact bound
      · cases stepped
    | bind | accept | recv | solveAccept | solveRecv => exact absurd recovers id

-- A daemon that opened no socket twice does not do so in a recovery.
theorem once_kept (recovers : Recovers client event)
    (taken : Network.step order driver state event = .ok (state', emitted))
    (once : ∃ calls, Machine.Run (Sender.step order.connected) .initial calls
        (state.clients client).sender ∧ (Sending.connected (Machine.events calls)).Nodup) :
    ∃ calls, Machine.Run (Sender.step order.connected) .initial calls
      (state'.clients client).sender ∧ (Sending.connected (Machine.events calls)).Nodup := by
  obtain ⟨calls, ran, nodup⟩ := once
  cases step_network taken with
  | sender other event sender emitted delivers stepped =>
    obtain ⟨rfl, uncalled⟩ := recovers
    rw [acted_self]
    refine ⟨_, ran.next event sender emitted stepped, ?_⟩
    have none : Sending.connected [event] = [] := by
      cases event <;> first | rfl | exact absurd uncalled id
    rw [Machine.events_append, Sending.connected_append]
    simpa [none] using nodup
  | timer other =>
    obtain ⟨rfl, _⟩ := recovers
    rw [acted_self]
    exact ⟨calls, ran, nodup⟩
  | server => exact ⟨calls, ran, nodup⟩

theorem drains (sound : Timer.Sound order.connected (driver client) (state.clients client))
    (bound : state.server.bindedSockets ≠ [])
    (few : ∀ sockfd sock, (state.clients client).sender.connectedSockets.find sockfd = some sock →
      sock.base.toNat ≤ Sending.farthest) :
    ∃ state', Machine.Reaches (Network.step order driver) (Recovers client) state state' ∧
      Drained client state state' := by
  -- First what is in flight comes back.
  obtain ⟨next, alone, sound', idle⟩ := Timer.all_return sound
  obtain ⟨back, toBack, rfl⟩ := alone_recovers alone
  have bound' := toBack.invariant (fun state => state.server.bindedSockets ≠ [])
    (fun _ _ _ _ recovers bound taken => bound_kept recovers taken bound) bound
  have bases := toBack.invariant
    (fun now => ∀ sockfd,
      ((now.clients client).sender.connectedSockets.find sockfd).map ConnectedSocket.base =
        ((state.clients client).sender.connectedSockets.find sockfd).map ConnectedSocket.base)
    (fun _ _ _ _ recovers same taken sockfd => (bases_kept recovers taken sockfd).trans (same sockfd))
    fun _ => rfl
  have few' (sockfd : Int32) (sock : ConnectedSocket)
      (found : (back.clients client).sender.connectedSockets.find sockfd = some sock) :
      sock.base.toNat ≤ Sending.farthest := by
    have same := bases sockfd
    rw [found, Option.map_some] at same
    obtain ⟨old, present, equal⟩ := Option.map_eq_some_iff.mp same.symm
    exact equal ▸ few sockfd old present
  -- Then all of it goes out, and each package makes its round trip.
  obtain ⟨out, toOut, flying⟩ := sends_all sound' bound' idle few'
  obtain ⟨last, toLast, flying', zero⟩ := Machine.Reaches.descend
    (Flying order driver client) (fun state => Sending.held (state.clients client).sender)
    (fun _ => round_trip) flying
  have reaches := toBack.trans (toOut.trans toLast)
  refine ⟨last, reaches, fun sockfd sock found => none_held zero found, ?_, ?_⟩
  · rw [flying'.sound.counted, zero]
    rfl
  · intro sockfd sock found now member
    have accounted := reaches.invariant (Accounted client now)
      (fun _ _ _ _ recovers accounted taken => accounted_step recovers accounted taken)
      (.inl ⟨sockfd, sock, found, member⟩)
    rcases accounted with ⟨other, old, present, inside⟩ | acked
    · obtain ⟨packages, pending⟩ := none_held zero present
      simp [Sending.unacked, packages, pending] at inside
    · exact acked

theorem few_of_drained {calls : Machine.History SenderEvent SenderEffect}
    (ran : Machine.Run (Sender.step order.connected) .initial calls (state.clients client).sender)
    (once : (Sending.connected (Machine.events calls)).Nodup)
    (reaches : Machine.Reaches (Network.step order driver) (Recovers client) state state')
    (drained : Drained client state state') {sockfd : Int32} {sock : ConnectedSocket}
    (found : (state.clients client).sender.connectedSockets.find sockfd = some sock) :
    sock.base.toNat ≤ Sending.farthest := by
  obtain ⟨later, ran', once'⟩ := reaches.invariant
    (fun state => ∃ calls, Machine.Run (Sender.step order.connected) .initial calls
      (state.clients client).sender ∧ (Sending.connected (Machine.events calls)).Nodup)
    (fun _ _ _ _ recovers once taken => once_kept recovers taken once) ⟨calls, ran, once⟩
  have same := reaches.invariant
    (fun now =>
      ((now.clients client).sender.connectedSockets.find sockfd).map ConnectedSocket.base =
        ((state.clients client).sender.connectedSockets.find sockfd).map ConnectedSocket.base)
    (fun _ _ _ _ recovers same taken => (bases_kept recovers taken sockfd).trans same) rfl
  rw [found, Option.map_some] at same
  obtain ⟨last, present, equal⟩ := Option.map_eq_some_iff.mp same
  have bounded := Sending.base_bounded
    ((Sending.run_books ran' once').booked sockfd last present)
  rw [(drained.empty sockfd last present).2] at bounded
  rw [← equal]
  exact bounded

/-- Even when everything under way is lost, the two daemons and the timer can empty a client without
any further call, and the server acks all that it held: exactly as long as no socket of the client
has had more SENDs than the initial value of `MinSeq` lets through. -/
theorem recovers_iff (run : Machine.Run (Network.step order driver) (.initial κ) history state)
    (own : Machine.Guarded (Network.step order driver) (.initial κ) (OwnSocket client) history)
    (once : ((opened client state.connections).map Prod.fst).Nodup)
    (distinct : ((opened client state.connections).map Prod.snd).Nodup)
    (bound : state.server.bindedSockets ≠ []) :
    (∃ state', Machine.Reaches (Network.step order driver) (Recovers client) state.lost state' ∧
        Drained client state state') ↔
      ∀ sockfd sock, (state.clients client).sender.connectedSockets.find sockfd = some sock →
        sock.base.toNat ≤ Sending.farthest := by
  have sound := run_sound run own once distinct
  constructor
  · rintro ⟨state', reaches, drained⟩ sockfd sock found
    obtain ⟨calls, ran, nodup, _⟩ := sound
    exact @few_of_drained κ _ order driver client state.lost state' _ (Timer.run_sender ran) nodup
      reaches ⟨drained.empty, drained.counted, drained.acked⟩ sockfd sock found
  · intro few
    obtain ⟨state', reaches, drained⟩ :=
      @drains κ _ order driver client state.lost sound bound few
    exact ⟨state', reaches, drained.empty, drained.counted, drained.acked⟩

-- The one package in flight is lost, comes back and gets through.
theorem recovers_iff_example : ∃ (history : Machine.History (NetworkEvent Unit) (NetworkEffect Unit))
    (state : Network Unit),
    Machine.Run (Network.step ⟨.insertion UInt32, .insertion Int32⟩ fun _ => default)
        (.initial Unit) history state ∧
      state.frames.length = 1 ∧ (state.clients ()).sender.inBufferPackages = 1 ∧
      ∃ state', Machine.Reaches (Network.step ⟨.insertion UInt32, .insertion Int32⟩ fun _ => default)
          (Recovers ()) state.lost state' ∧ Drained () state state' := by
  have fresh : Machine.Run (Network.step ⟨.insertion UInt32, .insertion Int32⟩ fun _ => default)
    (.initial Unit) [] (.initial Unit) := .start
  have bound := fresh.next _ _ _ (step_server 0 (.bind default 3 true) trivial rfl)
  have connected := bound.next _ _ _ (step_sender () (.connect default 5 default 7) trivial rfl)
  have sent := connected.next _ _ _
    (step_sender () (.send default 5 1 (.pad bufLen [1]) default) trivial rfl)
  have flying := sent.next _ _ _ (step_sender () (.solveSend fun _ => default) trivial rfl)
  obtain ⟨history, state, run, own, frames, counted, connections, sockets, base⟩ :
      ∃ (history : Machine.History (NetworkEvent Unit) (NetworkEffect Unit)) (state : Network Unit),
        Machine.Run (Network.step ⟨.insertion UInt32, .insertion Int32⟩ fun _ => default)
          (.initial Unit) history state ∧
        Machine.Guarded (Network.step ⟨.insertion UInt32, .insertion Int32⟩ fun _ => default)
          (.initial Unit) (OwnSocket ()) history ∧
        state.frames.length = 1 ∧ (state.clients ()).sender.inBufferPackages = 1 ∧
        opened () state.connections = [(5, 7)] ∧ state.server.bindedSockets ≠ [] ∧
        ((state.clients ()).sender.connectedSockets.find 5).map ConnectedSocket.base = some 1 :=
    ⟨_, _, flying, .next (.next (.next (.next (.start _ _ _) fresh trivial) bound fun _ => trivial)
      connected fun _ => trivial) sent fun _ => trivial, rfl, rfl, rfl, List.cons_ne_nil _ _, rfl⟩
  have recovers := recovers_iff run own (by rw [connections]; decide) (by rw [connections]; decide)
    sockets
  refine ⟨history, state, run, frames, counted, recovers.mpr ?_⟩
  intro sockfd sock found
  obtain ⟨_, ran, opened⟩ := run_timed run own
  have known := Sending.run_opened (Timer.run_sender ran) found
  rw [opened, connections] at known
  obtain ⟨rfl, _⟩ := Prod.mk.inj (List.mem_singleton.mp known)
  rw [found] at base
  rw [show sock.base = 1 from Option.some.inj base]
  decide

end Recovery

end NetworkProj.Network
