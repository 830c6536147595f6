import NetworkProj.Model.Network
import NetworkProj.Sender.Window
import NetworkProj.Timer.Timeouts
import NetworkProj.Transport.Custody

set_option autoImplicit false

namespace NetworkProj.Network

section Records

variable {κ : Type} {client : κ} {current : Int32 → Nat} {connections : List (Connection κ)}
  {sends : List (Nat × List UInt8)} {sockets : Table Int32 ConnectedSocket}

/-- The record of a socket belongs to its connection and owns only what was sent on that. -/
def Recorded (client : κ) (current : Int32 → Nat) (connections : List (Connection κ))
    (sends : List (Nat × List UInt8)) (sockets : Table Int32 ConnectedSocket) : Prop :=
  ∀ sockfd sock, sockets.find sockfd = some sock →
    connections[current sockfd]? = some ⟨client, sockfd, sock.session⟩ ∧
      ∀ now ∈ Sending.unacked sock, (current sockfd, now.payload) ∈ sends

theorem getElem?_more {connections more : List (Connection κ)} {origin : Nat}
    {connection : Connection κ} (found : connections[origin]? = some connection) :
    (connections ++ more)[origin]? = some connection := by
  rw [List.getElem?_append_left (List.getElem?_eq_some_iff.mp found).1, found]

theorem Recorded.more (recorded : Recorded client current connections sends sockets)
    (later : List (Connection κ)) (added : List (Nat × List UInt8)) :
    Recorded client current (connections ++ later) (sends ++ added) sockets := by
  intro sockfd sock found
  obtain ⟨own, supplied⟩ := recorded sockfd sock found
  exact ⟨getElem?_more own, fun now member => List.mem_append_left _ (supplied now member)⟩

theorem Recorded.insert (recorded : Recorded client current connections sends sockets)
    {sockfd : Int32} {sock sock' : ConnectedSocket} (found : sockets.find sockfd = some sock)
    (session : sock'.session = sock.session)
    (supplied : ∀ now ∈ Sending.unacked sock', (current sockfd, now.payload) ∈ sends) :
    Recorded client current connections sends (sockets.insert sockfd sock') := by
  intro other now present
  rcases Table.find_insert_some present with ⟨rfl, rfl⟩ | ⟨_, elsewhere⟩
  · rw [session]
    exact ⟨(recorded other sock found).1, supplied⟩
  · exact recorded other now elsewhere

theorem recorded_connect (recorded : Recorded client current connections sends sockets)
    (sockfd : Int32) (addr : SockAddr) (rand : UInt32) :
    Recorded client (Function.update current sockfd connections.length)
      (connections ++ [⟨client, sockfd, rand⟩]) sends
      (sockets.insert sockfd (newSock sockfd addr rand)) := by
  intro other now present
  rcases Table.find_insert_some present with ⟨rfl, rfl⟩ | ⟨apart, elsewhere⟩
  · rw [Function.update_self]
    refine ⟨?_, by simp [Sending.unacked, newSock]⟩
    rw [List.getElem?_append_right (Nat.le_refl _), Nat.sub_self]
    rfl
  · rw [Function.update_of_ne apart]
    obtain ⟨own, supplied⟩ := recorded other now elsewhere
    exact ⟨getElem?_more own, supplied⟩

theorem recorded_step {order : IterOrder Int32} {state state' : Sender} {event : SenderEvent}
    {emitted : List SenderEffect}
    (recorded : Recorded client current connections sends state.connectedSockets)
    (move : Sending.SenderMove order state event state' emitted)
    (old : ∀ front sockfd addr rand, event ≠ .connect front sockfd addr rand) :
    Recorded client current connections (sends ++ (supply current (.sender event)).toList)
      state'.connectedSockets := by
  have later := recorded.more [] (supply current (.sender event)).toList
  rw [List.append_nil] at later
  cases move with
  | connect front sockfd addr rand ready => exact absurd rfl (old front sockfd addr rand)
  | garbled | unmatched | stale => exact later
  | send front sockfd len buf malloc sock body ready short found copied =>
    apply Recorded.insert later found (by rfl)
    intro now member
    simp only [Sending.unacked, ← List.append_assoc] at member
    rcases List.mem_append.mp member with earlier | last
    · exact (later sockfd sock found).2 now earlier
    · rw [List.mem_singleton.mp last, Sending.wrapPackage_payload sock copied]
      simp [supply]
  | acked sockfd ack now estimator sock before message after intact found split session seqNum =>
    apply Recorded.insert later found (by rfl)
    intro tmp member
    apply (later sockfd sock found).2 tmp
    rw [Sending.unacked, split]
    simp only [Sending.unacked, List.mem_append, List.mem_cons] at member ⊢
    tauto
  | expire expired sockfd sock before message after found session split own seqNum =>
    apply Recorded.insert later found (by rfl)
    intro tmp member
    exact (later sockfd sock found).2 tmp ((Sending.unacked_expire split).mem_iff.mp member)
  | solve clock state' effects ran =>
    intro sockfd now present
    rw [Sending.solveSend_find ran] at present
    obtain ⟨sock, found, rfl⟩ := Option.map_eq_some_iff.mp present
    obtain ⟨own, supplied⟩ := later sockfd sock found
    exact ⟨own, fun tmp member =>
      supplied tmp ((Sending.unacked_transmitted sock).mem_iff.mp member)⟩

end Records

section Moves

variable {κ : Type}

def serverCall : NetworkEvent κ × List (NetworkEffect κ) →
    Option (ReceiverEvent × List ReceiverEffect)
  | (.server _ event, emitted) => some (event, emitted.filterMap serverEffect)
  | (.client _ _, _) => none

def serverCalls (history : Machine.History (NetworkEvent κ) (NetworkEffect κ)) :
    Machine.History ReceiverEvent ReceiverEffect :=
  history.filterMap serverCall

@[simp] theorem serverCall_server (origin : Nat) (event : ReceiverEvent)
    (emitted : List ReceiverEffect) :
    serverCall (.server origin event, emitted.map (NetworkEffect.server (κ := κ))) =
      some (event, emitted) := by
  simp [serverCall, List.filterMap_map, Function.comp_def, serverEffect]

@[simp] theorem serverCall_client (client : κ) (event : TimedEvent)
    (emitted : List (NetworkEffect κ)) :
    serverCall (.client client event, emitted) = none := rfl

variable [DecidableEq κ] {order : TcpdOrder} {driver : κ → SockAddr}
  {state state' : Network κ} {event : NetworkEvent κ} {emitted : List (NetworkEffect κ)}
  {history : Machine.History (NetworkEvent κ) (NetworkEffect κ)}

inductive NetworkMove (order : TcpdOrder) (driver : κ → SockAddr) (state : Network κ) :
    NetworkEvent κ → Network κ → List (NetworkEffect κ) → Prop where
  | sender (client : κ) (event : SenderEvent) (sender : Sender) (emitted : List SenderEffect)
      (delivers : state.Delivers (.client client (.sender event)))
      (taken : Sender.step order.connected (state.clients client).sender event =
        .ok (sender, emitted)) :
      NetworkMove order driver state (.client client (.sender event))
        (state.acted client (.sender event)
          { state.clients client with
            sender
            requests := (state.clients client).requests ++ emitted.filterMap SenderEffect.request?
            notifications := remainingNotifications (state.clients client).notifications event }
          (emitted.map .sender))
        ((emitted.map .sender).map (.client client))
  | timer (client : κ) (elapsedSeconds : Rat) (ready : Bool) (request : Option TimerRequest)
      (rest : List TimerRequest) (timerList : List TimerNode)
      (sent : List (SockAddr × TimerExpired))
      (read : (state.clients client).requests = request.toList ++ rest)
      (ran : timerRound (state.clients client).timerList
        ⟨elapsedSeconds, request.map fun request => (request, driver client)⟩ =
          (timerList, sent)) :
      NetworkMove order driver state (.client client (.timer elapsedSeconds ready))
        (state.acted client (.timer elapsedSeconds ready)
          { state.clients client with
            requests := rest
            timerList
            notifications :=
              (state.clients client).notifications ++ notificationsTo (driver client) sent }
          (sent.map fun notification => .timer notification.1 notification.2))
        ((sent.map fun notification => .timer notification.1 notification.2).map (.client client))
  | server (origin : Nat) (event : ReceiverEvent) (server : Receiver)
      (emitted : List ReceiverEffect) (delivers : state.Delivers (.server origin event))
      (taken : Receiver.step order.accepted state.server event = .ok (server, emitted)) :
      NetworkMove order driver state (.server origin event)
        { state with server, acks := state.acks ++ emitted.filterMap ReceiverEffect.ack? }
        (emitted.map .server)

theorem step_network (taken : Network.step order driver state event = .ok (state', emitted)) :
    NetworkMove order driver state event state' emitted := by
  unfold Network.step at taken
  split at taken
  next delivers =>
    cases event with
    | client client event =>
      dsimp only at taken
      split at taken
      · cases taken
      next acted emitted stepped =>
        cases taken
        cases event with
        | sender event =>
          simp only [TimedSender.act] at stepped
          split at stepped
          · cases stepped
          next sender emitted sent =>
            cases stepped
            exact .sender client event sender emitted delivers sent
        | timer elapsedSeconds ready =>
          cases ready with
          | false =>
            cases stepped
            exact .timer client elapsedSeconds false none _ _ _ rfl rfl
          | true =>
            obtain ⟨request, rest, shape⟩ := List.exists_cons_of_ne_nil delivers
            simp only [TimedSender.act, shape, if_true, List.head?_cons, List.tail_cons] at stepped
            cases stepped
            exact .timer client elapsedSeconds true (some request) rest _ _ shape rfl
    | server origin event =>
      dsimp only at taken
      split at taken
      · cases taken
      next server emitted stepped =>
        cases taken
        exact .server origin event server emitted delivers stepped
  · cases taken

theorem run_client (run : Machine.Run (Network.step order driver) (.initial κ) history state)
    (client : κ) : ∃ calls, Machine.Run (Sender.step order.connected) .initial calls
      (state.clients client).sender := by
  induction run with
  | start => exact ⟨[], .start⟩
  | next event state' emitted before taken ih =>
    obtain ⟨calls, ran⟩ := ih
    cases step_network taken with
    | sender other event sender emitted delivers stepped =>
      by_cases same : client = other
      next =>
        subst same
        refine ⟨calls ++ [(event, emitted)], ?_⟩
        rw [acted_self]
        exact ran.next event sender emitted stepped
      next =>
        rw [acted_other _ same]
        exact ⟨calls, ran⟩
    | timer other elapsedSeconds ready request rest timerList sent read round =>
      by_cases same : client = other
      next =>
        subst same
        rw [acted_self]
        exact ⟨calls, ran⟩
      next =>
        rw [acted_other _ same]
        exact ⟨calls, ran⟩
    | server => exact ⟨calls, ran⟩

theorem run_server (run : Machine.Run (Network.step order driver) (.initial κ) history state) :
    Machine.Run (Receiver.step order.accepted) .initial (serverCalls history) state.server := by
  apply run.component Network.server
  intro _ _ _ _ taken
  cases step_network taken with
  | sender | timer => exact .inl ⟨rfl, rfl⟩
  | server origin event server emitted delivers stepped =>
    exact .inr ⟨event, emitted, serverCall_server origin event emitted, stepped⟩

end Moves

section Traces

variable {κ : Type} [DecidableEq κ] {order : TcpdOrder} {driver : κ → SockAddr}
  {state state' : Network κ} {event : NetworkEvent κ} {emitted : List (NetworkEffect κ)}
  {history : Machine.History (NetworkEvent κ) (NetworkEffect κ)}

def From (connections : List (Connection κ)) (client : κ) (sent : Nat × TrollMessage) : Prop :=
  ∃ sockfd, connections[sent.1]? = some ⟨client, sockfd, sent.2.session⟩

structure Traced (driver : κ → SockAddr) (state : Network κ) : Prop where
  recorded : ∀ client, Recorded client (state.current client) state.connections state.sends
    (state.clients client).sender.connectedSockets
  frames : ∀ sent ∈ state.frames, (∃ client, From state.connections client sent) ∧
    (sent.1, sent.2.payload) ∈ state.sends ∧
    sent.2.seqNum.toNat < Sending.farthest + maxBufferPackages
  addressed : ∀ client,
    Timer.Addressed (driver client) (Timer.items (state.clients client).timerList)
  stirs : ∀ client key, Timer.Stirs key (state.clients client) →
    ∃ sent ∈ state.frames, Timer.keyOf sent.2 = key ∧ From state.connections client sent

omit [DecidableEq κ] in
theorem From.more {connections : List (Connection κ)} {client : κ} {sent : Nat × TrollMessage}
    (origin : From connections client sent) (later : List (Connection κ)) :
    From (connections ++ later) client sent := by
  obtain ⟨sockfd, found⟩ := origin
  exact ⟨sockfd, getElem?_more found⟩

theorem succeed_other (state : Network κ) {client other : κ} (different : other ≠ client)
    (event : TimedEvent) : state.succeed client event other = state.current other := by
  unfold succeed
  split
  · rw [Function.update_of_ne different]
  · rfl

theorem traced_acted (traced : Traced driver state) {client : κ} {event : TimedEvent}
    {next : TimedSender} {emitted : List TimedEffect}
    (recorded : Recorded client (state.succeed client event client)
      (state.connections ++ (opening client event).toList)
      (state.sends ++ (supply (state.current client) event).toList) next.sender.connectedSockets)
    (sent : ∀ frame ∈ emitted.filterMap (originated (state.current client)),
      From state.connections client frame ∧ (frame.1, frame.2.payload) ∈ state.sends ∧
        frame.2.seqNum.toNat < Sending.farthest + maxBufferPackages)
    (addressed : Timer.Addressed (driver client) (Timer.items next.timerList))
    (stirs : ∀ key, Timer.Stirs key next → Timer.Stirs key (state.clients client) ∨
      ∃ frame ∈ emitted.filterMap (originated (state.current client)),
        Timer.keyOf frame.2 = key) :
    Traced driver (state.acted client event next emitted) := by
  -- The other clients are unchanged, in a network that only knows more.
  constructor
  · intro other
    by_cases same : other = client
    next =>
      subst same
      rw [acted_self]
      exact recorded
    next =>
      rw [acted_other _ same]
      simp only [acted, succeed_other _ same]
      exact (traced.recorded other).more _ _
  · intro frame member
    rcases List.mem_append.mp member with old | new
    · obtain ⟨⟨other, origin⟩, supplied, bound⟩ := traced.frames frame old
      exact ⟨⟨other, origin.more _⟩, List.mem_append_left _ supplied, bound⟩
    · obtain ⟨origin, supplied, bound⟩ := sent frame new
      exact ⟨⟨client, origin.more _⟩, List.mem_append_left _ supplied, bound⟩
  · intro other
    by_cases same : other = client
    next =>
      subst same
      rw [acted_self]
      exact addressed
    next =>
      rw [acted_other _ same]
      exact traced.addressed other
  · intro other key stirring
    have earlier (stirring : Timer.Stirs key (state.clients other)) :
        ∃ sent ∈ (state.acted client event next emitted).frames, Timer.keyOf sent.2 = key ∧
          From (state.acted client event next emitted).connections other sent := by
      obtain ⟨frame, member, own, origin⟩ := traced.stirs other key stirring
      exact ⟨frame, List.mem_append_left _ member, own, origin.more _⟩
    by_cases same : other = client
    next =>
      subst same
      rw [acted_self] at stirring
      rcases stirs key stirring with old | ⟨frame, member, own⟩
      · exact earlier old
      · exact ⟨frame, List.mem_append_right _ member, own, (sent frame member).1.more _⟩
    next =>
      rw [acted_other _ same] at stirring
      exact earlier stirring

theorem mem_originated {current : Int32 → Nat} {emitted : List SenderEffect}
    {frame : Nat × TrollMessage} :
    frame ∈ (emitted.map TimedEffect.sender).filterMap (originated current) ↔
      ∃ sockfd, SenderEffect.data sockfd frame.2 ∈ emitted ∧ frame.1 = current sockfd := by
  constructor
  · intro member
    obtain ⟨_, listed, own⟩ := List.mem_filterMap.mp member
    obtain ⟨effect, sent, rfl⟩ := List.mem_map.mp listed
    cases effect with
    | data sockfd message =>
      cases own
      exact ⟨sockfd, sent, rfl⟩
    | connectReturn | sendReturn | timer | free => cases own
  · rintro ⟨sockfd, sent, own⟩
    refine List.mem_filterMap.mpr ⟨_, List.mem_map.mpr ⟨_, sent, rfl⟩, ?_⟩
    simp [originated, ← own]

theorem start_frame {calls : Machine.History SenderEvent SenderEffect} {sender sender' : Sender}
    {event : SenderEvent} {emitted : List SenderEffect}
    (run : Machine.Run (Sender.step order.connected) .initial calls sender)
    (taken : Sender.step order.connected sender event = .ok (sender', emitted))
    {request : TimerRequest} (member : SenderEffect.timer request ∈ emitted)
    (start : request.type = .start) :
    ∃ sockfd now, SenderEffect.data sockfd now ∈ emitted ∧
      Timer.keyOf now = Timer.requestKey request := by
  cases Sending.step_move taken with
  | connect | send | garbled | stale | expire => simp at member
  | unmatched =>
    simp only [List.mem_singleton, SenderEffect.timer.injEq] at member
    subst member
    cases start
  | acked =>
    simp only [List.mem_cons, reduceCtorEq, List.not_mem_nil, or_false, false_or,
      SenderEffect.timer.injEq] at member
    subst member
    cases start
  | solve clock sender' effects ran =>
    obtain ⟨sockfd, sock, found, now, sent, data | ⟨seconds, timer⟩⟩ :=
      Sending.solveSend_effect ran member
    · cases data
    · cases timer
      rw [← Sending.run_sends run taken found] at sent
      obtain ⟨effect, emits, own⟩ := List.mem_filterMap.mp sent
      refine ⟨sockfd, now, ?_, rfl⟩
      cases effect with
      | data other message =>
        simp only [Sending.dataOn] at own
        split at own
        next same =>
          cases own
          rw [← same]
          exact emits
        · cases own
      | connectReturn | sendReturn | timer | free => cases own

theorem count_remaining (notifications : List TimerExpired) (event : SenderEvent)
    (key : TimerExpired) :
    (remainingNotifications notifications event).count key ≤ notifications.count key := by
  cases event with
  | expired => exact (List.tail_sublist notifications).count_le key
  | connect | send | ack | solveSend => exact Nat.le_refl _

theorem stirs_sender {calls : Machine.History SenderEvent SenderEffect} {client : TimedSender}
    {sender : Sender} {event : SenderEvent} {emitted : List SenderEffect}
    (run : Machine.Run (Sender.step order.connected) .initial calls client.sender)
    (taken : Sender.step order.connected client.sender event = .ok (sender, emitted))
    (current : Int32 → Nat) {key : TimerExpired}
    (stirring : Timer.Stirs key
      { client with
        sender
        requests := client.requests ++ emitted.filterMap SenderEffect.request?
        notifications := remainingNotifications client.notifications event }) :
    Timer.Stirs key client ∨
      ∃ frame ∈ (emitted.map TimedEffect.sender).filterMap (originated current),
        Timer.keyOf frame.2 = key := by
  rcases stirring with line | live
  · rw [Timer.asked_append, List.mem_append] at line
    rcases line with old | new
    · exact .inl (.inl old)
    · obtain ⟨request, listed, own⟩ := List.mem_filterMap.mp new
      obtain ⟨effect, emits, same⟩ := List.mem_filterMap.mp listed
      split at own
      next named =>
        cases effect with
        | timer asked =>
          cases same
          obtain ⟨sockfd, now, sent, key⟩ := start_frame run taken emits (Option.some.inj own)
          exact .inr ⟨(current sockfd, now), mem_originated.mpr ⟨sockfd, sent, rfl⟩,
            key.trans named⟩
        | connectReturn | sendReturn | data | free => cases same
      · cases own
  · refine .inl (.inr ?_)
    have fewer := count_remaining client.notifications event key
    simp only [Timer.live] at live ⊢
    omega

theorem traced_sender (traced : Traced driver state) {client : κ}
    {calls : Machine.History SenderEvent SenderEffect}
    (run : Machine.Run (Sender.step order.connected) .initial calls (state.clients client).sender)
    {event : SenderEvent} {sender : Sender} {emitted : List SenderEffect}
    (taken : Sender.step order.connected (state.clients client).sender event =
      .ok (sender, emitted)) :
    Traced driver (state.acted client (.sender event)
      { state.clients client with
        sender
        requests := (state.clients client).requests ++ emitted.filterMap SenderEffect.request?
        notifications := remainingNotifications (state.clients client).notifications event }
      (emitted.map .sender)) := by
  have recorded := traced.recorded client
  have move := Sending.step_move taken
  apply traced_acted traced
  · cases event with
    | connect front sockfd addr rand =>
      cases move
      have opened := recorded_connect recorded sockfd addr rand
      simpa [succeed, opening, supply, tcpdConnect] using opened
    | send | ack | expired | solveSend =>
      simpa [succeed, opening] using recorded_step recorded move (by simp)
  · intro frame member
    obtain ⟨sockfd, sent, own⟩ := mem_originated.mp member
    obtain ⟨sock, found, owned, session, bound⟩ := Sending.data_record run taken sent
    obtain ⟨known, supplied⟩ := recorded sockfd sock found
    rw [← own, ← session] at known
    rw [← own] at supplied
    exact ⟨⟨sockfd, known⟩, supplied frame.2 owned, bound⟩
  · exact traced.addressed client
  · intro key
    exact stirs_sender run taken (state.current client)

theorem traced_timer (traced : Traced driver state) {client : κ} {elapsedSeconds : Rat}
    {ready : Bool} {request : Option TimerRequest} {rest : List TimerRequest}
    {timerList : List TimerNode} {sent : List (SockAddr × TimerExpired)}
    (read : (state.clients client).requests = request.toList ++ rest)
    (ran : timerRound (state.clients client).timerList
      ⟨elapsedSeconds, request.map fun request => (request, driver client)⟩ = (timerList, sent)) :
    Traced driver (state.acted client (.timer elapsedSeconds ready)
      { state.clients client with
        requests := rest
        timerList
        notifications :=
          (state.clients client).notifications ++ notificationsTo (driver client) sent }
      (sent.map fun notification => .timer notification.1 notification.2)) := by
  have addressed := traced.addressed client
  apply traced_acted traced
  · simpa [succeed, opening, supply] using traced.recorded client
  · intro frame member
    obtain ⟨_, listed, own⟩ := List.mem_filterMap.mp member
    obtain ⟨notification, _, rfl⟩ := List.mem_map.mp listed
    cases own
  · have kept := (Timer.addressed_round addressed elapsedSeconds request).2
    simp only [ran] at kept
    exact kept
  · intro key stirring
    exact .inl (Timer.stirs_iteration stirring read rfl
      (Timer.timer_live addressed ran rest key))

theorem run_traced (run : Machine.Run (Network.step order driver) (.initial κ) history state) :
    Traced driver state := by
  induction run with
  | start =>
    constructor
    · intro client sockfd sock found
      cases found
    · simp [initial]
    · intro client item member
      cases member
    · rintro client key (line | live)
      · cases line
      · cases live
  | next event state' emitted before taken ih =>
    cases step_network taken with
    | sender client event sender emitted delivers stepped =>
      obtain ⟨calls, ran⟩ := run_client before client
      exact traced_sender ih ran stepped
    | timer client elapsedSeconds ready request rest timerList sent read round =>
      exact traced_timer ih read round
    | server => exact ⟨ih.recorded, ih.frames, ih.addressed, ih.stirs⟩

end Traces

section Sessions

variable {κ : Type}

def carried (history : Machine.History (NetworkEvent κ) (NetworkEffect κ)) :
    List (Nat × TrollMessage) :=
  history.filterMap fun
    | (.server origin (.data _ message _ _), _) => some (origin, message)
    | _ => none

def arrived (session : UInt32) (history : Machine.History (NetworkEvent κ) (NetworkEffect κ)) :
    List (Nat × TrollMessage) :=
  (carried history).filter fun frame => frame.2.Intact ∧ frame.2.session = session

theorem received_arrived (session : UInt32)
    (history : Machine.History (NetworkEvent κ) (NetworkEffect κ)) :
    Reception.received session (serverCalls history) =
      (arrived session history).map Prod.snd := by
  simp only [Reception.received, Machine.events, serverCalls, List.filterMap_filterMap, arrived,
    carried, List.filter_filterMap, List.map_filterMap]
  congr 1
  funext step
  obtain ⟨event, emitted⟩ := step
  cases event with
  | client client event => rfl
  | server origin event =>
    cases event with
    | data sockfd message remoteTroll malloc =>
      by_cases own : message.Intact ∧ message.session = session
      next => simp [serverCall, own]
      next =>
        have apart := not_and.mp own
        simpa [serverCall, own] using apart
    | bind | accept | recv | solveAccept | solveRecv => simp [serverCall]

theorem origin_unique {connections : List (Connection κ)}
    (distinct : (connections.map Connection.session).Nodup) {client client' : κ}
    {left right : Nat × TrollMessage} (origin : From connections client left)
    (origin' : From connections client' right) (same : left.2.session = right.2.session) :
    left.1 = right.1 := by
  obtain ⟨sockfd, found⟩ := origin
  obtain ⟨sockfd', found'⟩ := origin'
  have inside := (List.getElem?_eq_some_iff.mp found).1
  apply (List.getElem?_inj (by simpa using inside) distinct).mp
  rw [List.getElem?_map, List.getElem?_map, found, found', Option.map_some, Option.map_some, same]

variable [DecidableEq κ] {order : TcpdOrder} {driver : κ → SockAddr} {state : Network κ}
  {history : Machine.History (NetworkEvent κ) (NetworkEffect κ)}

theorem run_arrived (run : Machine.Run (Network.step order driver) (.initial κ) history state)
    {session : UInt32} {frame : Nat × TrollMessage} (member : frame ∈ arrived session history) :
    frame.2.session = session ∧
      ∃ sent ∈ state.frames, sent.1 = frame.1 ∧ frame.2.content = sent.2.content := by
  induction run with
  | start => cases member
  | @next history previous event state' emitted before taken ih =>
    have own := (List.mem_filter.mp member).2
    rw [decide_eq_true_eq] at own
    rw [arrived, carried, List.filterMap_append, List.filter_append, List.mem_append] at member
    cases step_network taken with
    | sender | timer =>
      rcases member with earlier | last
      · obtain ⟨_, sent, inside, same⟩ := ih earlier
        exact ⟨own.2, sent, List.mem_append_left _ inside, same⟩
      · simp at last
    | server origin event server emitted delivers stepped =>
      rcases member with earlier | last
      · exact ih earlier
      · cases event with
        | data sockfd message remoteTroll malloc =>
          obtain rfl : frame = (origin, message) := by
            simpa using (List.mem_filter.mp last).1
          exact ⟨own.2, delivers own.1⟩
        | bind | accept | recv | solveAccept | solveRecv => simp at last

theorem arrived_from (run : Machine.Run (Network.step order driver) (.initial κ) history state)
    {session : UInt32} {frame : Nat × TrollMessage} (member : frame ∈ arrived session history) :
    (∃ client, From state.connections client frame) ∧ frame.2.session = session ∧
      (frame.1, frame.2.payload) ∈ state.sends ∧
      frame.2.seqNum.toNat < Sending.farthest + maxBufferPackages := by
  obtain ⟨own, sent, inside, origin, content⟩ := run_arrived run member
  obtain ⟨⟨client, sockfd, found⟩, supplied, bound⟩ := (run_traced run).frames sent inside
  have session : frame.2.session = sent.2.session := congrArg Content.session content
  have seqNum : frame.2.seqNum = sent.2.seqNum := congrArg Content.seqNum content
  refine ⟨⟨client, sockfd, ?_⟩, own, ?_, ?_⟩
  · rw [← origin, session]
    exact found
  · rw [← origin, Transport.payload_of_content content]
    exact supplied
  · rw [seqNum]
    exact bound

theorem consumed_few (run : Machine.Run (Network.step order driver) (.initial κ) history state)
    (session : UInt32) : (Reception.consumed session (serverCalls history)).length < 2 ^ 32 := by
  have bounded := Reception.run_reordered_bounded (run_server run) session
    (show Sending.farthest + maxBufferPackages < 2 ^ 32 by decide) (by
      intro now received
      rw [received_arrived] at received
      obtain ⟨frame, member, rfl⟩ := List.mem_map.mp received
      exact (arrived_from run member).2.2.2)
  exact bounded.trans_lt (by decide)

def Concerns (state : Network κ) (client : κ) (key : TimerExpired) (origin : Nat) : Prop :=
  ∃ message, (origin, message) ∈ state.frames ∧ Timer.keyOf message = key ∧
    From state.connections client (origin, message)

structure Separate (order : TcpdOrder)
    (history : Machine.History (NetworkEvent κ) (NetworkEffect κ)) (state : Network κ) : Prop where
  -- What a session's reader gets depends on the frames of one connection, which carry only what
  -- was sent on it.
  served : ∀ session, ∃ own, Machine.Run (Reception.sessionStep session) .absent own
      (Reception.view session state.server) ∧
    Machine.outputs own = (serverCalls history).flatMap (Reception.ownEffects session) ∧
    Reception.arrivals (Machine.events own) = (arrived session history).map Prod.snd
  unmixed : ∀ session, ∃ origin, ∀ frame ∈ arrived session history,
    frame.1 = origin ∧ (origin, frame.2.payload) ∈ state.sends
  -- A frame is dropped only when one of its own connection has arrived under its number.
  kept : ∀ sent ∈ state.frames, ∀ message, message.content = sent.2.content → ∀ sock,
    (Reception.view message.session state.server).sock? = some sock →
    storePackage sock message = sock →
    ∃ now, (sent.1, now) ∈ arrived message.session history ∧ now.seqNum = message.seqNum
  -- A Start and the node that rejects it concern the same connection.
  started : ∀ client key, Timer.Stirs key (state.clients client) →
    ∃! origin, Concerns state client key origin
  directed : ∀ client, ∀ expired ∈ (state.clients client).notifications, ∀ sockfd sock,
    findSession order.connected (state.clients client).sender expired.session.toUInt32 =
      some (sockfd, sock) →
    Concerns state client expired (state.current client sockfd)

theorem stored_number {received : List TrollMessage} {sock : AcceptedSocket}
    (canonical : Reception.Canonical received sock) {message : TrollMessage}
    (dropped : storePackage sock message = sock) :
    ∃ now ∈ received, now.seqNum = message.seqNum := by
  rcases Reception.storePackage_cases sock message canonical.sorted with
    ⟨_, outdated | ⟨tmp, member, same⟩⟩ | ⟨packages, stored, _, _, members⟩
  · exact canonical.below message.seqNum outdated
  · exact ⟨tmp, canonical.original tmp member, same⟩
  · have same : packages = sock.packages :=
      congrArg AcceptedSocket.packages (stored.symm.trans dropped)
    refine ⟨message, canonical.original message ?_, rfl⟩
    rw [← same]
    exact (members message).mpr (.inl rfl)

theorem connections_separate
    (run : Machine.Run (Network.step order driver) (.initial κ) history state)
    (distinct : (state.connections.map Connection.session).Nodup) :
    Separate order history state := by
  have traced := run_traced run
  constructor
  · intro session
    obtain ⟨own, ran, events, outputs⟩ := Reception.run_session (run_server run) session
    refine ⟨own, ran, outputs, ?_⟩
    rw [events, Reception.received_own, received_arrived]
  · intro session
    cases all : arrived session history with
    | nil => exact ⟨0, by simp⟩
    | cons first rest =>
      have inside : first ∈ arrived session history := by
        rw [all]
        exact List.mem_cons_self
      obtain ⟨⟨client, origin⟩, own, _⟩ := arrived_from run inside
      refine ⟨first.1, ?_⟩
      intro frame member
      rw [← all] at member
      obtain ⟨⟨client', origin'⟩, own', supplied, _⟩ := arrived_from run member
      have same := origin_unique distinct origin' origin (own'.trans own.symm)
      exact ⟨same, same ▸ supplied⟩
  · intro sent inside message content sock record dropped
    have reordered := Reception.run_reordered (run_server run) message.session
      (consumed_few run message.session)
    obtain ⟨now, received, same⟩ := stored_number (reordered.canonical sock record) dropped
    rw [received_arrived] at received
    obtain ⟨frame, member, rfl⟩ := List.mem_map.mp received
    obtain ⟨⟨client, origin⟩, own, _⟩ := arrived_from run member
    obtain ⟨⟨client', origin'⟩, _⟩ := traced.frames sent inside
    have session : message.session = sent.2.session := congrArg Content.session content
    have owner := origin_unique distinct origin origin' (own.trans session)
    exact ⟨frame.2, owner ▸ member, same⟩
  · intro client key stirring
    obtain ⟨sent, inside, named, origin⟩ := traced.stirs client key stirring
    refine ⟨sent.1, ⟨sent.2, inside, named, origin⟩, ?_⟩
    rintro other ⟨message, _, named', origin'⟩
    have session : message.session = sent.2.session :=
      toInt32_inj (congrArg TimerExpired.session (named'.trans named.symm))
    exact origin_unique distinct origin' origin session
  · intro client expired notified sockfd sock found
    obtain ⟨present, session⟩ := Sending.findSession_some found
    have stirring : Timer.Stirs expired (state.clients client) := by
      refine .inr (Nat.add_pos_right _ ?_)
      exact List.count_pos_iff.mpr notified
    obtain ⟨sent, inside, named, origin⟩ := traced.stirs client expired stirring
    obtain ⟨record, _⟩ := traced.recorded client sockfd sock present
    have same : sent.2.session = sock.session := by
      rw [session, ← named]
      rfl
    have current : From state.connections client (state.current client sockfd, sent.2) :=
      ⟨sockfd, by rw [same]; exact record⟩
    have owner : sent.1 = state.current client sockfd := origin_unique distinct origin current rfl
    rw [← owner]
    exact ⟨sent.2, inside, named, origin⟩

theorem step_sender (client : κ) (event : SenderEvent) {sender : Sender}
    {emitted : List SenderEffect} (delivers : state.Delivers (.client client (.sender event)))
    (taken : Sender.step order.connected (state.clients client).sender event =
      .ok (sender, emitted)) :
    Network.step order driver state (.client client (.sender event)) =
      .ok (state.acted client (.sender event)
          { state.clients client with
            sender
            requests := (state.clients client).requests ++ emitted.filterMap SenderEffect.request?
            notifications := remainingNotifications (state.clients client).notifications event }
          (emitted.map .sender),
        (emitted.map .sender).map (.client client)) := by
  simp [Network.step, TimedSender.act, delivers, taken]

theorem step_server (origin : Nat) (event : ReceiverEvent) {server : Receiver}
    {emitted : List ReceiverEffect} (delivers : state.Delivers (.server origin event))
    (taken : Receiver.step order.accepted state.server event = .ok (server, emitted)) :
    Network.step order driver state (.server origin event) =
      .ok ({ state with server, acks := state.acks ++ emitted.filterMap ReceiverEffect.ack? },
        emitted.map .server) := by
  simp [Network.step, delivers, taken]

theorem connections_separate_two :
    ∃ (history : Machine.History (NetworkEvent Bool) (NetworkEffect Bool)) (state : Network Bool),
      Machine.Run (Network.step ⟨.insertion UInt32, .insertion Int32⟩ fun _ => default)
        (.initial Bool) history state ∧
      state.connections.map Connection.session = [7, 8] ∧
      (arrived 7 history).map Prod.fst = [0] ∧ (arrived 8 history).map Prod.fst = [1] ∧
      Separate ⟨.insertion UInt32, .insertion Int32⟩ history state := by
  have run : Machine.Run (Network.step ⟨.insertion UInt32, .insertion Int32⟩ fun _ => default)
    (.initial Bool) [] (.initial Bool) := .start
  have run := run.next _ _ _ (step_server 0 (.bind default 3 true) trivial rfl)
  have run := run.next _ _ _ (step_sender false (.connect default 5 default 7) trivial rfl)
  have run := run.next _ _ _ (step_sender true (.connect default 5 default 8) trivial rfl)
  have run := run.next _ _ _
    (step_sender false (.send default 5 1 (.pad bufLen [1]) default) trivial rfl)
  have run := run.next _ _ _
    (step_sender true (.send default 5 1 (.pad bufLen [2]) default) trivial rfl)
  have run := run.next _ _ _ (step_sender false (.solveSend fun _ => default) trivial rfl)
  have run := run.next _ _ _ (step_sender true (.solveSend fun _ => default) trivial rfl)
  have run := run.next _ _ _ (step_server 1 (.data 3 _ default default)
    (fun _ => ⟨_, .tail _ (.head _), rfl, rfl⟩)
    (Reception.step_data 3 rfl (TrollMessage.sealed_intact _) default default))
  have run := run.next _ _ _ (step_server 0 (.data 3 _ default default)
    (fun _ => ⟨_, .head _, rfl, rfl⟩)
    (Reception.step_data 3 rfl (TrollMessage.sealed_intact _) default default))
  obtain ⟨history, state, run, sessions, first, second, all, ⟨intact, own⟩, intact', own'⟩ :
      ∃ (history : Machine.History (NetworkEvent Bool) (NetworkEffect Bool)) (state : Network Bool),
        Machine.Run (Network.step ⟨.insertion UInt32, .insertion Int32⟩ fun _ => default)
          (.initial Bool) history state ∧
        state.connections.map Connection.session = [7, 8] ∧
        ∃ first second : TrollMessage, carried history = [(1, second), (0, first)] ∧
          (first.Intact ∧ first.session = 7) ∧ second.Intact ∧ second.session = 8 :=
    ⟨_, _, run, rfl, _, _, rfl, ⟨TrollMessage.sealed_intact _, rfl⟩, TrollMessage.sealed_intact _, rfl⟩
  have separate := connections_separate run (by rw [sessions]; decide)
  refine ⟨history, state, run, sessions, ?_, ?_, separate⟩
  · simp [arrived, all, own, own', intact]
  · simp [arrived, all, own, own', intact']

def recvAnswer : NetworkEffect Bool → Option (UInt32 × SockAddr × List UInt8)
  | .server (.recvReturn session addr data) => some (session, addr, data)
  | _ => none

-- Both clients draw 7. The server puts the second client's frame 1 behind the first one's frame 0,
-- and the reader gets both.
theorem connections_merged :
    ∃ (history : Machine.History (NetworkEvent Bool) (NetworkEffect Bool)) (state : Network Bool),
      Machine.Run (Network.step ⟨.insertion UInt32, .insertion Int32⟩ fun _ => default)
        (.initial Bool) history state ∧
      state.sends = [(0, [1]), (1, [2]), (1, [3])] ∧
      .server (.recvReturn 7 default [1, 3]) ∈ Machine.outputs history ∧
      ¬ Separate ⟨.insertion UInt32, .insertion Int32⟩ history state := by
  have run : Machine.Run (Network.step ⟨.insertion UInt32, .insertion Int32⟩ fun _ => default)
    (.initial Bool) [] (.initial Bool) := .start
  have run := run.next _ _ _ (step_server 0 (.bind default 3 true) trivial rfl)
  have run := run.next _ _ _ (step_sender false (.connect default 5 default 7) trivial rfl)
  have run := run.next _ _ _ (step_sender true (.connect default 5 default 7) trivial rfl)
  have run := run.next _ _ _
    (step_sender false (.send default 5 1 (.pad bufLen [1]) default) trivial rfl)
  have run := run.next _ _ _
    (step_sender true (.send default 5 1 (.pad bufLen [2]) default) trivial rfl)
  have run := run.next _ _ _
    (step_sender true (.send default 5 1 (.pad bufLen [3]) default) trivial rfl)
  have run := run.next _ _ _ (step_sender false (.solveSend fun _ => default) trivial rfl)
  have run := run.next _ _ _ (step_sender true (.solveSend fun _ => default) trivial rfl)
  have run := run.next _ _ _ (step_server 0 (.data 3 _ default default)
    (fun _ => ⟨_, .head _, rfl, rfl⟩)
    (Reception.step_data 3 rfl (TrollMessage.sealed_intact _) default default))
  have run := run.next _ _ _ (step_server 1 (.data 3 _ default default)
    (fun _ => ⟨_, .tail _ (.tail _ (.head _)), rfl, rfl⟩)
    (Reception.step_data 3 rfl (TrollMessage.sealed_intact _) default default))
  have run := run.next _ _ _ (step_server 0 (.accept default 3) trivial rfl)
  have run := run.next _ _ _ (step_server 0 .solveAccept trivial rfl)
  have run := run.next _ _ _ (step_server 0 (.recv default 7 2) trivial rfl)
  have run := run.next _ _ _ (step_server 0 .solveRecv trivial rfl)
  obtain ⟨history, state, run, sends, blocks, first, second, all, ⟨intact, own⟩, intact', own'⟩ :
      ∃ (history : Machine.History (NetworkEvent Bool) (NetworkEffect Bool)) (state : Network Bool),
        Machine.Run (Network.step ⟨.insertion UInt32, .insertion Int32⟩ fun _ => default)
          (.initial Bool) history state ∧
        state.sends = [(0, [1]), (1, [2]), (1, [3])] ∧
        (Machine.outputs history).filterMap recvAnswer = [(7, default, [1, 3])] ∧
        ∃ first second : TrollMessage, carried history = [(0, first), (1, second)] ∧
          (first.Intact ∧ first.session = 7) ∧ second.Intact ∧ second.session = 7 :=
    ⟨_, _, run, rfl, rfl, _, _, rfl, ⟨TrollMessage.sealed_intact _, rfl⟩,
      TrollMessage.sealed_intact _, rfl⟩
  refine ⟨history, state, run, sends, ?_, ?_⟩
  · obtain ⟨effect, emitted, block⟩ :=
      List.mem_filterMap.mp (blocks ▸ List.mem_singleton_self (7, default, [1, 3]))
    unfold recvAnswer at block
    split at block
    next =>
      cases block
      exact emitted
    · cases block
  · intro separate
    obtain ⟨origin, only⟩ := separate.unmixed 7
    have left := (only (0, first) (by simp [arrived, all, intact, own])).1
    have right := (only (1, second) (by simp [arrived, all, intact', own'])).1
    exact Nat.zero_ne_one (left.trans right.symm)

end Sessions

end NetworkProj.Network
