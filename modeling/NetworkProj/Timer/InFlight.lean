import NetworkProj.Timer.Timeouts

set_option autoImplicit false

namespace NetworkProj.Timer

variable {order : IterOrder Int32} {driver : SockAddr} {state state' : TimedSender}
  {event : TimedEvent} {emitted : List TimedEffect}
  {history : Machine.History TimedEvent TimedEffect}

section Steps

theorem timeouts_initial : Timeouts driver .initial where
  addressed := nofun
  known := by
    rintro key (start | positive)
    · cases start
    · exact absurd positive (Nat.lt_irrefl 0)
  timed := nofun

theorem timeouts_iteration (timeouts : Timeouts driver state) {elapsedSeconds : Rat}
    {request : Option TimerRequest} {rest : List TimerRequest} {timerList : List TimerNode}
    {sent : List (SockAddr × TimerExpired)} (read : state.requests = request.toList ++ rest)
    (ran : timerRound state.timerList
      ⟨elapsedSeconds, request.map fun request => (request, driver)⟩ = (timerList, sent)) :
    Timeouts driver { state with
      requests := rest
      timerList
      notifications := state.notifications ++ notificationsTo driver sent } := by
  have alive := timer_live timeouts.addressed ran rest
  constructor
  · have kept := (addressed_round timeouts.addressed elapsedSeconds request).2
    rwa [ran] at kept
  · exact fun key stirs => timeouts.known key (stirs_iteration stirs read rfl (alive key))
  · intro sockfd sock found
    have timed := timeouts.timed sockfd sock found
    exact ⟨fun now member => running_iteration (timed.running now member) read rfl (alive _),
      fun now member => quiet_iteration (timed.waiting now member) read rfl (alive _),
      fun seqNum above => quiet_iteration (timed.fresh seqNum above) read rfl (alive _)⟩

theorem taken_apart {sender : Sender} (orderly : Orderly sender) {sockfd : Int32}
    {sock : ConnectedSocket} (found : sender.connectedSockets.find sockfd = some sock)
    {before after : List TrollMessage} {message : TrollMessage}
    (split : sock.packages = before ++ message :: after) :
    before ++ after ⊆ sock.packages ∧ ∀ tmp ∈ before ++ after, tmp.seqNum ≠ message.seqNum := by
  have numbers := orderly.numbers sockfd sock found
  rw [Sending.unacked, List.map_append, List.nodup_append] at numbers
  have perm : sock.packages.Perm (message :: (before ++ after)) := by
    rw [split]
    exact List.perm_middle
  have single := List.nodup_cons.mp ((perm.map _).nodup_iff.mp numbers.1)
  constructor
  · exact fun tmp member => perm.mem_iff.mpr (List.mem_cons_of_mem _ member)
  · intro tmp member same
    apply single.1
    rw [← same]
    exact List.mem_map_of_mem member

theorem timeouts_sender (timeouts : Timeouts driver state) (orderly : Orderly state.sender)
    {event : SenderEvent} {sender : Sender} {emitted : List SenderEffect}
    (fresh : ∀ front sockfd addr rand, event = .connect front sockfd addr rand →
      state.sender.connectedSockets.find sockfd = none ∧
        ∀ other sock, state.sender.connectedSockets.find other = some sock → sock.session ≠ rand)
    (delivers : state.Delivers (.sender event))
    (move : Sending.SenderMove order state.sender event sender emitted) :
    Timeouts driver { state with
      sender
      requests := state.requests ++ emitted.filterMap SenderEffect.request?
      notifications := remainingNotifications state.notifications event } := by
  have silent : state.requests ++ ([] : List SenderEffect).filterMap SenderEffect.request? =
      state.requests := List.append_nil _
  cases move with
  | connect front sockfd addr rand ready =>
    obtain ⟨absent, distinct⟩ := fresh front sockfd addr rand rfl
    rw [show [SenderEffect.connectReturn front 0].filterMap SenderEffect.request? = [] from rfl,
      List.append_nil]
    exact timeouts_connect timeouts absent distinct
  | send front sockfd len buf malloc sock body ready short found copied =>
    rw [show [SenderEffect.sendReturn front len].filterMap SenderEffect.request? = [] from rfl,
      List.append_nil]
    exact timeouts_send timeouts orderly found
  | garbled sockfd ack now estimator damaged =>
    rw [silent]
    exact ⟨timeouts.addressed, fun key stirs => timeouts.known key stirs,
      fun sockfd sock found => (timeouts.timed sockfd sock found).same fun _ => ⟨rfl, rfl⟩⟩
  | unmatched sockfd ack now estimator sock intact found absent =>
    exact timeouts_ack timeouts orderly found (Table.find_unchanged found)
      (fun other old present => delivers intact other (Table.mem_keys_of_find present) old present)
      (List.Subset.refl _) absent
  | acked sockfd ack now estimator sock before message after intact found split session seqNum =>
    obtain ⟨inside, apart⟩ := taken_apart orderly found split
    refine timeouts_ack timeouts orderly found (Table.find_insert_eq _ _ · _)
      (fun other old present => delivers intact other (Table.mem_keys_of_find present) old present)
      inside ?_
    intro tmp member both
    exact apart tmp member (both.2.trans seqNum.symm)
  | stale expired sockfd sock found session absent =>
    rw [silent]
    refine timeouts_expired timeouts orderly (List.eq_cons_of_mem_head? delivers) found ?_
      (Table.find_unchanged found) (List.Subset.refl _) ?_ fun now member => .inl member
    · rw [session, Int32.toInt32_toUInt32]
    · rintro now member rfl
      exact absent now member ⟨rfl, rfl⟩
  | expire expired sockfd sock before message after found session split own seqNum =>
    obtain ⟨inside, apart⟩ := taken_apart orderly found split
    have named : keyOf message = expired := by
      rw [keyOf, own, seqNum, Int32.toInt32_toUInt32, Int32.toInt32_toUInt32]
    rw [silent]
    refine timeouts_expired timeouts orderly (List.eq_cons_of_mem_head? delivers) found ?_
      (Table.find_insert_eq _ _ · _) inside ?_ ?_
    · rw [session, Int32.toInt32_toUInt32]
    · intro tmp member same
      apply apart tmp member
      exact toInt32_inj (congrArg TimerExpired.seqNum (named.trans same)).symm
    · intro tmp member
      rcases List.mem_append.mp member with old | new
      · exact .inl old
      · rw [List.mem_singleton.mp new]
        exact .inr ⟨by simp [split], named⟩
  | solve clock sender emitted ran => exact timeouts_solve timeouts orderly ran

end Steps

section Runs

def timedEffect : TimedEffect → Option SenderEffect
  | .sender effect => some effect
  | .timer _ _ => none

def timedCall : TimedEvent × List TimedEffect → Option (SenderEvent × List SenderEffect)
  | (.sender event, emitted) => some (event, emitted.filterMap timedEffect)
  | (.timer _ _, _) => none

def senderCalls (history : Machine.History TimedEvent TimedEffect) :
    Machine.History SenderEvent SenderEffect :=
  history.filterMap timedCall

@[simp] theorem senderCalls_append (left right : Machine.History TimedEvent TimedEffect) :
    senderCalls (left ++ right) = senderCalls left ++ senderCalls right :=
  List.filterMap_append

@[simp] theorem timedCall_sender (event : SenderEvent) (emitted : List SenderEffect) :
    timedCall (.sender event, emitted.map .sender) = some (event, emitted) := by
  simp [timedCall, List.filterMap_map, Function.comp_def, timedEffect]

theorem run_sender (run : Machine.Run (TimedSender.step order driver) .initial history state) :
    Machine.Run (Sender.step order) .initial (senderCalls history) state.sender := by
  apply run.component TimedSender.sender
  intro _ _ _ _ taken
  cases step_timed taken with
  | sender event sender emitted delivers stepped =>
    exact .inr ⟨event, emitted, timedCall_sender event emitted, stepped⟩
  | timer => exact .inl ⟨rfl, rfl⟩

theorem orderly_run {sender : Sender} {calls : Machine.History SenderEvent SenderEffect}
    (run : Machine.Run (Sender.step order) .initial calls sender)
    (once : (Sending.connected (Machine.events calls)).Nodup)
    (distinct : (Sending.sessions (Machine.events calls)).Nodup) : Orderly sender where
  unique := fun _ _ _ _ found found' => Sending.session_unique run distinct found found'
  own := by
    intro sockfd sock found now member
    have booked := (Sending.run_books run once).booked sockfd sock found
    have genuine := booked.genuine now member
    refine ⟨genuine.session, ?_⟩
    rw [UInt32.lt_iff_toNat_lt, ← booked.count]
    exact genuine.below
  numbers := fun sockfd sock found => ((Sending.run_books run once).booked sockfd sock found).numbers
  few := by
    intro sockfd sock found
    have bound := Sending.base_few run once found
    simp only [Sending.farthest, maxBufferPackages] at bound
    omega

theorem run_timeouts (run : Machine.Run (TimedSender.step order driver) .initial history state)
    (once : (Sending.connected (Machine.events (senderCalls history))).Nodup)
    (distinct : (Sending.sessions (Machine.events (senderCalls history))).Nodup) :
    Timeouts driver state := by
  induction run with
  | start => exact timeouts_initial
  | next event state' emitted before taken ih =>
    rw [senderCalls_append, Machine.events_append] at once distinct
    have earlier := once
    have apart := distinct
    rw [Sending.connected_append] at earlier
    rw [Sending.sessions_append] at apart
    have orderly := orderly_run (run_sender before) earlier.of_append_left apart.of_append_left
    have timeouts := ih earlier.of_append_left apart.of_append_left
    cases step_timed taken with
    | sender event sender emitted delivers stepped =>
      apply timeouts_sender timeouts orderly ?_ delivers (Sending.step_move stepped)
      rintro front sockfd addr rand rfl
      exact ⟨Sending.connect_fresh (run_sender before) once,
        fun _ _ found => Sending.session_fresh (run_sender before) distinct found⟩
    | timer elapsedSeconds ready request rest timerList sent read ran =>
      exact timeouts_iteration timeouts read ran

end Runs

section Notifications

theorem count_starts (key : TimerExpired) (requests : List TimerRequest) :
    (asked key requests).count .start =
      requests.countP fun request => request.type = .start ∧ requestKey request = key := by
  induction requests with
  | nil => rfl
  | cons request rest ih =>
    by_cases own : requestKey request = key
    · rw [asked_own own, List.count_cons, List.countP_cons, ih]
      simp [own]
    · rw [asked_other own, List.countP_cons, ih]
      simp [own]

theorem count_nodes (key : TimerExpired) (list : List TimerNode) :
    list.countP (TimerNode.named key.session key.seqNum) = armed key (items list) := by
  rw [armed, items, List.countP_map, entries, List.countP_map]
  congr 1
  funext node
  exact named_iff key.session key.seqNum node

theorem running_single {key : TimerExpired} (running : Running key state) :
    (asked key state.requests).count .start + live key state = 1 := by
  rcases running with ⟨count, line, dead⟩ | ⟨line, alive⟩
  · simp [line, dead, List.count_replicate]
  · simp [line, alive]

theorem running_cancel {key : TimerExpired} (running : Running key state)
    {before after : List TimerRequest} {cancel : TimerRequest}
    (split : state.requests = before ++ cancel :: after) (kind : cancel.type = .cancel)
    (own : requestKey cancel = key) : .start ∈ asked key after := by
  have line : asked key state.requests = asked key before ++ .cancel :: asked key after := by
    rw [split, asked_append, asked_own own, kind]
  rcases running with ⟨count, whole, _⟩ | ⟨empty, _⟩
  · rcases List.eq_nil_or_concat (asked key after) with none | ⟨middle, last, shape⟩
    · rw [line, none] at whole
      cases (List.append_inj' whole rfl).2
    · rw [line, shape, List.concat_eq_append, ← List.cons_append, ← List.append_assoc] at whole
      obtain ⟨_, same⟩ := List.append_inj' whole rfl
      cases same
      simp [shape]
  · rw [line] at empty
    simp at empty

theorem running_start {key : TimerExpired} (running : Running key state)
    {request : TimerRequest} {rest : List TimerRequest} (read : state.requests = request :: rest)
    (kind : request.type = .start) (own : requestKey request = key) :
    armed key (items state.timerList) = 0 := by
  have line : asked key state.requests = .start :: asked key rest := by
    rw [read, asked_own own, kind]
  unfold Running live at running
  rcases running with ⟨_, _, dead⟩ | ⟨empty, _⟩
  · omega
  · rw [line] at empty
    cases empty

theorem one_timeout (run : Machine.Run (TimedSender.step order driver) .initial history state)
    (once : (Sending.connected (Machine.events (senderCalls history))).Nodup)
    (distinct : (Sending.sessions (Machine.events (senderCalls history))).Nodup) :
    (∀ sockfd sock, state.sender.connectedSockets.find sockfd = some sock →
      ∀ now ∈ sock.packages,
        state.requests.countP
              (fun request => request.type = .start ∧ requestKey request = keyOf now) +
            state.timerList.countP
              (TimerNode.named now.session.toInt32 now.seqNum.toInt32) +
            state.notifications.count (keyOf now) = 1 ∧
          (∀ before cancel after, state.requests = before ++ cancel :: after →
            cancel.type = .cancel → requestKey cancel = keyOf now →
            ∃ start ∈ after, start.type = .start ∧ requestKey start = keyOf now) ∧
          ∀ request rest elapsedSeconds, state.requests = request :: rest →
            request.type = .start → requestKey request = keyOf now →
            (updateTimerList elapsedSeconds state.timerList).any
              (TimerNode.named request.session request.seqNum) = false) ∧
      ∀ expired ∈ state.notifications,
        ∃ answer, recvTimer order state.sender expired = .ok answer := by
  have timeouts := run_timeouts run once distinct
  constructor
  · intro sockfd sock found now flying
    have running := (timeouts.timed sockfd sock found).running now flying
    refine ⟨?_, ?_, ?_⟩
    · have single := running_single running
      rw [count_starts, live, ← count_nodes] at single
      rw [← single, Nat.add_assoc]
      rfl
    · intro before cancel after split kind own
      obtain ⟨start, member, same⟩ :=
        List.mem_filterMap.mp (running_cancel running split kind own)
      split at same
      next named => exact ⟨start, member, Option.some.inj same, named⟩
      · cases same
    · intro request rest elapsedSeconds read kind own
      have none := running_start running read kind own
      rw [any_named, items_update, Bool.eq_false_iff]
      intro present
      obtain ⟨item, member, same⟩ := List.any_eq_true.mp present
      have positive : 0 < armed (keyOf now) (items state.timerList) :=
        List.countP_pos_iff.mpr ⟨item, member, by simpa [← own] using same⟩
      omega
  · intro expired member
    have stirs : Stirs expired state :=
      .inr (Nat.lt_of_lt_of_le (List.count_pos_iff.mpr member) (Nat.le_add_left _ _))
    obtain ⟨sockfd, sock, found, session⟩ := timeouts.known expired stirs
    unfold recvTimer
    split
    next missing =>
      refine absurd ?_ (Sending.findSession_none missing found)
      rw [← session, UInt32.toUInt32_toInt32]
    · dsimp only
      split <;> exact ⟨_, rfl⟩

-- An ack of a number that is not sent yet puts a Cancel ahead of the Start.
theorem one_timeout_early_ack :
    ∃ history state, Machine.Run (TimedSender.step (.insertion Int32) default) .initial history
        state ∧
      state.requests.map TimerRequest.type = [.cancel, .start] ∧
      state.requests.countP (fun request => request.type = .start ∧ requestKey request = ⟨7, 0⟩) +
        state.timerList.countP (TimerNode.named 7 0) + state.notifications.count ⟨7, 0⟩ = 1 := by
  have run : Machine.Run (TimedSender.step (.insertion Int32) default) .initial [] .initial :=
    .start
  have run := run.next (.sender (.connect default 5 default 7)) _ _ rfl
  have run := run.next (.sender (.send default 5 4 (.pad bufLen [1, 2, 3, 4]) default)) _ _ rfl
  have run := run.next _ _ _ (step_sender (.ack 5 (TrollAck.sealed ⟨default, 0, 7, 0⟩) default)
    (fun _ other member _ _ _ => List.mem_singleton.mp (show other ∈ [5] from member))
    (Sending.step_ack 5 rfl (TrollAck.sealed_intact _) default))
  have run := run.next (.sender (.solveSend fun _ => default)) _ _ rfl
  have once : [(5 : Int32)].Nodup := by decide
  have distinct : [(7 : UInt32)].Nodup := by decide
  have single := ((one_timeout run once distinct).1 5 _ rfl _ (.head _)).1
  exact ⟨_, _, run, rfl, single⟩

end Notifications

end NetworkProj.Timer
