import NetworkProj.Shared.Reachability
import NetworkProj.Timer.InFlight

set_option autoImplicit false

namespace NetworkProj.Timer

variable {order : IterOrder Int32} {driver : SockAddr} {state state' : TimedSender}
  {event : TimedEvent} {emitted : List TimedEffect}

def Alone : TimedEvent → Prop
  | .timer _ _ | .sender (.expired _) | .sender (.solveSend _) => True
  | .sender (.connect ..) | .sender (.send ..) | .sender (.ack ..) => False

def Uncalled : TimedEvent → Prop
  | .sender (.connect ..) | .sender (.send ..) => False
  | .timer _ _ | .sender (.ack ..) | .sender (.expired _) | .sender (.solveSend _) => True

theorem Alone.uncalled (alone : Alone event) : Uncalled event := by
  cases event with
  | timer => trivial
  | sender event => cases event <;> trivial

/-- A daemon in some run in which no socket is CONNECTed twice and no session is used twice. -/
def Sound (order : IterOrder Int32) (driver : SockAddr) (state : TimedSender) : Prop :=
  ∃ history, Machine.Run (TimedSender.step order driver) .initial history state ∧
    (Sending.connected (Machine.events (senderCalls history))).Nodup ∧
    (Sending.sessions (Machine.events (senderCalls history))).Nodup

section Sound

theorem uncalled_opens (uncalled : Uncalled event) (emitted : List TimedEffect) :
    Sending.opened (Machine.events (senderCalls [(event, emitted)])) = [] := by
  cases event with
  | timer => rfl
  | sender event => cases event <;> first | rfl | exact absurd uncalled id

theorem Sound.next (sound : Sound order driver state) (uncalled : Uncalled event)
    (taken : TimedSender.step order driver state event = .ok (state', emitted)) :
    Sound order driver state' := by
  obtain ⟨history, run, once, distinct⟩ := sound
  have none := uncalled_opens uncalled emitted
  refine ⟨_, run.next event state' emitted taken, ?_, ?_⟩
  · rw [senderCalls_append, Machine.events_append, Sending.connected_append,
      ← Sending.opened_sockets (Machine.events (senderCalls [(event, emitted)])), none]
    simpa using once
  · rw [senderCalls_append, Machine.events_append, Sending.sessions_append,
      Sending.sessions.eq_1 (Machine.events (senderCalls [(event, emitted)])), none]
    simpa using distinct

theorem Sound.timeouts (sound : Sound order driver state) : Timeouts driver state := by
  obtain ⟨history, run, once, distinct⟩ := sound
  exact run_timeouts run once distinct

theorem Sound.orderly (sound : Sound order driver state) : Orderly state.sender := by
  obtain ⟨history, run, once, distinct⟩ := sound
  exact orderly_run (run_sender run) once distinct

theorem Sound.keyed (sound : Sound order driver state) {sockfd : Int32} {sock : ConnectedSocket}
    (found : state.sender.connectedSockets.find sockfd = some sock) : sock.socketFD = sockfd := by
  obtain ⟨history, run, once, _⟩ := sound
  exact (Sending.run_books (run_sender run) once).keyed sockfd sock found

theorem Sound.intact (sound : Sound order driver state) {sockfd : Int32} {sock : ConnectedSocket}
    (found : state.sender.connectedSockets.find sockfd = some sock) {now : TrollMessage}
    (member : now ∈ Sending.unacked sock) : now.Intact := by
  obtain ⟨history, run, once, _⟩ := sound
  exact (((Sending.run_books (run_sender run) once).booked sockfd sock found).genuine now member).intact

theorem Sound.counted (sound : Sound order driver state) :
    state.sender.inBufferPackages = Sending.held state.sender := by
  obtain ⟨history, run, once, _⟩ := sound
  exact Sending.run_counted (run_sender run) once

theorem step_base {sender sender' : Sender} {event : SenderEvent} {emitted : List SenderEffect}
    (uncalled : Uncalled (.sender event))
    (move : Sending.SenderMove order sender event sender' emitted) (sockfd : Int32) :
    (sender'.connectedSockets.find sockfd).map ConnectedSocket.base =
      (sender.connectedSockets.find sockfd).map ConnectedSocket.base := by
  cases move with
  | connect | send => exact absurd uncalled id
  | garbled | unmatched | stale => rfl
  | acked other ack now estimator sock before message after intact found
  | expire expired other sock before message after found =>
    rw [Table.find_insert_eq]
    split
    next same => rw [same, found, Option.map_some, Option.map_some]
    · rfl
  | solve clock sender' effects ran =>
    rw [Sending.solveSend_find ran, Option.map_map]
    rfl

end Sound

section Waiting

theorem all_expire (list : List TimerNode) :
    ∃ elapsedSeconds : Rat, ∀ leftover : Rat, leftover ≤ -elapsedSeconds →
      (sendCallbacks (carryOver leftover list)).1 = [] := by
  induction list with
  | nil => exact ⟨0, fun _ _ => rfl⟩
  | cons l rest ih =>
    obtain ⟨elapsedSeconds, expire⟩ := ih
    refine ⟨max l.remainSeconds (elapsedSeconds + l.remainSeconds), ?_⟩
    intro leftover long
    have first := le_max_left l.remainSeconds (elapsedSeconds + l.remainSeconds)
    have others := le_max_right l.remainSeconds (elapsedSeconds + l.remainSeconds)
    have due : ¬ l.remainSeconds + leftover > 0 := by linarith
    have later := expire (l.remainSeconds + leftover) (by linarith)
    simp only [carryOver, due, if_false, sendCallbacks]
    exact later

theorem reads_requests (order : IterOrder Int32) (driver : SockAddr) (state : TimedSender) :
    ∃ state', Machine.Reaches (TimedSender.step order driver) Alone state state' ∧
      state'.requests = [] := by
  have lower (state : TimedSender) (left : state.requests.length ≠ 0) :
      ∃ state', Machine.Reaches (TimedSender.step order driver) Alone state state' ∧ True ∧
        state'.requests.length < state.requests.length := by
    obtain ⟨request, rest, shape⟩ := List.exists_cons_of_ne_nil
      (List.ne_nil_of_length_pos (Nat.pos_of_ne_zero left))
    have delivers : state.Delivers (.timer 0 true) := by
      change state.requests ≠ []
      rw [shape]
      exact List.cons_ne_nil request rest
    refine ⟨_, .single (if_pos delivers) (show Alone (.timer 0 true) from trivial), trivial, ?_⟩
    simp [shape]
  obtain ⟨state', reaches, _, none⟩ :=
    Machine.Reaches.descend (fun _ => True) (fun state : TimedSender => state.requests.length)
      (fun state _ => lower state) (show (fun _ => True) state from trivial)
  exact ⟨state', reaches, List.eq_nil_of_length_eq_zero none⟩

theorem timer_runs_out (order : IterOrder Int32) (driver : SockAddr)
    (read : state.requests = []) :
    ∃ state', Machine.Reaches (TimedSender.step order driver) Alone state state' ∧
      state'.requests = [] ∧ state'.timerList = [] := by
  obtain ⟨elapsedSeconds, expire⟩ := all_expire state.timerList
  have delivers : state.Delivers (.timer elapsedSeconds false) := trivial
  refine ⟨_, .single (if_pos delivers) trivial, read, ?_⟩
  exact expire (-elapsedSeconds) le_rfl

theorem reads_notifications (sound : Sound order driver state) (read : state.requests = [])
    (empty : state.timerList = []) :
    ∃ state', Machine.Reaches (TimedSender.step order driver) Alone state state' ∧
      Sound order driver state' ∧ state'.requests = [] ∧ state'.timerList = [] ∧
      state'.notifications = [] := by
  have lower (state : TimedSender)
      (holds : Sound order driver state ∧ state.requests = [] ∧ state.timerList = [])
      (left : state.notifications.length ≠ 0) :
      ∃ state', Machine.Reaches (TimedSender.step order driver) Alone state state' ∧
        (Sound order driver state' ∧ state'.requests = [] ∧ state'.timerList = []) ∧
        state'.notifications.length < state.notifications.length := by
    obtain ⟨sound, read, empty⟩ := holds
    obtain ⟨expired, rest, shape⟩ := List.exists_cons_of_ne_nil
      (List.ne_nil_of_length_pos (Nat.pos_of_ne_zero left))
    obtain ⟨history, run, once, distinct⟩ := sound
    obtain ⟨⟨sender, emitted⟩, answer⟩ :=
      (one_timeout run once distinct).2 expired (by simp [shape])
    have delivers : state.Delivers (.sender (.expired expired)) := by
      change state.notifications.head? = some expired
      rw [shape, List.head?_cons]
    have stepped : Sender.step order state.sender (.expired expired) = .ok (sender, emitted) := answer
    have taken : TimedSender.step order driver state (.sender (.expired expired)) = .ok _ :=
      step_sender (.expired expired) delivers stepped
    -- A notification asks nothing of the timer.
    have silent : emitted.filterMap SenderEffect.request? = [] := by
      cases Sending.step_move stepped <;> rfl
    have sound : Sound order driver state := ⟨history, run, once, distinct⟩
    have uncalled : Uncalled (.sender (.expired expired)) := trivial
    refine ⟨_, .single taken trivial, ⟨sound.next uncalled taken, ?_, empty⟩, ?_⟩
    · rw [silent, read, List.append_nil]
    · simp [remainingNotifications, shape]
  obtain ⟨state', reaches, ⟨sound', read', empty'⟩, none⟩ :=
    Machine.Reaches.descend _ (fun state : TimedSender => state.notifications.length) lower
      ⟨sound, read, empty⟩
  exact ⟨state', reaches, sound', read', empty', List.eq_nil_of_length_eq_zero none⟩

/-- Nothing in flight can stay there for good: with time alone, every package comes back. -/
theorem all_return (sound : Sound order driver state) :
    ∃ state', Machine.Reaches (TimedSender.step order driver) Alone state state' ∧
      Sound order driver state' ∧
      ∀ sockfd sock, state'.sender.connectedSockets.find sockfd = some sock → sock.packages = [] := by
  have kept (first last : TimedSender) (sound : Sound order driver first)
      (reaches : Machine.Reaches (TimedSender.step order driver) Alone first last) :
      Sound order driver last :=
    reaches.invariant (Sound order driver)
      (fun _ _ _ _ alone sound taken => sound.next alone.uncalled taken) sound
  obtain ⟨asked, toAsked, read⟩ := reads_requests order driver state
  obtain ⟨due, toDue, read, empty⟩ := timer_runs_out order driver read
  have toDue := toAsked.trans toDue
  obtain ⟨last, toLast, sound', read, empty, told⟩ :=
    reads_notifications (kept state due sound toDue) read empty
  refine ⟨last, toDue.trans toLast, sound', ?_⟩
  intro sockfd sock found
  rw [List.eq_nil_iff_forall_not_mem]
  intro now flying
  -- A package in flight has a request, a node or a notification.
  have running := (sound'.timeouts.timed sockfd sock found).running now flying
  unfold Running live at running
  rw [read, empty, told] at running
  rcases running with ⟨count, line, _⟩ | ⟨_, alive⟩
  · simp [Timer.asked] at line
  · simp [items, entries, armed] at alive

end Waiting

end NetworkProj.Timer
