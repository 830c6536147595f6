import NetworkProj.Model.TimedSender
import NetworkProj.Sender.Bookkeeping
import NetworkProj.Timer.Items

set_option autoImplicit false

namespace NetworkProj.Timer

section Keys

def keyOf (now : TrollMessage) : TimerExpired :=
  ⟨now.session.toInt32, now.seqNum.toInt32⟩

/-- What the channel will ask of the timer of a key, in order. -/
def asked (key : TimerExpired) (requests : List TimerRequest) : List TimerRequestType :=
  requests.filterMap fun request =>
    if requestKey request = key then some request.type else none

@[simp] theorem asked_append (key : TimerExpired) (left right : List TimerRequest) :
    asked key (left ++ right) = asked key left ++ asked key right :=
  List.filterMap_append

theorem asked_own {key : TimerExpired} {request : TimerRequest}
    (own : requestKey request = key) (rest : List TimerRequest) :
    asked key (request :: rest) = request.type :: asked key rest := by
  simp [asked, own]

theorem asked_other {key : TimerExpired} {request : TimerRequest}
    (other : requestKey request ≠ key) (rest : List TimerRequest) :
    asked key (request :: rest) = asked key rest := by
  simp [asked, other]

def live (key : TimerExpired) (state : TimedSender) : Nat :=
  armed key (items state.timerList) + state.notifications.count key

structure Quiet (key : TimerExpired) (state : TimedSender) : Prop where
  cancels : ∀ type ∈ asked key state.requests, type = .cancel
  dead : live key state = 0

/-- One Start behind any number of Cancels, or one node or notification that nothing will cancel. -/
def Running (key : TimerExpired) (state : TimedSender) : Prop :=
  (∃ count, asked key state.requests = List.replicate count .cancel ++ [.start] ∧
      live key state = 0) ∨
    asked key state.requests = [] ∧ live key state = 1

def Stirs (key : TimerExpired) (state : TimedSender) : Prop :=
  .start ∈ asked key state.requests ∨ 0 < live key state

theorem quiet_of_not_stirs {key : TimerExpired} {state : TimedSender} (still : ¬ Stirs key state) :
    Quiet key state := by
  constructor
  · intro type member
    cases type with
    | cancel => rfl
    | start => exact absurd (.inl member) still
  · by_contra positive
    exact still (.inr (Nat.pos_of_ne_zero positive))

end Keys

section Iterations

variable {order : IterOrder Int32} {driver : SockAddr} {state state' : TimedSender}
  {event : TimedEvent} {emitted : List TimedEffect}

inductive TimedMove (order : IterOrder Int32) (driver : SockAddr) (state : TimedSender) :
    TimedEvent → TimedSender → List TimedEffect → Prop where
  | sender (event : SenderEvent) (sender : Sender) (emitted : List SenderEffect)
      (delivers : state.Delivers (.sender event))
      (taken : Sender.step order state.sender event = .ok (sender, emitted)) :
      TimedMove order driver state (.sender event)
        { state with
          sender
          requests := state.requests ++ emitted.filterMap SenderEffect.request?
          notifications := remainingNotifications state.notifications event }
        (emitted.map .sender)
  | timer (elapsedSeconds : Rat) (ready : Bool) (request : Option TimerRequest)
      (rest : List TimerRequest) (timerList : List TimerNode) (sent : List (SockAddr × TimerExpired))
      (read : state.requests = request.toList ++ rest)
      (ran : timerRound state.timerList
        ⟨elapsedSeconds, request.map fun request => (request, driver)⟩ = (timerList, sent)) :
      TimedMove order driver state (.timer elapsedSeconds ready)
        { state with
          requests := rest
          timerList
          notifications := state.notifications ++ notificationsTo driver sent }
        (sent.map fun notification => .timer notification.1 notification.2)

theorem step_timed (taken : TimedSender.step order driver state event = .ok (state', emitted)) :
    TimedMove order driver state event state' emitted := by
  unfold TimedSender.step at taken
  split at taken
  next delivers =>
    cases event with
    | sender event =>
      dsimp only at taken
      split at taken
      · cases taken
      next sender emitted stepped =>
        cases taken
        exact .sender event sender emitted delivers stepped
    | timer elapsedSeconds ready =>
      cases ready with
      | false =>
        cases taken
        exact .timer elapsedSeconds false none state.requests _ _ rfl rfl
      | true =>
        obtain ⟨request, rest, shape⟩ := List.exists_cons_of_ne_nil delivers
        simp only [shape, if_true, List.head?_cons, List.tail_cons] at taken
        cases taken
        exact .timer elapsedSeconds true (some request) rest _ _ shape rfl
  · cases taken

theorem step_sender (event : SenderEvent) {sender : Sender} {emitted : List SenderEffect}
    (delivers : state.Delivers (.sender event))
    (taken : Sender.step order state.sender event = .ok (sender, emitted)) :
    TimedSender.step order driver state (.sender event) =
      .ok ({ state with
          sender
          requests := state.requests ++ emitted.filterMap SenderEffect.request?
          notifications := remainingNotifications state.notifications event },
        emitted.map .sender) := by
  simp [TimedSender.step, delivers, taken]

theorem count_notificationsTo {sent : List TimerItem} (addressed : Addressed driver sent)
    (key : TimerExpired) : (notificationsTo driver sent).count key = armed key sent := by
  have all : sent.filter (fun notification => notification.1 == driver) = sent := by
    apply List.filter_eq_self.mpr
    intro item member
    simpa using addressed item member
  rw [notificationsTo, all, List.count, List.countP_map, armed]
  congr 1

theorem timer_live (addressed : Addressed driver (items state.timerList)) {elapsedSeconds : Rat}
    {request : Option TimerRequest} {timerList : List TimerNode}
    {sent : List (SockAddr × TimerExpired)}
    (ran : timerRound state.timerList
      ⟨elapsedSeconds, request.map fun request => (request, driver)⟩ = (timerList, sent))
    (rest : List TimerRequest) (key : TimerExpired) :
    live key { state with
        requests := rest
        timerList
        notifications := state.notifications ++ notificationsTo driver sent } =
      adjusted key (armed key (items state.timerList)) request + state.notifications.count key := by
  have count := armed_round key state.timerList elapsedSeconds request driver
  have kept := addressed_round addressed elapsedSeconds request
  simp only [ran] at count kept
  rw [live, List.count_append, count_notificationsTo kept.1]
  dsimp only
  omega

variable {key : TimerExpired} {request : Option TimerRequest} {rest : List TimerRequest}

theorem quiet_iteration (quiet : Quiet key state) (read : state.requests = request.toList ++ rest)
    (requests : state'.requests = rest)
    (alive : live key state' =
      adjusted key (armed key (items state.timerList)) request + state.notifications.count key) :
    Quiet key state' := by
  have dead := quiet.dead
  have cancels := quiet.cancels
  rw [read] at cancels
  unfold live at dead
  constructor
  · rw [requests]
    intro type member
    exact cancels type (by simp [member])
  · rw [alive]
    cases request with
    | none =>
      simp only [adjusted]
      omega
    | some request =>
      by_cases own : requestKey request = key
      · have cancel := cancels request.type (by simp [asked_own own])
        simp only [adjusted, own, if_true, cancel]
        omega
      · simp only [adjusted, own, if_false]
        omega

theorem running_iteration (running : Running key state)
    (read : state.requests = request.toList ++ rest) (requests : state'.requests = rest)
    (alive : live key state' =
      adjusted key (armed key (items state.timerList)) request + state.notifications.count key) :
    Running key state' := by
  unfold Running at running ⊢
  rw [read] at running
  rw [requests, alive]
  unfold live at running
  cases request with
  | none => simpa [adjusted] using running
  | some request =>
    by_cases own : requestKey request = key
    · simp only [Option.toList_some, List.singleton_append, asked_own own] at running
      rcases running with ⟨count, line, dead⟩ | ⟨line, _⟩
      · cases count with
        | zero =>
          -- The Start is read, and its node is fired at once or not.
          simp only [List.replicate_zero, List.nil_append, List.cons.injEq] at line
          refine .inr ⟨line.2, ?_⟩
          simp only [adjusted, own, if_true, line.1]
          omega
        | succ count =>
          simp only [List.replicate_succ, List.cons_append, List.cons.injEq] at line
          refine .inl ⟨count, line.2, ?_⟩
          simp only [adjusted, own, if_true, line.1]
          omega
      · cases line
    · simp only [Option.toList_some, List.singleton_append, asked_other own] at running
      simpa [adjusted, own] using running

theorem stirs_iteration (stirs : Stirs key state')
    (read : state.requests = request.toList ++ rest) (requests : state'.requests = rest)
    (alive : live key state' =
      adjusted key (armed key (items state.timerList)) request + state.notifications.count key) :
    Stirs key state := by
  by_contra still
  have quiet := quiet_iteration (quiet_of_not_stirs still) read requests alive
  rcases stirs with start | positive
  · cases quiet.cancels _ start
  · rw [quiet.dead] at positive
    exact Nat.lt_irrefl 0 positive

end Iterations

section Starts

variable {order : IterOrder Int32} {sender sender' : Sender} {clock : Nat → TimeVal}
  {effects : List SenderEffect} {key : TimerExpired}

def startsOf (key : TimerExpired) (messages : List TrollMessage) : List TimerRequestType :=
  messages.filterMap fun now => if keyOf now = key then some .start else none

theorem asked_starts {messages : List TrollMessage} {requests : List TimerRequest}
    (starts : Sending.StartsFor messages requests) (key : TimerExpired) :
    asked key requests = startsOf key messages := by
  induction starts with
  | nil => rfl
  | cons head _ ih =>
    obtain ⟨seconds, rfl⟩ := head
    simp only [asked, startsOf, List.filterMap_cons] at ih ⊢
    rw [ih]
    rfl

theorem startsOf_absent {messages : List TrollMessage}
    (absent : ∀ now ∈ messages, keyOf now ≠ key) : startsOf key messages = [] := by
  apply List.filterMap_eq_nil_iff.mpr
  intro now member
  exact if_neg (absent now member)

theorem startsOf_once {messages : List TrollMessage} {now : TrollMessage}
    (nodup : (messages.map TrollMessage.seqNum).Nodup) (member : now ∈ messages) :
    startsOf (keyOf now) messages = [.start] := by
  induction messages with
  | nil => cases member
  | cons head rest ih =>
    obtain ⟨fresh, nodup⟩ := List.nodup_cons.mp nodup
    have apart : ∀ tmp ∈ rest, keyOf tmp ≠ keyOf head := by
      intro tmp inside same
      apply fresh
      have seqNum : tmp.seqNum = head.seqNum := toInt32_inj (congrArg TimerExpired.seqNum same)
      rw [← seqNum]
      exact List.mem_map_of_mem inside
    rcases List.mem_cons.mp member with rfl | later
    · have none := startsOf_absent apart
      simpa [startsOf] using none
    · have head : keyOf head ≠ keyOf now := fun same => apart now later same.symm
      simpa [startsOf, head] using ih nodup later

variable (ran : solveSendCallback order sender clock = .ok (sender', effects))

include ran

theorem solveSend_request {request : TimerRequest}
    (member : request ∈ effects.filterMap SenderEffect.request?) :
    ∃ sockfd sock, sender.connectedSockets.find sockfd = some sock ∧
      ∃ now ∈ Sending.transmits sock, ∃ seconds,
        request = sendTimerRequest now.session now.seqNum seconds := by
  obtain ⟨effect, emits, same⟩ := List.mem_filterMap.mp member
  obtain ⟨sockfd, sock, found, now, sends, sent⟩ := Sending.solveSend_effect ran emits
  rcases sent with rfl | ⟨seconds, rfl⟩
  · cases same
  · cases same
    exact ⟨sockfd, sock, found, now, sends, seconds, rfl⟩

theorem solveSend_asked {sockfd : Int32} {sock : ConnectedSocket}
    (found : sender.connectedSockets.find sockfd = some sock)
    (elsewhere : ∀ other old, sender.connectedSockets.find other = some old → other ≠ sockfd →
      ∀ now ∈ Sending.transmits old, keyOf now ≠ key) :
    asked key (effects.filterMap SenderEffect.request?) =
      startsOf key (Sending.transmits sock) := by
  obtain ⟨_, sockets, swept, _⟩ := Sending.solveSend_swept ran
  have visit (shared : SendShared) (old : ConnectedSocket) :
      asked key ((solveSendSocket clock shared old).2.2.filterMap SenderEffect.request?) =
        startsOf key (Sending.transmits old) :=
    asked_starts (Sending.solveSendSocket_effects clock shared old).2 key
  simp only [asked, List.filterMap_filterMap] at visit ⊢
  have foreign : Table.Foreign (Sending.visitSocket clock)
      (fun effect => effect.request?.bind fun request =>
        if requestKey request = key then some request.type else none)
      sockfd (order.visit sender.connectedSockets.keys) sender.connectedSockets := by
    intro other _ different old present shared _ _ emitted visited
    rw [(Sending.visitSocket_ok visited).2, visit, startsOf_absent (elsewhere other old present different)]
  have inside : sockfd ∈ order.visit sender.connectedSockets.keys := by
    rw [order.mem, found]
    rfl
  obtain ⟨shared, _, final, emitted, visited, _, own⟩ :=
    Table.sweep_visited (order.nodup sender.connectedSockets) foreign swept inside found
  rw [own, (Sending.visitSocket_ok visited).2, visit]

end Starts

section Steps

variable {key : TimerExpired} {state state' : TimedSender} {sock : ConnectedSocket}

structure Same (key : TimerExpired) (state state' : TimedSender) : Prop where
  line : asked key state'.requests = asked key state.requests
  count : live key state' = live key state

theorem Same.quiet (same : Same key state state') (quiet : Quiet key state) : Quiet key state' :=
  ⟨same.line ▸ quiet.cancels, same.count.trans quiet.dead⟩

theorem Same.running (same : Same key state state') (running : Running key state) :
    Running key state' := by
  unfold Running
  rw [same.line, same.count]
  exact running

/-- Each package in flight on a socket has its timeout, and no other number has one that an ack has
not stopped. -/
structure Timed (sock : ConnectedSocket) (state : TimedSender) : Prop where
  running : ∀ now ∈ sock.packages, Running (keyOf now) state
  waiting : ∀ now ∈ sock.pendingPackages, Quiet (keyOf now) state
  fresh : ∀ seqNum : UInt32, sock.base ≤ seqNum →
    Quiet ⟨sock.session.toInt32, seqNum.toInt32⟩ state

theorem Timed.kept (timed : Timed sock state)
    (quiet : ∀ key : TimerExpired, key.session = sock.session.toInt32 → Quiet key state →
      Quiet key state')
    (own : ∀ now ∈ Sending.unacked sock, now.session = sock.session)
    {packages : List TrollMessage} (inside : packages ⊆ sock.packages)
    (running : ∀ now ∈ packages, Running (keyOf now) state → Running (keyOf now) state') :
    Timed { sock with packages } state' where
  running := fun now member => running now member (timed.running now (inside member))
  waiting := fun now member =>
    quiet _ (congrArg UInt32.toInt32 (own now (List.mem_append_right _ member)))
      (timed.waiting now member)
  fresh := fun seqNum above => quiet _ rfl (timed.fresh seqNum above)

theorem Timed.same (timed : Timed sock state)
    (same : ∀ key : TimerExpired, Same key state state') : Timed sock state' where
  running := fun now member => (same _).running (timed.running now member)
  waiting := fun now member => (same _).quiet (timed.waiting now member)
  fresh := fun seqNum above => (same _).quiet (timed.fresh seqNum above)

structure Timeouts (driver : SockAddr) (state : TimedSender) : Prop where
  addressed : Addressed driver (items state.timerList)
  known : ∀ key, Stirs key state → ∃ sockfd sock,
    state.sender.connectedSockets.find sockfd = some sock ∧ sock.session.toInt32 = key.session
  timed : ∀ sockfd sock, state.sender.connectedSockets.find sockfd = some sock → Timed sock state

/-- What the steps of the sending half rely on: each session belongs to one socket, and the packages
of a socket are numbered apart and below `Base`. -/
structure Orderly (sender : Sender) : Prop where
  unique : ∀ sockfd sockfd' sock sock', sender.connectedSockets.find sockfd = some sock →
    sender.connectedSockets.find sockfd' = some sock' → sock.session = sock'.session →
    sockfd = sockfd'
  own : ∀ sockfd sock, sender.connectedSockets.find sockfd = some sock →
    ∀ now ∈ Sending.unacked sock, now.session = sock.session ∧ now.seqNum < sock.base
  numbers : ∀ sockfd sock, sender.connectedSockets.find sockfd = some sock →
    ((Sending.unacked sock).map TrollMessage.seqNum).Nodup
  few : ∀ sockfd sock, sender.connectedSockets.find sockfd = some sock →
    sock.base.toNat + 1 < 2 ^ 32

variable {order : IterOrder Int32} {driver : SockAddr} (timeouts : Timeouts driver state)
  (orderly : Orderly state.sender)

include timeouts in
theorem timeouts_connect {sockfd : Int32} {addr : SockAddr} {rand : UInt32} {estimator : Estimator}
    {inBufferPackages : Int} (fresh : state.sender.connectedSockets.find sockfd = none)
    (distinct : ∀ other sock, state.sender.connectedSockets.find other = some sock →
      sock.session ≠ rand) :
    Timeouts driver { state with
      sender := ⟨state.sender.connectedSockets.insert sockfd (newSock sockfd addr rand),
        inBufferPackages, estimator⟩ } where
  addressed := timeouts.addressed
  known := by
    intro key stirs
    obtain ⟨other, sock, found, same⟩ := timeouts.known key stirs
    refine ⟨other, sock, ?_, same⟩
    have different : other ≠ sockfd := by
      rintro rfl
      cases fresh.symm.trans found
    exact (Table.find_insert_of_ne _ _ _ _ different).trans found
  timed := by
    intro other sock found
    rcases Table.find_insert_some found with ⟨_, rfl⟩ | ⟨_, present⟩
    · refine ⟨nofun, nofun, ?_⟩
      intro seqNum _
      apply quiet_of_not_stirs
      intro stirs
      obtain ⟨old, sock, present, same⟩ := timeouts.known _ stirs
      exact distinct old sock present (toInt32_inj same)
    · exact (timeouts.timed other sock present).same fun _ => ⟨rfl, rfl⟩

theorem known_finds {sender : Sender} {sockfd : Int32} {sock sock' : ConnectedSocket}
    (found : state.sender.connectedSockets.find sockfd = some sock)
    (finds : ∀ other, sender.connectedSockets.find other =
      if other = sockfd then some sock' else state.sender.connectedSockets.find other)
    (session : sock'.session = sock.session)
    (known : ∃ other old, state.sender.connectedSockets.find other = some old ∧
      old.session.toInt32 = key.session) :
    ∃ other old, sender.connectedSockets.find other = some old ∧
      old.session.toInt32 = key.session := by
  obtain ⟨other, old, present, same⟩ := known
  by_cases here : other = sockfd
  · subst here
    obtain rfl := Option.some.inj (found.symm.trans present)
    exact ⟨other, sock', (finds other).trans (if_pos rfl), by rw [session, same]⟩
  · exact ⟨other, old, by rw [finds, if_neg here, present], same⟩

include timeouts orderly in
theorem timeouts_send {sockfd : Int32} {len : UInt64} {body : Block bufLen} {malloc : TrollMessage}
    {estimator : Estimator} {inBufferPackages : Int}
    (found : state.sender.connectedSockets.find sockfd = some sock) :
    Timeouts driver { state with
      sender := ⟨state.sender.connectedSockets.insert sockfd
          { sock with
            base := sock.base + 1
            pendingPackages := sock.pendingPackages ++ [wrapPackage sock len body malloc] },
        inBufferPackages, estimator⟩ } where
  addressed := timeouts.addressed
  known := fun key stirs =>
    known_finds found (Table.find_insert_eq _ _ · _) rfl (timeouts.known key stirs)
  timed := by
    intro other sock' found'
    rcases Table.find_insert_some found' with ⟨_, rfl⟩ | ⟨_, present⟩
    · have same (key : TimerExpired) : Same key state { state with
          sender := ⟨state.sender.connectedSockets.insert sockfd
              { sock with
                base := sock.base + 1
                pendingPackages := sock.pendingPackages ++ [wrapPackage sock len body malloc] },
            inBufferPackages, estimator⟩ } := ⟨rfl, rfl⟩
      have timed := (timeouts.timed sockfd sock found).same same
      refine ⟨timed.running, ?_, ?_⟩
      · intro now member
        rcases List.mem_append.mp member with old | new
        · exact timed.waiting now old
        · rw [List.mem_singleton.mp new]
          exact timed.fresh sock.base (UInt32.le_refl _)
      · intro seqNum above
        have few := orderly.few sockfd sock found
        have base := toNat_succ few
        apply timed.fresh seqNum
        change sock.base + 1 ≤ seqNum at above
        rw [UInt32.le_iff_toNat_le, base] at above
        rw [UInt32.le_iff_toNat_le]
        omega
    · exact (timeouts.timed other sock' present).same fun _ => ⟨rfl, rfl⟩

theorem cancel_asked (session seqNum : UInt32) (key : TimerExpired) :
    asked key [cancelTimerRequest session seqNum] =
      if (⟨session.toInt32, seqNum.toInt32⟩ : TimerExpired) = key then [.cancel] else [] := by
  by_cases own : (⟨session.toInt32, seqNum.toInt32⟩ : TimerExpired) = key
  · rw [if_pos own]
    exact asked_own own []
  · rw [if_neg own]
    exact asked_other own []

theorem cancelled_quiet {session seqNum : UInt32} (quiet : Quiet key state)
    (requests : state'.requests = state.requests ++ [cancelTimerRequest session seqNum])
    (count : live key state' = live key state) : Quiet key state' := by
  refine ⟨?_, count.trans quiet.dead⟩
  intro type member
  rw [requests, asked_append, cancel_asked] at member
  rcases List.mem_append.mp member with old | new
  · exact quiet.cancels type old
  · split at new
    · exact List.mem_singleton.mp new
    · cases new

theorem cancelled_other {session seqNum : UInt32}
    (requests : state'.requests = state.requests ++ [cancelTimerRequest session seqNum])
    (count : live key state' = live key state)
    (other : (⟨session.toInt32, seqNum.toInt32⟩ : TimerExpired) ≠ key) : Same key state state' :=
  ⟨by rw [requests, asked_append, cancel_asked, if_neg other, List.append_nil], count⟩

include timeouts orderly in
theorem timeouts_ack {sender : Sender} {sockfd : Int32} {ack : TrollAck}
    {packages : List TrollMessage}
    (found : state.sender.connectedSockets.find sockfd = some sock)
    (finds : ∀ other, sender.connectedSockets.find other =
      if other = sockfd then some { sock with packages }
      else state.sender.connectedSockets.find other)
    (delivers : ∀ other old, state.sender.connectedSockets.find other = some old →
      old.session = ack.session → other = sockfd)
    (inside : packages ⊆ sock.packages)
    (absent : ∀ now ∈ packages, ¬ (now.session = ack.session ∧ now.seqNum = ack.seqNum)) :
    Timeouts driver { state with
      sender, requests := state.requests ++ [cancelTimerRequest ack.session ack.seqNum] } where
  addressed := timeouts.addressed
  known := by
    intro key stirs
    have before : Stirs key state := by
      rcases stirs with start | positive
      · rw [asked_append, cancel_asked] at start
        rcases List.mem_append.mp start with old | new
        · exact .inl old
        · split at new
          · cases List.mem_singleton.mp new
          · cases new
      · exact .inr positive
    exact known_finds found finds rfl (timeouts.known key before)
  timed := by
    intro other sock' found'
    rw [finds] at found'
    split at found'
    · cases found'
      apply (timeouts.timed sockfd sock found).kept
      · exact fun key _ quiet => cancelled_quiet quiet rfl rfl
      · exact fun now member => (orderly.own sockfd sock found now member).1
      · exact inside
      · intro now member
        refine Same.running (cancelled_other rfl rfl ?_)
        intro same
        exact absent now member ⟨(toInt32_inj (congrArg TimerExpired.session same)).symm,
          (toInt32_inj (congrArg TimerExpired.seqNum same)).symm⟩
    next different =>
      apply (timeouts.timed other sock' found').kept
      · exact fun key _ quiet => cancelled_quiet quiet rfl rfl
      · exact fun now member => (orderly.own other sock' found' now member).1
      · exact List.Subset.refl _
      · intro now member
        refine Same.running (cancelled_other rfl rfl ?_)
        intro same
        apply different
        apply delivers other sock' found'
        rw [← (orderly.own other sock' found' now (List.mem_append_left _ member)).1]
        exact (toInt32_inj (congrArg TimerExpired.session same)).symm

section Expiry

variable {expired : TimerExpired} {rest : List TimerExpired} {sender : Sender}
  (read : state.notifications = expired :: rest)

include read

theorem live_read (sender : Sender) (key : TimerExpired) :
    live key state =
      live key { state with sender, notifications := rest } + if expired = key then 1 else 0 := by
  simp only [live, read, List.count_cons, beq_iff_eq]
  omega

theorem read_other (other : expired ≠ key) :
    Same key state { state with sender, notifications := rest } := by
  refine ⟨rfl, ?_⟩
  have count := live_read read sender key
  rw [if_neg other] at count
  exact count.symm

theorem read_quiet (quiet : Quiet key state) :
    Quiet key { state with sender, notifications := rest } := by
  have count := live_read read sender key
  rw [quiet.dead] at count
  exact ⟨quiet.cancels, by omega⟩

theorem read_running (running : Running expired state) :
    Quiet expired { state with sender, notifications := rest } := by
  have count := live_read read sender expired
  rw [if_pos rfl] at count
  rcases running with ⟨_, _, dead⟩ | ⟨line, alive⟩
  · omega
  · refine ⟨?_, by omega⟩
    intro type member
    rw [show asked expired state.requests = [] from line] at member
    cases member

include timeouts orderly in
theorem timeouts_expired {sockfd : Int32} {packages pending : List TrollMessage}
    (found : state.sender.connectedSockets.find sockfd = some sock)
    (session : sock.session.toInt32 = expired.session)
    (finds : ∀ other, sender.connectedSockets.find other =
      if other = sockfd then some { sock with packages, pendingPackages := pending }
      else state.sender.connectedSockets.find other)
    (inside : packages ⊆ sock.packages) (absent : ∀ now ∈ packages, expired ≠ keyOf now)
    (moved : ∀ now ∈ pending, now ∈ sock.pendingPackages ∨
      now ∈ sock.packages ∧ keyOf now = expired) :
    Timeouts driver { state with sender, notifications := rest } where
  addressed := timeouts.addressed
  known := by
    intro key stirs
    have before : Stirs key state := by
      by_contra still
      have quiet : Quiet key { state with sender, notifications := rest } :=
        read_quiet read (quiet_of_not_stirs still)
      rcases stirs with start | positive
      · cases quiet.cancels _ start
      · exact absurd quiet.dead (Nat.ne_of_gt positive)
    exact known_finds found finds rfl (timeouts.known key before)
  timed := by
    intro other sock' found'
    rw [finds] at found'
    split at found'
    · cases found'
      have timed := timeouts.timed sockfd sock found
      refine ⟨?_, ?_, fun seqNum above => read_quiet read (timed.fresh seqNum above)⟩
      · intro now member
        exact (read_other read (absent now member)).running (timed.running now (inside member))
      · intro now member
        rcases moved now member with old | ⟨flying, same⟩
        · exact read_quiet read (timed.waiting now old)
        · have running := timed.running now flying
          rw [same] at running ⊢
          exact read_running read running
    next different =>
      apply (timeouts.timed other sock' found').kept
      · exact fun key _ quiet => read_quiet read quiet
      · exact fun now member => (orderly.own other sock' found' now member).1
      · exact List.Subset.refl _
      · intro now member
        refine Same.running (read_other read ?_)
        intro same
        apply different
        apply orderly.unique other sockfd sock' sock found' found
        rw [← (orderly.own other sock' found' now (List.mem_append_left _ member)).1]
        apply toInt32_inj
        rw [session]
        exact (congrArg TimerExpired.session same).symm

end Expiry

section Transmission

variable {clock : Nat → TimeVal} {sender : Sender} {effects : List SenderEffect}
  (ran : solveSendCallback order state.sender clock = .ok (sender, effects))

include timeouts orderly ran

theorem timeouts_solve :
    Timeouts driver { state with
      sender, requests := state.requests ++ effects.filterMap SenderEffect.request? } where
  addressed := timeouts.addressed
  known := by
    intro key stirs
    have origin : ∃ sockfd sock, state.sender.connectedSockets.find sockfd = some sock ∧
        sock.session.toInt32 = key.session := by
      rcases stirs with start | positive
      · rw [asked_append] at start
        rcases List.mem_append.mp start with old | new
        · exact timeouts.known key (.inl old)
        · obtain ⟨request, member, same⟩ := List.mem_filterMap.mp new
          obtain ⟨sockfd, sock, found, now, pending, seconds, rfl⟩ := solveSend_request ran member
          split at same
          next own =>
            refine ⟨sockfd, sock, found, ?_⟩
            rw [← (orderly.own sockfd sock found now
              (List.mem_append_right _ (List.mem_of_mem_filter pending))).1]
            exact congrArg TimerExpired.session own
          · cases same
      · exact timeouts.known key (.inr positive)
    obtain ⟨sockfd, sock, found, same⟩ := origin
    exact ⟨sockfd, Sending.transmitted sock, by rw [Sending.solveSend_find ran, found]; rfl, same⟩
  timed := by
    intro sockfd sock' found'
    rw [Sending.solveSend_find ran] at found'
    obtain ⟨sock, found, rfl⟩ := Option.map_eq_some_iff.mp found'
    have timed := timeouts.timed sockfd sock found
    have own := orderly.own sockfd sock found
    -- Only the sends of this socket reach the keys of its session.
    have line (key : TimerExpired) (session : key.session = sock.session.toInt32) :
        asked key (state.requests ++ effects.filterMap SenderEffect.request?) =
          asked key state.requests ++ startsOf key (Sending.transmits sock) := by
      rw [asked_append, solveSend_asked ran found]
      intro other old present different now member same
      apply different
      apply orderly.unique other sockfd old sock present found
      rw [← (orderly.own other old present now
        (List.mem_append_right _ (List.mem_of_mem_filter member))).1]
      apply toInt32_inj
      rw [← session]
      exact congrArg TimerExpired.session same
    have untouched (key : TimerExpired) (session : key.session = sock.session.toInt32)
        (absent : ∀ tmp ∈ Sending.transmits sock, keyOf tmp ≠ key) : Same key state { state with
          sender, requests := state.requests ++ effects.filterMap SenderEffect.request? } :=
      ⟨by rw [line key session, startsOf_absent absent, List.append_nil], rfl⟩
    have session (now : TrollMessage) (member : now ∈ Sending.unacked sock) :
        (keyOf now).session = sock.session.toInt32 :=
      congrArg UInt32.toInt32 (own now member).1
    have number {left right : TrollMessage} (same : keyOf left = keyOf right) :
        left.seqNum = right.seqNum := toInt32_inj (congrArg TimerExpired.seqNum same)
    have numbers := orderly.numbers sockfd sock found
    rw [Sending.unacked, List.map_append, List.nodup_append] at numbers
    have pending {now : TrollMessage} (member : now ∈ Sending.transmits sock) :
        now ∈ sock.pendingPackages := List.mem_of_mem_filter member
    constructor
    · intro now member
      rcases List.mem_append.mp member with old | new
      · apply (untouched _ (session now (List.mem_append_left _ old)) ?_).running
        · exact timed.running now old
        · intro tmp inside same
          exact numbers.2.2 _ (List.mem_map_of_mem old) _ (List.mem_map_of_mem (pending inside))
            (number same).symm
      · -- Only Cancels can be ahead of the Start.
        have quiet := timed.waiting now (pending new)
        refine .inl ⟨(asked (keyOf now) state.requests).length, ?_, quiet.dead⟩
        rw [← List.eq_replicate_of_mem quiet.cancels,
          line _ (session now (List.mem_append_right _ (pending new))), startsOf_once ?_ new]
        exact numbers.2.1.sublist (List.filter_sublist.map _)
    · intro now member
      have kept := List.mem_of_mem_filter member
      apply (untouched _ (session now (List.mem_append_right _ kept)) ?_).quiet
      · exact timed.waiting now kept
      · intro tmp inside same
        have sent := (List.mem_filter.mp inside).2
        have withheld := (List.mem_filter.mp member).2
        rw [decide_eq_true_eq] at sent withheld
        exact withheld (number same ▸ sent)
    · intro seqNum above
      apply (untouched ⟨sock.session.toInt32, seqNum.toInt32⟩ rfl ?_).quiet
      · exact timed.fresh seqNum above
      · intro tmp inside same
        have below := (own tmp (List.mem_append_right _ (pending inside))).2
        rw [toInt32_inj (congrArg TimerExpired.seqNum same : tmp.seqNum.toInt32 = _)] at below
        exact UInt32.not_lt.mpr above below

end Transmission

end Steps

end NetworkProj.Timer
