import NetworkProj.Model.Sender

set_option autoImplicit false

namespace NetworkProj.Sending

section Transmission

def limitOf (sock : ConnectedSocket) : UInt32 :=
  minSeqOf sock.packages + UInt32.ofNat maxBufferPackages

/-- The pending packages inside the window, which `SolveSendCallback` sends. -/
def transmits (sock : ConnectedSocket) : List TrollMessage :=
  sock.pendingPackages.filter fun now => now.seqNum < limitOf sock

def withholds (sock : ConnectedSocket) : List TrollMessage :=
  sock.pendingPackages.filter fun now => ¬ now.seqNum < limitOf sock

def transmitted (sock : ConnectedSocket) : ConnectedSocket :=
  { sock with
    minSeq := minSeqOf sock.packages
    packages := sock.packages ++ transmits sock
    pendingPackages := withholds sock }

def dataOn (sockfd : Int32) : SenderEffect → Option TrollMessage
  | .data other message => if other = sockfd then some message else none
  | _ => none

def StartsFor (messages : List TrollMessage) (requests : List TimerRequest) : Prop :=
  List.Forall₂ (fun message request =>
    ∃ seconds, request = sendTimerRequest message.session message.seqNum seconds) messages requests

theorem sendPending_pending (clock : Nat → TimeVal) (sockfd : Int32) (limit : UInt32)
    (shared : SendShared) (packages : List TrollMessage) :
    (sendPending clock sockfd limit shared packages).2.1 =
        packages.filter (fun now => ¬ now.seqNum < limit) ∧
      (sendPending clock sockfd limit shared packages).2.2.1 =
        packages.filter (fun now => now.seqNum < limit) := by
  induction packages generalizing shared with
  | nil => exact ⟨rfl, rfl⟩
  | cons now rest ih =>
    by_cases inside : now.seqNum < limit
    · have reached : ¬ now.seqNum ≥ limit := UInt32.not_le.mpr inside
      simp [sendPending, reached, inside, ih]
    · have reached : now.seqNum ≥ limit := UInt32.not_lt.mp inside
      simp [sendPending, reached, inside, ih]

theorem sendPending_effects (clock : Nat → TimeVal) (sockfd : Int32) (limit : UInt32)
    (shared : SendShared) (packages : List TrollMessage) :
    (∀ other, (sendPending clock sockfd limit shared packages).2.2.2.filterMap (dataOn other) =
        if sockfd = other then packages.filter (fun now => now.seqNum < limit) else []) ∧
      StartsFor (packages.filter fun now => now.seqNum < limit)
        ((sendPending clock sockfd limit shared packages).2.2.2.filterMap SenderEffect.request?) := by
  induction packages generalizing shared with
  | nil => exact ⟨by simp [sendPending], .nil⟩
  | cons now rest ih =>
    by_cases inside : now.seqNum < limit
    · have reached : ¬ now.seqNum ≥ limit := UInt32.not_le.mpr inside
      obtain ⟨data, timers⟩ := ih ((shared.1.sent (clock shared.2)), shared.2 + 1)
      constructor
      · intro other
        have later := data other
        by_cases same : sockfd = other
        · simpa [sendPending, reached, inside, List.filterMap_cons, dataOn, same] using later
        · simpa [sendPending, reached, List.filterMap_cons, dataOn, same] using later
      · simp only [sendPending, reached, if_false, List.filter_cons, inside, decide_true, if_true,
          List.filterMap_cons, SenderEffect.request?]
        exact .cons ⟨_, rfl⟩ timers
    · have reached : now.seqNum ≥ limit := UInt32.not_lt.mp inside
      simpa [sendPending, reached, inside] using ih shared

theorem sendPending_effect {clock : Nat → TimeVal} {sockfd : Int32} {limit : UInt32}
    {shared : SendShared} {packages : List TrollMessage} {effect : SenderEffect}
    (member : effect ∈ (sendPending clock sockfd limit shared packages).2.2.2) :
    ∃ now ∈ packages, now.seqNum < limit ∧ (effect = .data sockfd now ∨
      ∃ seconds, effect = .timer (sendTimerRequest now.session now.seqNum seconds)) := by
  induction packages generalizing shared with
  | nil => cases member
  | cons head rest ih =>
    by_cases reached : head.seqNum ≥ limit
    · simp only [sendPending, reached, if_true] at member
      obtain ⟨now, inside, sent⟩ := ih member
      exact ⟨now, List.mem_cons_of_mem _ inside, sent⟩
    · simp only [sendPending, reached, if_false, List.mem_cons] at member
      have within := UInt32.not_le.mp reached
      rcases member with data | timer | later
      · exact ⟨head, by simp, within, .inl data⟩
      · exact ⟨head, by simp, within, .inr ⟨_, timer⟩⟩
      · obtain ⟨now, inside, sent⟩ := ih later
        exact ⟨now, List.mem_cons_of_mem _ inside, sent⟩

theorem solveSendSocket_sock (clock : Nat → TimeVal) (shared : SendShared)
    (sock : ConnectedSocket) : (solveSendSocket clock shared sock).2.1 = transmitted sock := by
  obtain ⟨pending, sent⟩ := sendPending_pending clock sock.socketFD (limitOf sock) shared
    sock.pendingPackages
  unfold limitOf at pending sent
  simp only [solveSendSocket, pending, sent]
  rfl

theorem solveSendSocket_effects (clock : Nat → TimeVal) (shared : SendShared)
    (sock : ConnectedSocket) :
    (∀ other, (solveSendSocket clock shared sock).2.2.filterMap (dataOn other) =
        if sock.socketFD = other then transmits sock else []) ∧
      StartsFor (transmits sock) ((solveSendSocket clock shared sock).2.2.filterMap SenderEffect.request?) :=
  sendPending_effects clock sock.socketFD (limitOf sock) shared sock.pendingPackages

end Transmission

section Callback

variable {order : IterOrder Int32} {state state' : Sender} {clock : Nat → TimeVal}
  {effects : List SenderEffect}

def visitSocket (clock : Nat → TimeVal) (shared : SendShared) (_ : Int32) (sock : ConnectedSocket) :
    Except Stop (SendShared × ConnectedSocket × List SenderEffect) :=
  .ok (solveSendSocket clock shared sock)

theorem visitSocket_ok {shared next : SendShared} {sockfd : Int32} {sock final : ConnectedSocket}
    (visited : visitSocket clock shared sockfd sock = .ok (next, final, effects)) :
    final = transmitted sock ∧ effects = (solveSendSocket clock shared sock).2.2 := by
  have same := Except.ok.inj visited
  constructor
  · rw [← solveSendSocket_sock clock shared sock, same]
  · rw [same]

theorem solveSend_total (order : IterOrder Int32) (state : Sender) (clock : Nat → TimeVal) :
    ∃ state' effects, solveSendCallback order state clock = .ok (state', effects) := by
  have total : ∃ answer, Table.sweep (visitSocket clock) (order.visit state.connectedSockets.keys)
      (state.estimator, 0) state.connectedSockets = .ok answer :=
    Table.sweep_total (order.nodup state.connectedSockets) _ _ fun _ _ _ _ _ => ⟨_, rfl⟩
  obtain ⟨⟨shared, sockets, effects⟩, swept⟩ := total
  unfold visitSocket at swept
  refine ⟨{ state with connectedSockets := sockets, estimator := shared.1 }, effects, ?_⟩
  simp only [solveSendCallback, swept]

variable (ran : solveSendCallback order state clock = .ok (state', effects))

include ran

theorem solveSend_swept :
    ∃ shared sockets, Table.sweep (visitSocket clock) (order.visit state.connectedSockets.keys)
        (state.estimator, 0) state.connectedSockets = .ok (shared, sockets, effects) ∧
      state' = { state with connectedSockets := sockets, estimator := shared.1 } := by
  unfold solveSendCallback at ran
  split at ran
  · cases ran
  next swept =>
    cases ran
    exact ⟨_, _, swept, rfl⟩

theorem solveSend_keys : state'.connectedSockets.keys = state.connectedSockets.keys := by
  obtain ⟨_, sockets, swept, rfl⟩ := solveSend_swept ran
  exact Table.sweep_keys swept

theorem solveSend_find (sockfd : Int32) :
    state'.connectedSockets.find sockfd =
      (state.connectedSockets.find sockfd).map transmitted := by
  obtain ⟨_, sockets, swept, rfl⟩ := solveSend_swept ran
  cases found : state.connectedSockets.find sockfd with
  | none =>
    have outside : sockfd ∉ order.visit state.connectedSockets.keys := by
      rw [order.mem, found]
      simp
    exact (Table.sweep_unvisited swept outside).trans found
  | some sock =>
    have inside : sockfd ∈ order.visit state.connectedSockets.keys := by
      rw [order.mem, found]
      simp
    have foreign : Table.Foreign (visitSocket clock) (fun _ => (none : Option Unit)) sockfd
        (order.visit state.connectedSockets.keys) state.connectedSockets := by
      intro _ _ _ _ _ _ _ _ emitted _
      induction emitted <;> simp_all
    obtain ⟨_, _, final, _, visited, found', _⟩ :=
      Table.sweep_visited (order.nodup state.connectedSockets) foreign swept inside found
    rw [(visitSocket_ok visited).1] at found'
    exact found'

theorem solveSend_inBufferPackages : state'.inBufferPackages = state.inBufferPackages := by
  obtain ⟨_, sockets, swept, rfl⟩ := solveSend_swept ran
  rfl

theorem solveSend_effect {effect : SenderEffect} (member : effect ∈ effects) :
    ∃ sockfd sock, state.connectedSockets.find sockfd = some sock ∧ ∃ now ∈ transmits sock,
      effect = .data sock.socketFD now ∨
        ∃ seconds, effect = .timer (sendTimerRequest now.session now.seqNum seconds) := by
  obtain ⟨_, sockets, swept, _⟩ := solveSend_swept ran
  obtain ⟨sockfd, _, sock, found, shared, _, _, emitted, visited, inside⟩ :=
    Table.sweep_emits (order.nodup state.connectedSockets) swept member
  rw [(visitSocket_ok visited).2] at inside
  obtain ⟨now, pending, within, sent⟩ := sendPending_effect inside
  exact ⟨sockfd, sock, found, now, List.mem_filter.mpr ⟨pending, decide_eq_true within⟩, sent⟩

theorem solveSend_data
    (keyed : ∀ sockfd sock, state.connectedSockets.find sockfd = some sock → sock.socketFD = sockfd)
    (sockfd : Int32) :
    effects.filterMap (dataOn sockfd) =
      ((state.connectedSockets.find sockfd).map transmits).getD [] := by
  obtain ⟨_, sockets, swept, rfl⟩ := solveSend_swept ran
  have foreign : Table.Foreign (visitSocket clock) (dataOn sockfd) sockfd
      (order.visit state.connectedSockets.keys) state.connectedSockets := by
    intro other _ different old found shared _ _ emitted visited
    rw [(visitSocket_ok visited).2, (solveSendSocket_effects clock shared old).1, if_neg]
    rw [keyed other old found]
    exact different
  have nodup := order.nodup state.connectedSockets
  cases found : state.connectedSockets.find sockfd with
  | none =>
    have outside : sockfd ∉ order.visit state.connectedSockets.keys := by
      rw [order.mem, found]
      simp
    exact Table.sweep_foreign nodup foreign outside swept
  | some sock =>
    have inside : sockfd ∈ order.visit state.connectedSockets.keys := by
      rw [order.mem, found]
      simp
    obtain ⟨shared, _, final, emitted, visited, _, own⟩ :=
      Table.sweep_visited nodup foreign swept inside found
    rw [own, (visitSocket_ok visited).2, (solveSendSocket_effects clock shared sock).1,
      if_pos (keyed sockfd sock found)]
    rfl

end Callback

section Steps

theorem findSession_some {order : IterOrder Int32} {state : Sender} {session : UInt32}
    {sockfd : Int32} {sock : ConnectedSocket}
    (found : findSession order state session = some (sockfd, sock)) :
    state.connectedSockets.find sockfd = some sock ∧ sock.session = session := by
  obtain ⟨other, _, same⟩ := List.exists_of_findSome?_eq_some found
  split at same
  · cases same
  next sock' present =>
    split at same
    next equal =>
      cases same
      exact ⟨present, equal⟩
    · cases same

theorem findSession_none {order : IterOrder Int32} {state : Sender} {session : UInt32}
    (missing : findSession order state session = none) {sockfd : Int32} {sock : ConnectedSocket}
    (present : state.connectedSockets.find sockfd = some sock) : sock.session ≠ session := by
  intro same
  have member : sockfd ∈ order.visit state.connectedSockets.keys := by
    rw [order.mem, present]
    rfl
  have none := List.findSome?_eq_none_iff.mp missing sockfd member
  simp [present, same] at none

theorem named_cases (session seqNum : UInt32) (packages : List TrollMessage) :
    (packages.find? (TrollMessage.named session seqNum) = none ∧
        ∀ now ∈ packages, ¬ (now.session = session ∧ now.seqNum = seqNum)) ∨
      ∃ before message after, packages = before ++ message :: after ∧
        packages.find? (TrollMessage.named session seqNum) = some message ∧
        packages.eraseP (TrollMessage.named session seqNum) = before ++ after ∧
        message.session = session ∧ message.seqNum = seqNum := by
  cases found : packages.find? (TrollMessage.named session seqNum) with
  | none =>
    refine .inl ⟨rfl, ?_⟩
    intro now member both
    have other := List.find?_eq_none.mp found now member
    simp [TrollMessage.named, both.1, both.2] at other
  | some message =>
    obtain ⟨named, before, after, split, first⟩ := List.find?_eq_some_iff_append.mp found
    refine .inr ⟨before, message, after, split, rfl, ?_, ?_⟩
    · rw [split, List.eraseP_append_right _ (by simpa using first),
        List.eraseP_cons_of_pos named]
    · simpa [TrollMessage.named] using named

/-- What a step of the sending half can do. The estimator is left open. -/
inductive SenderMove (order : IterOrder Int32) (state : Sender) :
    SenderEvent → Sender → List SenderEffect → Prop where
  | connect (front : SockAddr) (sockfd : Int32) (addr : SockAddr) (rand : UInt32)
      (ready : state.Ready) :
      SenderMove order state (.connect front sockfd addr rand)
        (tcpdConnect state front sockfd addr rand).1 [.connectReturn front 0]
  | send (front : SockAddr) (sockfd : Int32) (len : UInt64) (buf : Block bufLen)
      (malloc : TrollMessage) (sock : ConnectedSocket) (body : Block bufLen)
      (ready : state.Ready) (short : len.toNat ≤ bufLen)
      (found : state.connectedSockets.find sockfd = some sock)
      (copied : buf.bcopy 0 malloc.body 0 len.toNat = some body) :
      SenderMove order state (.send front sockfd len buf malloc)
        { state with
          connectedSockets := state.connectedSockets.insert sockfd
            { sock with
              base := sock.base + 1
              pendingPackages := sock.pendingPackages ++ [wrapPackage sock len body malloc] }
          inBufferPackages := state.inBufferPackages + 1 } [.sendReturn front len]
  | garbled (sockfd : Int32) (ack : TrollAck) (now : TimeVal) (estimator : Estimator)
      (damaged : ¬ ack.Intact) :
      SenderMove order state (.ack sockfd ack now) { state with estimator } []
  | unmatched (sockfd : Int32) (ack : TrollAck) (now : TimeVal) (estimator : Estimator)
      (sock : ConnectedSocket) (intact : ack.Intact)
      (found : state.connectedSockets.find sockfd = some sock)
      (absent : ∀ tmp ∈ sock.packages, ¬ (tmp.session = ack.session ∧ tmp.seqNum = ack.seqNum)) :
      SenderMove order state (.ack sockfd ack now) { state with estimator }
        [.timer (cancelTimerRequest ack.session ack.seqNum)]
  | acked (sockfd : Int32) (ack : TrollAck) (now : TimeVal) (estimator : Estimator)
      (sock : ConnectedSocket) (before : List TrollMessage) (message : TrollMessage)
      (after : List TrollMessage) (intact : ack.Intact)
      (found : state.connectedSockets.find sockfd = some sock)
      (split : sock.packages = before ++ message :: after)
      (session : message.session = ack.session) (seqNum : message.seqNum = ack.seqNum) :
      SenderMove order state (.ack sockfd ack now)
        { connectedSockets := state.connectedSockets.insert sockfd
            { sock with packages := before ++ after }
          inBufferPackages := state.inBufferPackages - 1
          estimator } [.free message, .timer (cancelTimerRequest ack.session ack.seqNum)]
  | stale (expired : TimerExpired) (sockfd : Int32) (sock : ConnectedSocket)
      (found : state.connectedSockets.find sockfd = some sock)
      (session : sock.session = expired.session.toUInt32)
      (absent : ∀ tmp ∈ sock.packages, ¬ (tmp.session = expired.session.toUInt32 ∧
        tmp.seqNum = expired.seqNum.toUInt32)) :
      SenderMove order state (.expired expired) state []
  | expire (expired : TimerExpired) (sockfd : Int32) (sock : ConnectedSocket)
      (before : List TrollMessage) (message : TrollMessage) (after : List TrollMessage)
      (found : state.connectedSockets.find sockfd = some sock)
      (session : sock.session = expired.session.toUInt32)
      (split : sock.packages = before ++ message :: after)
      (own : message.session = expired.session.toUInt32)
      (seqNum : message.seqNum = expired.seqNum.toUInt32) :
      SenderMove order state (.expired expired)
        { state with
          connectedSockets := state.connectedSockets.insert sockfd
            { sock with
              packages := before ++ after
              pendingPackages := sock.pendingPackages ++ [message] } } []
  | solve (clock : Nat → TimeVal) (state' : Sender) (effects : List SenderEffect)
      (ran : solveSendCallback order state clock = .ok (state', effects)) :
      SenderMove order state (.solveSend clock) state' effects

theorem step_move {order : IterOrder Int32} {state state' : Sender} {event : SenderEvent}
    {emitted : List SenderEffect} (taken : Sender.step order state event = .ok (state', emitted)) :
    SenderMove order state event state' emitted := by
  cases event with
  | connect front sockfd addr rand =>
    simp only [Sender.step] at taken
    split at taken
    next ready =>
      cases taken
      exact .connect front sockfd addr rand ready
    · cases taken
  | send front sockfd len buf malloc =>
    simp only [Sender.step, tcpdSend] at taken
    split at taken
    next ready =>
      split at taken
      · cases taken
      next short =>
        split at taken
        · cases taken
        next sock found =>
          split at taken
          · cases taken
          next body copied =>
            cases taken
            exact .send front sockfd len buf malloc sock body ready (by omega) found copied
    · cases taken
  | ack sockfd ack now =>
    simp only [Sender.step, recvAck, freeAcked] at taken
    split at taken
    · cases taken
    next sock found =>
      split at taken
      next intact =>
        rcases named_cases ack.session ack.seqNum sock.packages with
          ⟨none, absent⟩ | ⟨before, message, after, split, some, erased, session, seqNum⟩
        · rw [none] at taken
          cases taken
          exact .unmatched sockfd ack now _ sock intact found absent
        · rw [some, erased] at taken
          cases taken
          exact .acked sockfd ack now _ sock before message after intact found split session seqNum
      next damaged =>
        cases taken
        exact .garbled sockfd ack now _ damaged
  | expired expired =>
    simp only [Sender.step, recvTimer] at taken
    split at taken
    · cases taken
    next sockfd sock first =>
      obtain ⟨found, session⟩ := findSession_some first
      rcases named_cases expired.session.toUInt32 expired.seqNum.toUInt32 sock.packages with
        ⟨none, absent⟩ | ⟨before, message, after, split, some, erased, own, seqNum⟩
      · rw [none] at taken
        cases taken
        exact .stale expired sockfd sock found session absent
      · rw [some, erased] at taken
        cases taken
        exact .expire expired sockfd sock before message after found session split own seqNum
  | solveSend clock => exact .solve clock state' emitted taken

inductive SockMove : SenderEvent → ConnectedSocket → ConnectedSocket → Prop where
  | keep (event : SenderEvent) (sock : ConnectedSocket) : SockMove event sock sock
  | send (front : SockAddr) (sockfd : Int32) (len : UInt64) (buf : Block bufLen)
      (malloc : TrollMessage) (sock : ConnectedSocket) (body : Block bufLen)
      (short : len.toNat ≤ bufLen) (copied : buf.bcopy 0 malloc.body 0 len.toNat = some body) :
      SockMove (.send front sockfd len buf malloc) sock
        { sock with
          base := sock.base + 1
          pendingPackages := sock.pendingPackages ++ [wrapPackage sock len body malloc] }
  | acked (sockfd : Int32) (ack : TrollAck) (now : TimeVal) (sock : ConnectedSocket)
      (before : List TrollMessage) (message : TrollMessage) (after : List TrollMessage)
      (intact : ack.Intact) (split : sock.packages = before ++ message :: after)
      (session : message.session = ack.session) (seqNum : message.seqNum = ack.seqNum) :
      SockMove (.ack sockfd ack now) sock { sock with packages := before ++ after }
  | expire (expired : TimerExpired) (sock : ConnectedSocket) (before : List TrollMessage)
      (message : TrollMessage) (after : List TrollMessage)
      (split : sock.packages = before ++ message :: after) :
      SockMove (.expired expired) sock
        { sock with
          packages := before ++ after
          pendingPackages := sock.pendingPackages ++ [message] }
  | solve (clock : Nat → TimeVal) (sock : ConnectedSocket) :
      SockMove (.solveSend clock) sock (transmitted sock)

theorem SockMove.session {event : SenderEvent} {sock sock' : ConnectedSocket}
    (move : SockMove event sock sock') : sock'.session = sock.session := by
  cases move <;> rfl

theorem SockMove.socketFD {event : SenderEvent} {sock sock' : ConnectedSocket}
    (move : SockMove event sock sock') : sock'.socketFD = sock.socketFD := by
  cases move <;> rfl

theorem insert_sock {sockets : Table Int32 ConnectedSocket} {event : SenderEvent}
    {sockfd other : Int32} {sock sock' final : ConnectedSocket}
    (found : sockets.find other = some sock) (move : SockMove event sock sock')
    (found' : (sockets.insert other sock').find sockfd = some final) :
    ∃ old, sockets.find sockfd = some old ∧ SockMove event old final := by
  by_cases same : sockfd = other
  · subst same
    rw [Table.find_insert] at found'
    cases found'
    exact ⟨sock, found, move⟩
  · rw [Table.find_insert_of_ne _ _ _ _ same] at found'
    exact ⟨final, found', .keep event final⟩

theorem step_sock {order : IterOrder Int32} {state state' : Sender} {event : SenderEvent}
    {emitted : List SenderEffect} (move : SenderMove order state event state' emitted)
    {sockfd : Int32} {sock' : ConnectedSocket}
    (found' : state'.connectedSockets.find sockfd = some sock') :
    (∃ front addr rand, event = .connect front sockfd addr rand ∧
        sock' = newSock sockfd addr rand) ∨
      ∃ sock, state.connectedSockets.find sockfd = some sock ∧ SockMove event sock sock' := by
  cases move with
  | connect front opened addr rand ready =>
    by_cases same : sockfd = opened
    · subst same
      rw [tcpdConnect, Table.find_insert] at found'
      cases found'
      exact .inl ⟨front, addr, rand, rfl, rfl⟩
    · rw [tcpdConnect, Table.find_insert_of_ne _ _ _ _ same] at found'
      exact .inr ⟨sock', found', .keep _ _⟩
  | send front other len buf malloc sock body ready short found copied =>
    exact .inr (insert_sock found (.send front other len buf malloc sock body short copied) found')
  | garbled | unmatched | stale => exact .inr ⟨sock', found', .keep _ _⟩
  | acked other ack now estimator sock before message after intact found split session seqNum =>
    exact .inr (insert_sock found
      (.acked other ack now sock before message after intact split session seqNum) found')
  | expire expired other sock before message after found session split own seqNum =>
    exact .inr (insert_sock found (.expire expired sock before message after split) found')
  | solve clock state' effects ran =>
    rw [solveSend_find ran] at found'
    obtain ⟨sock, found, rfl⟩ := Option.map_eq_some_iff.mp found'
    exact .inr ⟨sock, found, .solve clock sock⟩

theorem step_ack {order : IterOrder Int32} {state : Sender} (sockfd : Int32) {sock : ConnectedSocket}
    (found : state.connectedSockets.find sockfd = some sock) {ack : TrollAck} (intact : ack.Intact)
    (now : TimeVal) : Sender.step order state (.ack sockfd ack now) =
      .ok (freeAcked { state with estimator := state.estimator.acked now } sockfd sock ack) := by
  simp [Sender.step, found, recvAck, intact]

theorem step_garbled {order : IterOrder Int32} {state : Sender} (sockfd : Int32)
    {sock : ConnectedSocket} (found : state.connectedSockets.find sockfd = some sock)
    {ack : TrollAck} (damaged : ¬ ack.Intact) (now : TimeVal) :
    Sender.step order state (.ack sockfd ack now) =
      .ok ({ state with estimator := state.estimator.acked now }, []) := by
  simp [Sender.step, found, recvAck, damaged]

end Steps

end NetworkProj.Sending
