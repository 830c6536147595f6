import NetworkProj.Receiver.Acceptance

set_option autoImplicit false

namespace NetworkProj.Reception

section Relation

/-- The session that answers the ACCEPT pending on a socket, given what is still to be sent. -/
def nextTaker (sockfd : Int32) (later : List ReceiverEffect) : Option UInt32 :=
  (onSocket sockfd (returned later)).head?

def keeps (session : UInt32) (later : List ReceiverEffect) :
    ReceiverEvent × List ReceiverEffect → Bool
  | (.accept _ sockfd, emitted) => emitted.isEmpty && nextTaker sockfd later == some session
  | (.recv _ sockfd _, _) => sockfd.toUInt32 == session
  | (.data _ message _ _, _) => message.Intact && message.session == session
  | _ => true

/-- The request pending on a socket is kept when the session is going to answer it. -/
structure SameSocket (session : UInt32) (later : List ReceiverEffect)
    (tmp reduced : BindedSocket) : Prop where
  socketFD : reduced.socketFD = tmp.socketFD
  accepting : reduced.accepting = true ↔
    tmp.accepting = true ∧ nextTaker tmp.socketFD later = some session
  addr : reduced.accepting = true → reduced.acceptingAddr = tmp.acceptingAddr

structure Reduced (session : UInt32) (later : List ReceiverEffect) (state reduced : Receiver) :
    Prop where
  sockets : List.Forall₂ (SameSocket session later) state.bindedSockets reduced.bindedSockets
  own : view session reduced = view session state
  only : ∀ other, other ≠ session → view other reduced = .absent

variable {session : UInt32} {later : List ReceiverEffect}

theorem sameSockets_fds {sockets reduced : List BindedSocket}
    (same : List.Forall₂ (SameSocket session later) sockets reduced) :
    reduced.map BindedSocket.socketFD = sockets.map BindedSocket.socketFD := by
  induction same with
  | nil => rfl
  | cons head _ ih => rw [List.map_cons, List.map_cons, head.socketFD, ih]

theorem sameSockets_later (emitted : List ReceiverEffect) {sockets reduced : List BindedSocket}
    (silent : ∀ tmp ∈ sockets, nextTaker tmp.socketFD (emitted ++ later) =
      nextTaker tmp.socketFD later)
    (same : List.Forall₂ (SameSocket session (emitted ++ later)) sockets reduced) :
    List.Forall₂ (SameSocket session later) sockets reduced := by
  induction same with
  | nil => exact .nil
  | cons head _ ih =>
    refine .cons ⟨head.socketFD, ?_, head.addr⟩ (ih fun tmp member => silent tmp (by simp [member]))
    rw [head.accepting, silent _ (by simp)]

theorem nextTaker_silent (sockfd : Int32) {emitted : List ReceiverEffect}
    (silent : ∀ session, (sockfd, session) ∉ returned emitted) :
    nextTaker sockfd (emitted ++ later) = nextTaker sockfd later := by
  have none : onSocket sockfd (returned emitted) = [] := by
    simp only [onSocket, List.map_eq_nil_iff, List.filter_eq_nil_iff, beq_iff_eq]
    rintro ⟨other, session⟩ member rfl
    exact silent session member
  rw [nextTaker, returned_append, onSocket_append, none, List.nil_append, nextTaker]

end Relation

section Acceptance

variable {session : UInt32} {later : List ReceiverEffect}

theorem accepting_returned {sockets sockets' : List BindedSocket}
    {accepted accepted' : Table UInt32 AcceptedSocket} {waiting waiting' : List AcceptedSocket}
    {effects : List ReceiverEffect}
    (ran : Accepting sockets accepted waiting sockets' accepted' waiting' effects)
    {sockfd : Int32} {taker : UInt32} (member : (sockfd, taker) ∈ returned effects) :
    sockfd ∈ sockets.map BindedSocket.socketFD := by
  induction ran with
  | done => simp [returned] at member
  | stay tmp idle rest ih => exact List.mem_cons_of_mem _ (ih member)
  | take tmp before sock after pending same first rest ih =>
    rcases List.mem_cons.mp member with here | inside
    · cases here
      exact List.mem_cons_self
    · exact List.mem_cons_of_mem _ (ih inside)

theorem waiting_of_lookup {accepted : Table UInt32 AcceptedSocket} {waiting : List AcceptedSocket}
    {sock : AcceptedSocket} (found : lookup session accepted waiting = .waiting sock) :
    sock ∈ waiting ∧ sock.session = session := by
  unfold lookup at found
  split at found
  · cases found
  · split at found
    next first =>
      cases found
      exact ⟨List.mem_of_find?_eq_some first, by simpa using List.find?_some first⟩
    · cases found

theorem waiting_own {table : Table UInt32 AcceptedSocket} {queue : List AcceptedSocket}
    {sock : AcceptedSocket} (apart : Apart table queue)
    (foreign : ∀ other, other ≠ session → lookup other table queue = .absent)
    (member : sock ∈ queue) :
    sock.session = session ∧ lookup session table queue = .waiting sock := by
  have found := lookup_waiting apart member
  have mine : sock.session = session := by
    by_contra different
    cases (foreign sock.session different).symm.trans found
  rw [mine] at found
  exact ⟨mine, found⟩

theorem accepting_reduced {sockets sockets' : List BindedSocket}
    {accepted accepted' : Table UInt32 AcceptedSocket} {waiting waiting' : List AcceptedSocket}
    {effects : List ReceiverEffect}
    (ran : Accepting sockets accepted waiting sockets' accepted' waiting' effects)
    {only only' : List BindedSocket} {table table' : Table UInt32 AcceptedSocket}
    {queue queue' : List AcceptedSocket} {replies : List ReceiverEffect}
    (reduced : Accepting only table queue only' table' queue' replies)
    (nodup : (sockets.map BindedSocket.socketFD).Nodup)
    (apart : Apart accepted waiting) (apart' : Apart table queue)
    (same : List.Forall₂ (SameSocket session (effects ++ later)) sockets only)
    (own : lookup session table queue = lookup session accepted waiting)
    (foreign : ∀ other, other ≠ session → lookup other table queue = .absent) :
    List.Forall₂ (SameSocket session later) sockets' only' ∧
      replies = effects.filter (acceptsSession session) := by
  induction ran generalizing only only' table table' queue queue' replies with
  | done =>
    cases same
    cases reduced
    exact ⟨.nil, rfl⟩
  | @stay sockets sockets' accepted accepted' waiting waiting' effects tmp idle rest ih =>
    obtain ⟨fresh, nodup⟩ := List.nodup_cons.mp nodup
    cases same with
    | @cons _ tmp' _ only head behind =>
      have taker : nextTaker tmp.socketFD (effects ++ later) = nextTaker tmp.socketFD later :=
        nextTaker_silent _ fun taker member => fresh (accepting_returned rest member)
      cases reduced with
      | stay _ idle' rest' =>
        obtain ⟨same', replies'⟩ := ih rest' nodup apart apart' behind own foreign
        exact ⟨.cons ⟨head.socketFD, taker ▸ head.accepting, head.addr⟩ same', replies'⟩
      | take _ before sock after pending same first rest' =>
        -- What waits on the socket alone waits on it among the others as well.
        obtain ⟨_, found⟩ := waiting_own apart' foreign (show sock ∈ before ++ sock :: after by simp)
        rw [own] at found
        exact absurd (same.trans head.socketFD)
          (idle (head.accepting.mp pending).1 sock (waiting_of_lookup found).1)
  | @take sockets sockets' accepted accepted' waiting' effects tmp before sock after pending here
      first rest ih =>
    obtain ⟨fresh, nodup⟩ := List.nodup_cons.mp nodup
    obtain ⟨moved, after_move⟩ := lookup_move apart session
    have found := lookup_waiting apart (show sock ∈ before ++ sock :: after by simp)
    have taker : nextTaker tmp.socketFD (.acceptReturn tmp.socketFD tmp.acceptingAddr sock.session ::
        effects ++ later) = some sock.session := by
      simp [nextTaker, returned, onSocket]
    cases same with
    | @cons _ tmp' _ only head behind =>
      have behind : List.Forall₂ (SameSocket session (effects ++ later)) sockets only := by
        refine sameSockets_later [_] ?_ behind
        intro other member
        apply nextTaker_silent
        intro taker inside
        simp only [returned, List.filterMap_cons, List.filterMap_nil, List.mem_singleton,
          Prod.mk.injEq] at inside
        exact fresh (inside.1 ▸ List.mem_map_of_mem member)
      -- The socket answers the session in both daemons, or another one in the first only.
      by_cases mine : sock.session = session
      · rw [mine] at found
        rw [if_pos mine.symm] at after_move
        cases reduced with
        | stay _ idle' rest' =>
          have waits := waiting_of_lookup (own.trans found)
          have pending' := head.accepting.mpr ⟨pending, taker.trans (congrArg some mine)⟩
          exact absurd (here.trans head.socketFD.symm) (idle' pending' sock waits.1)
        | take _ before' sock' after' pending' here' first' rest' =>
          obtain ⟨_, found'⟩ :=
            waiting_own apart' foreign (show sock' ∈ before' ++ sock' :: after' by simp)
          rw [own, found] at found'
          cases found'
          obtain ⟨moved', _⟩ := lookup_move apart' session
          have lookups (other : UInt32) := (lookup_move apart' other).2
          obtain ⟨same', replies'⟩ := ih rest' nodup moved moved' behind
            (by rw [lookups session, if_pos mine.symm, after_move])
            (fun other different => by
              rw [lookups other, if_neg (fun equal => different (equal.trans mine))]
              exact foreign other different)
          refine ⟨.cons ⟨head.socketFD, by simp, by simp⟩ same', ?_⟩
          simp [acceptsSession, mine, replies', head.socketFD, head.addr pending']
      · rw [if_neg (Ne.symm mine)] at after_move
        cases reduced with
        | stay _ idle' rest' =>
          have idle : ¬ tmp'.accepting = true := by
            intro accepting
            have answered := (head.accepting.mp accepting).2
            rw [taker] at answered
            exact mine (Option.some.inj answered)
          obtain ⟨same', replies'⟩ := ih rest' nodup moved apart' behind
            (by rw [after_move, own]) foreign
          refine ⟨.cons ⟨head.socketFD, by simp [idle], fun accepting => absurd accepting idle⟩ same',
            ?_⟩
          simp [acceptsSession, mine, replies']
        | take _ before' sock' after' pending' here' first' rest' =>
          have answered := (head.accepting.mp pending').2
          rw [taker] at answered
          exact absurd (Option.some.inj answered) mine

end Acceptance

section Requests

variable {session : UInt32} {later : List ReceiverEffect}

theorem requestAccept_reduced (front : SockAddr) (sockfd result : Int32)
    {sockets only : List BindedSocket}
    (same : List.Forall₂ (SameSocket session later) sockets only)
    (idle : ∀ tmp ∈ sockets, tmp.socketFD = sockfd → tmp.accepting = false) :
    (nextTaker sockfd later = some session →
        (requestAccept front sockfd result only).1 = (requestAccept front sockfd result sockets).1 ∧
        List.Forall₂ (SameSocket session later) (requestAccept front sockfd result sockets).2
          (requestAccept front sockfd result only).2) ∧
      (nextTaker sockfd later ≠ some session →
        List.Forall₂ (SameSocket session later) (requestAccept front sockfd result sockets).2
          only) := by
  induction same generalizing result with
  | nil => exact ⟨fun _ => ⟨rfl, .nil⟩, fun _ => .nil⟩
  | @cons tmp tmp' sockets only head same ih =>
    have rest (result : Int32) := ih result fun other member => idle other (by simp [member])
    by_cases here : tmp.socketFD = sockfd
    · have quiet := idle tmp (by simp) here
      have quiet' : tmp'.accepting = false := by
        rw [Bool.eq_false_iff]
        intro accepting
        rw [(head.accepting.mp accepting).1] at quiet
        cases quiet
      obtain ⟨kept, dropped⟩ := rest 0
      constructor
      · intro taker
        obtain ⟨answer, same'⟩ := kept taker
        simp only [requestAccept, head.socketFD, here, ne_eq, not_true, if_false, quiet, quiet',
          Bool.false_eq_true]
        exact ⟨answer, .cons ⟨rfl, by simp [taker], fun _ => rfl⟩ same'⟩
      · intro taker
        simp only [requestAccept, here, ne_eq, not_true, if_false, quiet, Bool.false_eq_true]
        exact .cons ⟨head.socketFD.trans here, by simp [quiet', taker], by simp [quiet']⟩
          (dropped taker)
    · obtain ⟨kept, dropped⟩ := rest result
      constructor
      · intro taker
        obtain ⟨answer, same'⟩ := kept taker
        simp only [requestAccept, head.socketFD, here, ne_eq, not_false_eq_true, if_true]
        exact ⟨answer, .cons head same'⟩
      · intro taker
        simp only [requestAccept, here, ne_eq, not_false_eq_true, if_true]
        exact .cons head (dropped taker)

theorem tcpdRecv_sockets (state : Receiver) (front : SockAddr) (sockfd : Int32) (len : UInt64) :
    (tcpdRecv state front sockfd len).1.bindedSockets = state.bindedSockets := by
  simp only [tcpdRecv]
  split
  · rfl
  · split
    · rfl
    · split <;> rfl

theorem tcpdAccept_cases (front : SockAddr) (sockfd : Int32) {state : Receiver}
    (nodup : (state.bindedSockets.map BindedSocket.socketFD).Nodup) :
    tcpdAccept state front sockfd = (state, [.acceptError sockfd front (-1)]) ∨
      (∀ tmp ∈ state.bindedSockets, tmp.socketFD = sockfd → tmp.accepting = false) ∧
        (requestAccept front sockfd (-1) state.bindedSockets).1 = 0 ∧
        tcpdAccept state front sockfd =
          ({ state with
            bindedSockets := (requestAccept front sockfd (-1) state.bindedSockets).2 }, []) := by
  rcases requestAccept_cases front sockfd nodup with
    ⟨_, refused⟩ | ⟨_, _, _, _, refused⟩ | ⟨before, tmp, after, split, here, idle, added⟩
  · exact .inl (by simp [tcpdAccept, refused])
  · exact .inl (by simp [tcpdAccept, refused])
  · refine .inr ⟨?_, by rw [added], by simp [tcpdAccept, added]⟩
    intro other member same
    have equal : other = tmp :=
      List.inj_on_of_nodup_map nodup member (by simp [split]) (same.trans here.symm)
    rw [equal, idle]

end Requests

section Steps

variable {order : IterOrder UInt32} {session : UInt32} {later : List ReceiverEffect}
  {state next only next' : Receiver} {event : ReceiverEvent}
  {emitted emitted' : List ReceiverEffect}

theorem reduced_views (consistent : Consistent state) (consistent' : Consistent only)
    (reduced : Reduced session (emitted ++ later) state only)
    (taken : Receiver.step order state event = .ok (next, emitted))
    (taken' : Receiver.step order only event = .ok (next', emitted'))
    (sockets : List.Forall₂ (SameSocket session later) next.bindedSockets next'.bindedSockets)
    (same : ownEvent session (event, emitted') = ownEvent session (event, emitted))
    (foreign : ∀ other, other ≠ session → ∀ sockfd message malloc,
      ownEvent other (event, emitted') ≠ some (.arrive sockfd message malloc)) :
    ∃ next' emitted', Receiver.step order only event = .ok (next', emitted') ∧
      Reduced session later next next' ∧
      ownEvent session (event, emitted') = ownEvent session (event, emitted) ∧
      ownEffects session (event, emitted') = ownEffects session (event, emitted) := by
  have own : view session next' = view session next ∧
      ownEffects session (event, emitted') = ownEffects session (event, emitted) := by
    rcases step_session taken consistent session with
      ⟨quiet, kept, silent⟩ | ⟨event', own, stepped⟩
    · rcases step_session taken' consistent' session with
        ⟨_, kept', silent'⟩ | ⟨event', own', _⟩
      · exact ⟨by rw [kept', kept, reduced.own], by rw [silent', silent]⟩
      · rw [same, quiet] at own'
        cases own'
    · rcases step_session taken' consistent' session with
        ⟨quiet', _⟩ | ⟨event'', own', stepped'⟩
      · rw [same, own] at quiet'
        cases quiet'
      · rw [same, own] at own'
        cases own'
        rw [reduced.own, stepped] at stepped'
        have pair := Except.ok.inj stepped'
        exact ⟨(congrArg Prod.fst pair).symm, (congrArg Prod.snd pair).symm⟩
  refine ⟨next', emitted', taken', ⟨sockets, own.1, ?_⟩, same, own.2⟩
  intro other different
  rcases step_session taken' consistent' other with ⟨_, kept, _⟩ | ⟨event', own, stepped⟩
  · rw [kept, reduced.only other different]
  · rw [reduced.only other different] at stepped
    cases event' with
    | arrive sockfd message malloc => exact absurd own (foreign other different _ _ _)
    | accept | request | solve =>
      exact (congrArg Prod.fst (Except.ok.inj stepped)).symm

theorem returned_step (taken : Receiver.step order state event = .ok (next, emitted))
    (quiet : event ≠ .solveAccept) : returned emitted = [] := by
  cases step_move taken with
  | bind | refused | request | data | garbled => rfl
  | accept front sockfd =>
    change returned (if _ then _ else _) = []
    split <;> rfl
  | solveAccept => exact absurd rfl quiet
  | solveRecv _ _ ran => exact returned_of_replies (replies_solved ran)

theorem sameSockets_quiet (reduced : Reduced session (emitted ++ later) state only)
    (taken : Receiver.step order state event = .ok (next, emitted)) (quiet : event ≠ .solveAccept) :
    List.Forall₂ (SameSocket session later) state.bindedSockets only.bindedSockets := by
  refine sameSockets_later emitted ?_ reduced.sockets
  intro tmp _
  apply nextTaker_silent
  simp [returned_step taken quiet]

theorem reduced_dropped (consistent : Consistent state)
    (nodup : (state.bindedSockets.map BindedSocket.socketFD).Nodup)
    (reduced : Reduced session (emitted ++ later) state only)
    (taken : Receiver.step order state event = .ok (next, emitted))
    (dropped : keeps session later (event, emitted) = false) :
    Reduced session later next only ∧ ownEvent session (event, emitted) = none ∧
      ownEffects session (event, emitted) = [] := by
  have silent := sameSockets_quiet reduced taken
  have unseen (foreign : ownEvent session (event, emitted) = none)
      (sockets : List.Forall₂ (SameSocket session later) next.bindedSockets only.bindedSockets) :
      Reduced session later next only ∧ ownEvent session (event, emitted) = none ∧
        ownEffects session (event, emitted) = [] := by
    rcases step_session taken consistent session with ⟨_, kept, quiet⟩ | ⟨_, own, _⟩
    · exact ⟨⟨sockets, reduced.own.trans kept.symm, reduced.only⟩, foreign, quiet⟩
    · rw [foreign] at own
      cases own
  cases event with
  | bind | solveAccept | solveRecv => cases dropped
  | accept front sockfd =>
    apply unseen rfl
    have sockets := silent (by simp)
    have answer := Except.ok.inj taken
    rcases tcpdAccept_cases _ _ nodup with refused | ⟨idle, _, added⟩
    · rw [refused] at answer
      cases answer
      exact sockets
    · rw [added] at answer
      cases answer
      simp only [keeps, List.isEmpty_nil, Bool.true_and, beq_eq_false_iff_ne] at dropped
      exact (requestAccept_reduced front sockfd (-1) sockets idle).2 dropped
  | recv front sockfd len =>
    simp only [keeps, beq_eq_false_iff_ne] at dropped
    apply unseen (if_neg dropped)
    have answer : (tcpdRecv state front sockfd len).1 = next :=
      congrArg Prod.fst (Except.ok.inj taken)
    rw [← answer, tcpdRecv_sockets]
    exact silent (by simp)
  | data sockfd message remoteTroll malloc =>
    have foreign : ¬ (message.Intact ∧ message.session = session) := by
      intro both
      simp [keeps, both.1, both.2] at dropped
    apply unseen (if_neg foreign)
    have sockets := silent (by simp)
    simp only [Receiver.step, recvData] at taken
    split at taken
    · split at taken
      · cases taken
        rw [storeData_sockets]
        exact sockets
      · cases taken
        exact sockets
    · cases taken

theorem reduced_total (reduced : Reduced session (emitted ++ later) state only)
    (taken : solveRecvCallback order state = .ok (next, emitted)) :
    ∃ next' emitted', solveRecvCallback order only = .ok (next', emitted') := by
  have total : ∃ answer, Table.sweep visitSocket (order.visit only.acceptedSockets.keys) ()
      only.acceptedSockets = .ok answer := by
    apply Table.sweep_total (order.nodup only.acceptedSockets)
    intro key _ sock found _
    have shown : view key only = .accepted sock := by simp [view, lookup, found]
    have mine : key = session := by
      by_contra different
      rw [reduced.only key different] at shown
      cases shown
    subst mine
    have stepped := solveRecv_session taken key
    rw [← reduced.own, shown] at stepped
    simp only [sessionStep] at stepped
    split at stepped
    · cases stepped
    next final effects solved => exact ⟨((), final, effects), by simp [visitSocket, solved]⟩
  obtain ⟨⟨_, accepted, effects⟩, swept⟩ := total
  exact ⟨_, effects, solveRecvCallback_of_swept swept⟩

theorem sameSockets_any {left right : List BindedSocket}
    (same : List.Forall₂ (SameSocket session later) left right) (sockfd : Int32) :
    right.any (fun tmp => tmp.socketFD == sockfd) = left.any fun tmp => tmp.socketFD == sockfd := by
  have mapped (sockets : List BindedSocket) : sockets.any (fun tmp => tmp.socketFD == sockfd) =
      (sockets.map BindedSocket.socketFD).any (· == sockfd) := by
    rw [List.any_map]
    rfl
  rw [mapped, mapped, sameSockets_fds same]

theorem reduced_kept (consistent : Consistent state) (consistent' : Consistent only)
    (nodup : (state.bindedSockets.map BindedSocket.socketFD).Nodup)
    (reduced : Reduced session (emitted ++ later) state only)
    (taken : Receiver.step order state event = .ok (next, emitted))
    (kept : keeps session later (event, emitted) = true) :
    ∃ next' emitted', Receiver.step order only event = .ok (next', emitted') ∧
      Reduced session later next next' ∧
      ownEvent session (event, emitted') = ownEvent session (event, emitted) ∧
      ownEffects session (event, emitted') = ownEffects session (event, emitted) := by
  have bound := sameSockets_any reduced.sockets
  have silent := sameSockets_quiet reduced taken
  cases event with
  | bind front sockfd granted =>
    have sockets := silent (by simp)
    have taken' := taken
    simp only [Receiver.step, tcpdBind] at taken'
    split at taken'
    · cases taken'
    next free =>
      cases taken'
      have stepped : Receiver.step order only (.bind front sockfd granted) = .ok ({ only with
          bindedSockets := only.bindedSockets ++
            [{ socketFD := sockfd, accepting := false, acceptingAddr := default }] },
          [.bindReturn front 0]) := by
        simp only [Receiver.step, tcpdBind, bound]
        exact if_neg free
      exact reduced_views consistent consistent' reduced taken stepped
        (List.rel_append sockets (.cons ⟨rfl, by simp, by simp⟩ .nil)) rfl (by simp [ownEvent])
  | accept front sockfd =>
    have sockets := silent (by simp)
    have answer := Except.ok.inj taken
    simp only [keeps, Bool.and_eq_true, List.isEmpty_iff, beq_iff_eq] at kept
    obtain ⟨rfl, taker⟩ := kept
    rcases tcpdAccept_cases _ _ nodup with refused | ⟨idle, answered, added⟩
    · rw [refused] at answer
      cases answer
    · rw [added] at answer
      cases answer
      obtain ⟨same, sockets'⟩ := (requestAccept_reduced front sockfd (-1) sockets idle).1 taker
      have stepped : Receiver.step order only (.accept front sockfd) = .ok ({ only with
          bindedSockets := (requestAccept front sockfd (-1) only.bindedSockets).2 }, []) := by
        simp [Receiver.step, tcpdAccept, same, answered]
      exact reduced_views consistent consistent' reduced taken stepped sockets' rfl
        (by simp [ownEvent])
  | recv front sockfd len =>
    have sockets := silent (by simp)
    have own : sockfd.toUInt32 = session := by simpa [keeps] using kept
    have sockets' : List.Forall₂ (SameSocket session later) next.bindedSockets
        (tcpdRecv only front sockfd len).1.bindedSockets := by
      have answer : (tcpdRecv state front sockfd len).1 = next :=
        congrArg Prod.fst (Except.ok.inj taken)
      rw [← answer, tcpdRecv_sockets, tcpdRecv_sockets]
      exact sockets
    apply reduced_views consistent consistent' reduced taken rfl sockets' rfl
    intro other _ sockfd' message malloc same
    cases ownEvent_brings same
  | data sockfd message remoteTroll malloc =>
    have sockets := silent (by simp)
    have own : message.Intact ∧ message.session = session := by simpa [keeps] using kept
    by_cases present : state.bindedSockets.any fun tmp => tmp.socketFD == sockfd
    · have stepped : Receiver.step order only (.data sockfd message remoteTroll malloc) = _ :=
        step_data sockfd ((bound sockfd).trans present) own.1 remoteTroll malloc
      have sockets' : List.Forall₂ (SameSocket session later) next.bindedSockets
          (storeData only sockfd message malloc).bindedSockets := by
        rw [step_data sockfd present own.1] at taken
        cases taken
        rw [storeData_sockets, storeData_sockets]
        exact sockets
      apply reduced_views consistent consistent' reduced taken stepped sockets' rfl
      intro other different sockfd' now malloc' same
      cases ownEvent_brings same with
      | data _ _ _ _ _ named => exact different (named.symm.trans own.2)
    · simp [Receiver.step, present] at taken
  | solveAccept =>
    have ran := solveAccept_accepting taken
    obtain ⟨next', emitted', stepped⟩ :
        ∃ next' emitted', Receiver.step order only .solveAccept = .ok (next', emitted') :=
      ⟨_, _, rfl⟩
    obtain ⟨sockets, replies⟩ := accepting_reduced ran (solveAccept_accepting stepped) nodup
      consistent consistent' reduced.sockets reduced.own reduced.only
    have same : ownEvent session (.solveAccept, emitted') =
        ownEvent session (.solveAccept, emitted) := by
      simp [ownEvent, replies, List.any_filter]
    apply reduced_views consistent consistent' reduced taken stepped sockets same
    intro other _ sockfd message malloc own
    cases ownEvent_brings own
  | solveRecv =>
    have sockets := silent (by simp)
    obtain ⟨_, _, rfl⟩ := solveRecvCallback_swept taken
    obtain ⟨next', emitted', stepped⟩ := reduced_total reduced taken
    have sockets' : next'.bindedSockets = only.bindedSockets := by
      obtain ⟨_, _, rfl⟩ := solveRecvCallback_swept stepped
      rfl
    exact reduced_views consistent consistent' reduced taken stepped
      (by rw [sockets']; exact sockets) rfl (by simp [ownEvent])

end Steps

end NetworkProj.Reception
