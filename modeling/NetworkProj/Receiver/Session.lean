import NetworkProj.Receiver.Copy

set_option autoImplicit false

namespace NetworkProj.Reception

section Views

inductive SessionView where
  | absent
  | waiting (sock : AcceptedSocket)
  | accepted (sock : AcceptedSocket)

def SessionView.sock? : SessionView → Option AcceptedSocket
  | .absent => none
  | .waiting sock => some sock
  | .accepted sock => some sock

def lookup (session : UInt32) (accepted : Table UInt32 AcceptedSocket)
    (waiting : List AcceptedSocket) : SessionView :=
  match accepted.find session with
  | some sock => .accepted sock
  | none =>
    match waiting.find? (fun sock => sock.session == session) with
    | some sock => .waiting sock
    | none => .absent

def view (session : UInt32) (state : Receiver) : SessionView :=
  lookup session state.acceptedSockets state.waitingAcceptSocketsList

inductive SessionEvent where
  | arrive (sockfd : Int32) (message : TrollMessage) (malloc : AcceptedSocket)
  | accept
  | request (front : SockAddr) (len : UInt64)
  | solve

inductive SessionEffect where
  | requested (len : UInt64)
  | consumed (message : TrollMessage)
  | block (addr : SockAddr) (data : List UInt8)

def sessionEffect (session : UInt32) : ReceiverEffect → Option SessionEffect
  | .free other message => if other = session then some (.consumed message) else none
  | .recvReturn other addr data => if other = session then some (.block addr data) else none
  | _ => none

def sessionStep (session : UInt32) : Machine.Step SessionView SessionEvent SessionEffect Stop
  | .absent, .arrive sockfd message malloc =>
    .ok (.waiting (storePackage (newSocket malloc sockfd session) message), [])
  | .waiting sock, .arrive _ message _ => .ok (.waiting (storePackage sock message), [])
  | .accepted sock, .arrive _ message _ => .ok (.accepted (storePackage sock message), [])
  | .waiting sock, .accept => .ok (.accepted sock, [])
  | .accepted sock, .request front len =>
    if len ≠ 0 ∧ sock.receivingLength = 0 then
      .ok (.accepted { sock with receivingLength := len, receivingAddr := front }, [.requested len])
    else
      .ok (.accepted sock, [])
  | .accepted sock, .solve =>
    match solveRecvSocket session sock with
    | .error stop => .error stop
    | .ok (final, effects) => .ok (.accepted final, effects.filterMap (sessionEffect session))
  | current, _ => .ok (current, [])

def acceptsSession (session : UInt32) : ReceiverEffect → Bool
  | .acceptReturn _ _ other => other == session
  | _ => false

/-- What an event of the daemon is for the session. A RECV counts as accepted when it is not
answered at once. -/
def ownEvent (session : UInt32) : ReceiverEvent × List ReceiverEffect → Option SessionEvent
  | (.data sockfd message _ malloc, _) =>
    if message.Intact ∧ message.session = session then some (.arrive sockfd message malloc) else none
  | (.recv front sockfd len, _) =>
    if sockfd.toUInt32 = session then some (.request front len) else none
  | (.solveAccept, emitted) => if emitted.any (acceptsSession session) then some .accept else none
  | (.solveRecv, _) => some .solve
  | _ => none

inductive Brings (session : UInt32) : ReceiverEvent → SessionEvent → Prop where
  | data (sockfd : Int32) (message : TrollMessage) (remoteTroll : SockAddr) (malloc : AcceptedSocket)
      (intact : message.Intact) (own : message.session = session) :
      Brings session (.data sockfd message remoteTroll malloc) (.arrive sockfd message malloc)
  | recv (front : SockAddr) (sockfd : Int32) (len : UInt64) (own : sockfd.toUInt32 = session) :
      Brings session (.recv front sockfd len) (.request front len)
  | solveAccept : Brings session .solveAccept .accept
  | solveRecv : Brings session .solveRecv .solve

theorem ownEvent_brings {session : UInt32} {given : ReceiverEvent} {emitted : List ReceiverEffect}
    {event : SessionEvent} (own : ownEvent session (given, emitted) = some event) :
    Brings session given event := by
  cases given with
  | data sockfd message remoteTroll malloc =>
    simp only [ownEvent, Option.ite_none_right_eq_some, Option.some.injEq] at own
    obtain ⟨⟨intact, named⟩, rfl⟩ := own
    exact .data sockfd message remoteTroll malloc intact named
  | recv front sockfd len =>
    simp only [ownEvent, Option.ite_none_right_eq_some, Option.some.injEq] at own
    obtain ⟨named, rfl⟩ := own
    exact .recv front sockfd len named
  | solveAccept =>
    simp only [ownEvent, Option.ite_none_right_eq_some, Option.some.injEq] at own
    obtain ⟨_, rfl⟩ := own
    exact .solveAccept
  | solveRecv =>
    cases own
    exact .solveRecv
  | bind | accept => cases own

def ownEffects (session : UInt32) : ReceiverEvent × List ReceiverEffect → List SessionEffect
  | (.recv _ sockfd len, []) => if sockfd.toUInt32 = session then [.requested len] else []
  | (_, emitted) => emitted.filterMap (sessionEffect session)

end Views

section Apart

structure Apart (accepted : Table UInt32 AcceptedSocket) (waiting : List AcceptedSocket) : Prop where
  nodup : (waiting.map AcceptedSocket.session).Nodup
  apart : ∀ sock ∈ waiting, accepted.find sock.session = none
  keyed : ∀ session sock, accepted.find session = some sock → sock.session = session

def Consistent (state : Receiver) : Prop :=
  Apart state.acceptedSockets state.waitingAcceptSocketsList

theorem consistent_initial : Consistent .initial :=
  { nodup := .nil
    apart := by simp [Receiver.initial]
    keyed := by simp [Receiver.initial] }

theorem mem_insertPackage {now tmp : TrollMessage} {packages packages' : List TrollMessage}
    (inserted : insertPackage now packages = some packages') (member : tmp ∈ packages') :
    tmp = now ∨ tmp ∈ packages := by
  induction packages generalizing packages' with
  | nil =>
    cases inserted
    simpa using member
  | cons head rest ih =>
    simp only [insertPackage] at inserted
    split at inserted
    · cases inserted
    · split at inserted
      · cases inserted
        simpa using member
      · obtain ⟨later, found, rfl⟩ := Option.map_eq_some_iff.mp inserted
        rcases List.mem_cons.mp member with same | inside
        · exact .inr (by simp [same])
        · rcases ih found inside with same | old
          · exact .inl same
          · exact .inr (List.mem_cons_of_mem _ old)

theorem storePackage_eq (sock : AcceptedSocket) (now : TrollMessage) :
    ∃ packages, storePackage sock now = { sock with packages } ∧
      ∀ tmp ∈ packages, tmp = now ∨ tmp ∈ sock.packages := by
  unfold storePackage
  split
  · exact ⟨sock.packages, rfl, fun _ member => .inr member⟩
  · split
    · exact ⟨sock.packages, rfl, fun _ member => .inr member⟩
    next packages inserted => exact ⟨packages, rfl, fun _ => mem_insertPackage inserted⟩

@[simp] theorem storePackage_session (sock : AcceptedSocket) (now : TrollMessage) :
    (storePackage sock now).session = sock.session := by
  obtain ⟨_, stored, _⟩ := storePackage_eq sock now
  rw [stored]

@[simp] theorem storePackage_socketFD (sock : AcceptedSocket) (now : TrollMessage) :
    (storePackage sock now).socketFD = sock.socketFD := by
  obtain ⟨_, stored, _⟩ := storePackage_eq sock now
  rw [stored]

@[simp] theorem storePackage_base (sock : AcceptedSocket) (now : TrollMessage) :
    (storePackage sock now).base = sock.base := by
  obtain ⟨_, stored, _⟩ := storePackage_eq sock now
  rw [stored]

@[simp] theorem newSocket_session (malloc : AcceptedSocket) (sockfd : Int32) (session : UInt32) :
    (newSocket malloc sockfd session).session = session := rfl

theorem apart_update {accepted : Table UInt32 AcceptedSocket} {waiting : List AcceptedSocket}
    (apart : Apart accepted waiting) {session : UInt32} {sock : AcceptedSocket}
    (found : accepted.find session = some sock) (sock' : AcceptedSocket)
    (same : sock'.session = sock.session) : Apart (accepted.insert session sock') waiting := by
  constructor
  · exact apart.nodup
  · intro other member
    have different : other.session ≠ session := by
      intro equal
      rw [← equal, apart.apart other member] at found
      cases found
    rw [Table.find_insert_of_ne _ _ _ _ different]
    exact apart.apart other member
  · intro key other present
    rw [Table.find_insert_eq] at present
    split at present
    next equal =>
      cases present
      rw [same, equal]
      exact apart.keyed session sock found
    · exact apart.keyed key other present

theorem lookup_update {accepted : Table UInt32 AcceptedSocket} {waiting : List AcceptedSocket}
    (session key : UInt32) (sock : AcceptedSocket) :
    lookup session (accepted.insert key sock) waiting =
      if session = key then .accepted sock else lookup session accepted waiting := by
  unfold lookup
  rw [Table.find_insert_eq]
  by_cases same : session = key <;> simp [same]

theorem lookup_waiting {accepted : Table UInt32 AcceptedSocket} {waiting : List AcceptedSocket}
    (apart : Apart accepted waiting) {sock : AcceptedSocket} (member : sock ∈ waiting) :
    lookup sock.session accepted waiting = .waiting sock := by
  have absent := apart.apart sock member
  have first : waiting.find? (fun other => other.session == sock.session) = some sock := by
    have nodup := apart.nodup
    clear apart absent
    induction waiting with
    | nil => cases member
    | cons head rest ih =>
      rw [List.map_cons, List.nodup_cons] at nodup
      rcases List.mem_cons.mp member with rfl | later
      · simp
      · have different : head.session ≠ sock.session := fun same =>
          nodup.1 (same ▸ List.mem_map_of_mem later)
        simp [different, ih later nodup.2]
  simp [lookup, absent, first]

end Apart

section Arrivals

theorem storeWaiting_sessions (now : TrollMessage) (waiting : List AcceptedSocket) :
    (storeWaiting now waiting).map AcceptedSocket.session = waiting.map AcceptedSocket.session := by
  induction waiting with
  | nil => rfl
  | cons sock rest ih =>
    by_cases here : sock.session = now.session <;> simp [storeWaiting, here, ih]

theorem find_storeWaiting (session : UInt32) (now : TrollMessage) (waiting : List AcceptedSocket) :
    (storeWaiting now waiting).find? (fun sock => sock.session == session) =
      (waiting.find? fun sock => sock.session == session).map fun sock =>
        if now.session = session then storePackage sock now else sock := by
  induction waiting with
  | nil => rfl
  | cons sock rest ih =>
    by_cases here : sock.session = now.session
    · by_cases own : now.session = session
      · simp [storeWaiting, here, own]
      · simp [storeWaiting, here, own]
    · by_cases own : sock.session = session
      · have other : now.session ≠ session := fun same => here (own.trans same.symm)
        simp [storeWaiting, own, other, Ne.symm other]
      · simp [storeWaiting, here, own, ih]

def arrived (current : SessionView) (session : UInt32) (sockfd : Int32) (now : TrollMessage)
    (malloc : AcceptedSocket) : SessionView :=
  match current with
  | .absent => .waiting (storePackage (newSocket malloc sockfd session) now)
  | .waiting sock => .waiting (storePackage sock now)
  | .accepted sock => .accepted (storePackage sock now)

theorem sessionStep_arrive (session : UInt32) (current : SessionView) (sockfd : Int32)
    (now : TrollMessage) (malloc : AcceptedSocket) :
    sessionStep session current (.arrive sockfd now malloc) =
      .ok (arrived current session sockfd now malloc, []) := by
  cases current <;> rfl

variable {state : Receiver} (consistent : Consistent state) (sockfd : Int32) (now : TrollMessage)
  (malloc : AcceptedSocket)

include consistent

theorem storeData_consistent : Consistent (storeData state sockfd now malloc) := by
  unfold storeData
  split
  next sock found => exact apart_update consistent found _ (by simp)
  next absent =>
    split
    next =>
      constructor
      · rw [storeWaiting_sessions]
        exact consistent.nodup
      · intro sock member
        have named : sock.session ∈ (storeWaiting now state.waitingAcceptSocketsList).map
            AcceptedSocket.session := List.mem_map_of_mem member
        rw [storeWaiting_sessions] at named
        obtain ⟨old, present, same⟩ := List.mem_map.mp named
        rw [← same]
        exact consistent.apart old present
      · exact consistent.keyed
    next unknown =>
      constructor
      · have fresh : now.session ∉ state.waitingAcceptSocketsList.map AcceptedSocket.session := by
          intro member
          obtain ⟨sock, present, same⟩ := List.mem_map.mp member
          exact unknown (List.any_eq_true.mpr ⟨sock, present, by simp [same]⟩)
        rw [List.map_append, List.nodup_append]
        refine ⟨consistent.nodup, by simp, ?_⟩
        intro old member new single same
        simp only [List.map_cons, List.map_nil, storePackage_session, List.mem_singleton] at single
        exact fresh (by rw [← show new = now.session from single, ← same]; exact member)
      · intro sock member
        rcases List.mem_append.mp member with old | new
        · exact consistent.apart sock old
        · obtain rfl := List.mem_singleton.mp new
          rw [storePackage_session]
          exact absent
      · exact consistent.keyed

theorem storeData_view (session : UInt32) :
    view session (storeData state sockfd now malloc) =
      if now.session = session then arrived (view session state) session sockfd now malloc
      else view session state := by
  unfold storeData
  split
  next sock found =>
    by_cases own : now.session = session
    · subst own
      simp [view, lookup, found, arrived]
    · simp [view, lookup_update, own, Ne.symm own]
  next absent =>
    split
    next known =>
      by_cases own : now.session = session
      · subst own
        obtain ⟨sock, member, same⟩ := List.any_eq_true.mp known
        have found := lookup_waiting consistent member
        rw [beq_iff_eq] at same
        rw [same] at found
        simp only [view, found, if_true, arrived]
        unfold lookup at found ⊢
        simp only [absent, find_storeWaiting, if_true] at found ⊢
        split at found <;> simp_all
      · simp [view, lookup, find_storeWaiting, own]
    next unknown =>
      by_cases own : now.session = session
      · subst own
        have missing : state.waitingAcceptSocketsList.find?
            (fun sock => sock.session == now.session) = none := by
          rw [List.find?_eq_none]
          exact fun sock member same => unknown (List.any_eq_true.mpr ⟨sock, member, same⟩)
        simp [view, lookup, absent, missing, arrived]
      · simp [view, lookup, own, List.find?_append]

end Arrivals

section Acceptance

/-- The loop of `SolveAcceptCallback` as a relation: a bound socket stays as it is, or takes the
first waiting session that arrived on it. -/
inductive Accepting : List BindedSocket → Table UInt32 AcceptedSocket → List AcceptedSocket →
    List BindedSocket → Table UInt32 AcceptedSocket → List AcceptedSocket →
    List ReceiverEffect → Prop where
  | done (accepted : Table UInt32 AcceptedSocket) (waiting : List AcceptedSocket) :
      Accepting [] accepted waiting [] accepted waiting []
  | stay {sockets sockets' : List BindedSocket} {accepted accepted' : Table UInt32 AcceptedSocket}
      {waiting waiting' : List AcceptedSocket} {effects : List ReceiverEffect} (tmp : BindedSocket)
      (idle : tmp.accepting = true → ∀ sock ∈ waiting, sock.socketFD ≠ tmp.socketFD)
      (rest : Accepting sockets accepted waiting sockets' accepted' waiting' effects) :
      Accepting (tmp :: sockets) accepted waiting (tmp :: sockets') accepted' waiting' effects
  | take {sockets sockets' : List BindedSocket} {accepted accepted' : Table UInt32 AcceptedSocket}
      {waiting' : List AcceptedSocket} {effects : List ReceiverEffect} (tmp : BindedSocket)
      (before : List AcceptedSocket) (sock : AcceptedSocket) (after : List AcceptedSocket)
      (pending : tmp.accepting = true) (same : sock.socketFD = tmp.socketFD)
      (first : ∀ other ∈ before, other.socketFD ≠ tmp.socketFD)
      (rest : Accepting sockets (accepted.insert sock.session sock) (before ++ after)
        sockets' accepted' waiting' effects) :
      Accepting (tmp :: sockets) accepted (before ++ sock :: after)
        ({ tmp with accepting := false } :: sockets') accepted' waiting'
        (.acceptReturn tmp.socketFD tmp.acceptingAddr sock.session :: effects)

theorem acceptWaiting_accepting (sockets : List BindedSocket)
    (accepted : Table UInt32 AcceptedSocket) (waiting : List AcceptedSocket) :
    Accepting sockets accepted waiting (acceptWaiting sockets accepted waiting).1
      (acceptWaiting sockets accepted waiting).2.1 (acceptWaiting sockets accepted waiting).2.2.1
      (acceptWaiting sockets accepted waiting).2.2.2 := by
  induction sockets generalizing accepted waiting with
  | nil => exact .done accepted waiting
  | cons tmp rest ih =>
    cases choice : (if tmp.accepting then
        waiting.find? (fun sock => sock.socketFD == tmp.socketFD) else none) with
    | none =>
      simp only [acceptWaiting, choice]
      refine .stay tmp ?_ (ih accepted waiting)
      intro pending sock member
      rw [if_pos pending, List.find?_eq_none] at choice
      simpa using choice sock member
    | some sock =>
      simp only [acceptWaiting, choice]
      split at choice
      next pending =>
        obtain ⟨same, before, after, split, first⟩ := List.find?_eq_some_iff_append.mp choice
        have apart : ∀ other ∈ before, other.socketFD ≠ tmp.socketFD := by
          intro other member
          simpa using first other member
        have erased : waiting.eraseP (fun sock => sock.socketFD == tmp.socketFD) =
            before ++ after := by
          rw [split, List.eraseP_append_right _ (by simpa using apart),
            List.eraseP_cons_of_pos (by exact same)]
        have continued := ih (accepted.insert sock.session sock)
          (waiting.eraseP (fun sock => sock.socketFD == tmp.socketFD))
        subst split
        rw [erased] at continued ⊢
        exact .take tmp before sock after pending (by simpa using same) apart continued
      · cases choice

theorem accepting_none (sockets : List BindedSocket) (accepted : Table UInt32 AcceptedSocket) :
    Accepting sockets accepted [] sockets accepted [] [] := by
  induction sockets with
  | nil => exact .done accepted []
  | cons tmp rest ih => exact .stay tmp (by simp) ih

-- With nothing waiting the callback returns at once, which is what its loop would do.
theorem solveAccept_accepting {order : IterOrder UInt32} {state state' : Receiver}
    {emitted : List ReceiverEffect}
    (taken : Receiver.step order state .solveAccept = .ok (state', emitted)) :
    Accepting state.bindedSockets state.acceptedSockets state.waitingAcceptSocketsList
      state'.bindedSockets state'.acceptedSockets state'.waitingAcceptSocketsList emitted := by
  simp only [Receiver.step, solveAcceptCallback] at taken
  split at taken
  next empty =>
    cases taken
    have none : state.waitingAcceptSocketsList = [] := List.isEmpty_iff.mp empty
    rw [none]
    exact accepting_none state.bindedSockets state.acceptedSockets
  · cases taken
    exact acceptWaiting_accepting _ _ _

theorem lookup_move {accepted : Table UInt32 AcceptedSocket} {before after : List AcceptedSocket}
    {sock : AcceptedSocket} (apart : Apart accepted (before ++ sock :: after)) (session : UInt32) :
    Apart (accepted.insert sock.session sock) (before ++ after) ∧
      lookup session (accepted.insert sock.session sock) (before ++ after) =
        if session = sock.session then .accepted sock
        else lookup session accepted (before ++ sock :: after) := by
  have shape := apart.nodup
  rw [List.map_append, List.map_cons, List.nodup_middle, List.nodup_cons, ← List.map_append] at shape
  obtain ⟨fresh, nodup⟩ := shape
  constructor
  · constructor
    · exact nodup
    · intro other member
      have different : other.session ≠ sock.session := fun same =>
        fresh (same ▸ List.mem_map_of_mem member)
      rw [Table.find_insert_of_ne _ _ _ _ different]
      apply apart.apart other
      simp only [List.mem_append, List.mem_cons] at member ⊢
      tauto
    · intro key other present
      rw [Table.find_insert_eq] at present
      split at present
      next equal =>
        cases present
        exact equal.symm
      · exact apart.keyed key other present
  · rw [lookup_update]
    by_cases own : session = sock.session
    · simp [own]
    · simp [own, lookup, List.find?_append, Ne.symm own]

theorem accepting_lookup {sockets sockets' : List BindedSocket}
    {accepted accepted' : Table UInt32 AcceptedSocket} {waiting waiting' : List AcceptedSocket}
    {effects : List ReceiverEffect} (apart : Apart accepted waiting)
    (ran : Accepting sockets accepted waiting sockets' accepted' waiting' effects)
    (session : UInt32) :
    Apart accepted' waiting' ∧
      ((effects.any (acceptsSession session) = false ∧
          lookup session accepted' waiting' = lookup session accepted waiting) ∨
        (effects.any (acceptsSession session) = true ∧
          ∃ sock, lookup session accepted waiting = .waiting sock ∧
            lookup session accepted' waiting' = .accepted sock)) := by
  induction ran with
  | done => exact ⟨apart, .inl ⟨rfl, rfl⟩⟩
  | stay tmp idle rest ih => exact ih apart
  | take tmp before sock after pending same first rest ih =>
    obtain ⟨apart', moved⟩ := lookup_move apart session
    obtain ⟨final, outcome⟩ := ih apart'
    refine ⟨final, ?_⟩
    by_cases own : session = sock.session
    · subst own
      have found : lookup sock.session _ _ = .waiting sock := lookup_waiting apart (by simp)
      rw [if_pos rfl] at moved
      rw [moved] at outcome
      rcases outcome with ⟨_, kept⟩ | ⟨_, _, waiting, _⟩
      · exact .inr ⟨by simp [acceptsSession], sock, found, kept⟩
      · cases waiting
    · rw [if_neg own] at moved
      rw [moved] at outcome
      simpa [acceptsSession, Ne.symm own] using outcome

theorem accepting_effects {sockets sockets' : List BindedSocket}
    {accepted accepted' : Table UInt32 AcceptedSocket} {waiting waiting' : List AcceptedSocket}
    {effects : List ReceiverEffect}
    (ran : Accepting sockets accepted waiting sockets' accepted' waiting' effects)
    (session : UInt32) : effects.filterMap (sessionEffect session) = [] := by
  induction ran with
  | done => rfl
  | stay tmp idle rest ih => exact ih
  | take tmp before sock after pending same first rest ih => simpa [sessionEffect] using ih

end Acceptance

section Solving

theorem solved_foreign {session other : UInt32} (different : other ≠ session)
    {sock final : AcceptedSocket} {effects : List ReceiverEffect}
    (ran : solveRecvSocket other sock = .ok (final, effects)) :
    effects.filterMap (sessionEffect session) = [] := by
  obtain ⟨_, solved⟩ := solveRecvSocket_solved ran
  obtain ⟨freed, _, ⟨_, rfl⟩ | ⟨_, _, _, data, _, rfl⟩⟩ := solved.answer <;>
    simp [List.filterMap_map, Function.comp_def, sessionEffect, different]

variable {order : IterOrder UInt32} {state state' : Receiver} {effects : List ReceiverEffect}
  (consistent : Consistent state) (ran : solveRecvCallback order state = .ok (state', effects))

def visitSocket (_ : Unit) (session : UInt32) (sock : AcceptedSocket) :
    Except Stop (Unit × AcceptedSocket × List ReceiverEffect) :=
  match solveRecvSocket session sock with
  | .error stop => .error stop
  | .ok (sock, effects) => .ok ((), sock, effects)

theorem visitSocket_ok {before after : Unit} {session : UInt32} {sock final : AcceptedSocket}
    {effects : List ReceiverEffect}
    (visited : visitSocket before session sock = .ok (after, final, effects)) :
    solveRecvSocket session sock = .ok (final, effects) := by
  unfold visitSocket at visited
  split at visited
  · cases visited
  next solved =>
    cases visited
    exact solved

include ran in
omit consistent in
theorem solveRecvCallback_swept :
    ∃ accepted, Table.sweep visitSocket (order.visit state.acceptedSockets.keys) ()
        state.acceptedSockets = .ok ((), accepted, effects) ∧
      state' = { state with acceptedSockets := accepted } := by
  unfold solveRecvCallback at ran
  split at ran
  · cases ran
  next swept =>
    cases ran
    exact ⟨_, swept, rfl⟩

omit consistent ran in
theorem solveRecvCallback_of_swept {accepted : Table UInt32 AcceptedSocket}
    (swept : Table.sweep visitSocket (order.visit state.acceptedSockets.keys) ()
      state.acceptedSockets = .ok ((), accepted, effects)) :
    solveRecvCallback order state = .ok ({ state with acceptedSockets := accepted }, effects) := by
  unfold solveRecvCallback
  split
  next stopped => cases stopped.symm.trans swept
  next done =>
    cases done.symm.trans swept
    rfl

include consistent ran in
theorem solveRecv_consistent : Consistent state' := by
  obtain ⟨accepted, swept, rfl⟩ := solveRecvCallback_swept ran
  apply Table.sweep_invariant
    (fun _ table _ => Apart table state.waitingAcceptSocketsList) ?_ [] consistent swept
  intro _ table _ session sock _ final _ apart found visited
  obtain ⟨_, solved⟩ := solveRecvSocket_solved (visitSocket_ok visited)
  exact apart_update apart found final solved.session

include ran in
omit consistent in
theorem solveRecv_session (session : UInt32) :
    sessionStep session (view session state) .solve =
      .ok (view session state', effects.filterMap (sessionEffect session)) := by
  obtain ⟨accepted, swept, rfl⟩ := solveRecvCallback_swept ran
  have foreign : Table.Foreign visitSocket (sessionEffect session) session
      (order.visit state.acceptedSockets.keys) state.acceptedSockets :=
    fun _ _ different _ _ _ _ _ _ visited => solved_foreign different (visitSocket_ok visited)
  have nodup := order.nodup state.acceptedSockets
  cases found : state.acceptedSockets.find session with
  | none =>
    have outside : session ∉ order.visit state.acceptedSockets.keys := by
      rw [order.mem, found]
      simp
    have kept := Table.sweep_unvisited swept outside
    have silent := Table.sweep_foreign nodup foreign outside swept
    have same : view session { state with acceptedSockets := accepted } = view session state := by
      simp [view, lookup, kept]
    rw [same, silent]
    simp only [view, lookup, found]
    split <;> rfl
  | some sock =>
    have inside : session ∈ order.visit state.acceptedSockets.keys := by
      rw [order.mem, found]
      simp
    obtain ⟨_, _, final, emitted, visited, found', own⟩ :=
      Table.sweep_visited nodup foreign swept inside found
    simp [view, lookup, found, found', sessionStep, visitSocket_ok visited, own]

end Solving

section Steps

/-- What a step of the receiving half can do. -/
inductive ReceiverMove (order : IterOrder UInt32) (state : Receiver) :
    ReceiverEvent → Receiver → List ReceiverEffect → Prop where
  | bind (front : SockAddr) (sockfd : Int32) (granted : Bool)
      (fresh : ∀ tmp ∈ state.bindedSockets, tmp.socketFD ≠ sockfd) :
      ReceiverMove order state (.bind front sockfd granted)
        { state with
          bindedSockets := state.bindedSockets ++
            [{ socketFD := sockfd, accepting := false, acceptingAddr := default }] }
        [.bindReturn front 0]
  | accept (front : SockAddr) (sockfd : Int32) :
      ReceiverMove order state (.accept front sockfd) (tcpdAccept state front sockfd).1
        (tcpdAccept state front sockfd).2
  | refused (front : SockAddr) (sockfd : Int32) (len : UInt64) (value : Int32)
      (reason : len = 0 ∨ ∀ now, state.acceptedSockets.find sockfd.toUInt32 = some now →
        now.receivingLength ≠ 0) :
      ReceiverMove order state (.recv front sockfd len) state [.recvError front value]
  | request (front : SockAddr) (sockfd : Int32) (len : UInt64) (now : AcceptedSocket)
      (found : state.acceptedSockets.find sockfd.toUInt32 = some now) (positive : len ≠ 0)
      (idle : now.receivingLength = 0) :
      ReceiverMove order state (.recv front sockfd len)
        { state with
          acceptedSockets := state.acceptedSockets.insert sockfd.toUInt32
            { now with receivingLength := len, receivingAddr := front } } []
  | data (sockfd : Int32) (message : TrollMessage) (remoteTroll : SockAddr)
      (malloc : AcceptedSocket) (intact : message.Intact) :
      ReceiverMove order state (.data sockfd message remoteTroll malloc)
        (storeData state sockfd message malloc) [.ack sockfd (ackOf message remoteTroll)]
  | garbled (sockfd : Int32) (message : TrollMessage) (remoteTroll : SockAddr)
      (malloc : AcceptedSocket) (damaged : ¬ message.Intact) :
      ReceiverMove order state (.data sockfd message remoteTroll malloc) state []
  | solveAccept (state' : Receiver) (effects : List ReceiverEffect)
      (ran : Accepting state.bindedSockets state.acceptedSockets state.waitingAcceptSocketsList
        state'.bindedSockets state'.acceptedSockets state'.waitingAcceptSocketsList effects) :
      ReceiverMove order state .solveAccept state' effects
  | solveRecv (state' : Receiver) (effects : List ReceiverEffect)
      (ran : solveRecvCallback order state = .ok (state', effects)) :
      ReceiverMove order state .solveRecv state' effects

theorem tcpdRecv_move (order : IterOrder UInt32) (state : Receiver) (front : SockAddr)
    (sockfd : Int32) (len : UInt64) :
    ReceiverMove order state (.recv front sockfd len) (tcpdRecv state front sockfd len).1
      (tcpdRecv state front sockfd len).2 := by
  by_cases zero : len = 0
  · simp only [tcpdRecv, zero, if_true]
    exact .refused front sockfd 0 0 (.inl rfl)
  · cases found : state.acceptedSockets.find sockfd.toUInt32 with
    | none =>
      simp only [tcpdRecv, zero, if_false, found]
      exact .refused front sockfd len (-2) (.inr fun now present => by simp [found] at present)
    | some now =>
      by_cases idle : now.receivingLength = 0
      · simp only [tcpdRecv, zero, if_false, found, idle, ne_eq, not_true]
        exact .request front sockfd len now found zero idle
      · simp only [tcpdRecv, zero, if_false, found, idle, ne_eq, not_false_eq_true, if_true]
        refine .refused front sockfd len (-3) (.inr fun other present => ?_)
        obtain rfl := Option.some.inj (found.symm.trans present)
        exact idle

variable {order : IterOrder UInt32} {state state' : Receiver} {event : ReceiverEvent}
  {emitted : List ReceiverEffect} (taken : Receiver.step order state event = .ok (state', emitted))

include taken

theorem step_move : ReceiverMove order state event state' emitted := by
  cases event with
  | bind front sockfd granted =>
    simp only [Receiver.step, tcpdBind] at taken
    split at taken
    · cases taken
    next fresh =>
      cases taken
      apply ReceiverMove.bind
      intro tmp member same
      exact fresh (by simpa using .inl ⟨tmp, member, same⟩)
  | accept front sockfd =>
    cases taken
    exact .accept front sockfd
  | recv front sockfd len =>
    have answer := Except.ok.inj taken
    have move := tcpdRecv_move order state front sockfd len
    rwa [answer] at move
  | data sockfd message remoteTroll malloc =>
    simp only [Receiver.step, recvData] at taken
    split at taken
    · split at taken
      next intact =>
        cases taken
        exact .data sockfd message remoteTroll malloc intact
      next damaged =>
        cases taken
        exact .garbled sockfd message remoteTroll malloc damaged
    · cases taken
  | solveAccept => exact .solveAccept state' emitted (solveAccept_accepting taken)
  | solveRecv => exact .solveRecv state' emitted taken

theorem step_consistent (consistent : Consistent state) : Consistent state' := by
  cases step_move taken with
  | bind | accept | refused | garbled => exact consistent
  | request front sockfd len now found positive idle =>
    exact apart_update consistent found _ rfl
  | data sockfd message remoteTroll malloc intact =>
    exact storeData_consistent consistent sockfd message malloc
  | solveAccept _ _ ran => exact (accepting_lookup consistent ran 0).1
  | solveRecv _ _ ran => exact solveRecv_consistent consistent ran

theorem step_session (consistent : Consistent state) (session : UInt32) :
    (ownEvent session (event, emitted) = none ∧ view session state' = view session state ∧
        ownEffects session (event, emitted) = []) ∨
      ∃ own, ownEvent session (event, emitted) = some own ∧
        sessionStep session (view session state) own =
          .ok (view session state', ownEffects session (event, emitted)) := by
  cases step_move taken with
  | bind => exact .inl ⟨rfl, rfl, rfl⟩
  | accept front sockfd =>
    refine .inl ⟨rfl, rfl, ?_⟩
    change List.filterMap (sessionEffect session) (if _ then _ else _) = []
    split <;> rfl
  | refused front sockfd len value reason =>
    -- The answer to a refused RECV does not name the session.
    by_cases own : sockfd.toUInt32 = session
    · refine .inr ⟨_, if_pos own, ?_⟩
      subst own
      rcases reason with rfl | busy
      · cases view sockfd.toUInt32 state <;> simp [sessionStep, ownEffects, sessionEffect]
      · cases found : state.acceptedSockets.find sockfd.toUInt32 with
        | none =>
          simp only [view, lookup, found]
          split <;> rfl
        | some now =>
          simp [view, lookup, found, sessionStep, busy now found, ownEffects, sessionEffect]
    · exact .inl ⟨if_neg own, rfl, rfl⟩
  | request front sockfd len now found positive idle =>
    by_cases own : sockfd.toUInt32 = session
    · subst own
      refine .inr ⟨_, if_pos rfl, ?_⟩
      simp [view, lookup, found, sessionStep, positive, idle, ownEffects]
    · refine .inl ⟨if_neg own, ?_, if_neg own⟩
      simp only [view, lookup_update, if_neg (Ne.symm own)]
  | data sockfd message remoteTroll malloc intact =>
    by_cases own : message.session = session
    · refine .inr ⟨_, if_pos ⟨intact, own⟩, ?_⟩
      rw [sessionStep_arrive, storeData_view consistent, if_pos own]
      rfl
    · refine .inl ⟨if_neg fun both => own both.2, ?_, rfl⟩
      rw [storeData_view consistent, if_neg own]
  | garbled sockfd message remoteTroll malloc damaged =>
    exact .inl ⟨if_neg fun both => damaged both.1, rfl, rfl⟩
  | solveAccept state' effects ran =>
    have silent : ownEffects session (.solveAccept, emitted) = [] := accepting_effects ran session
    rcases (accepting_lookup consistent ran session).2 with
      ⟨foreign, same⟩ | ⟨own, sock, waiting, accepted⟩
    · exact .inl ⟨by simp [ownEvent, foreign], same, silent⟩
    · refine .inr ⟨.accept, by simp [ownEvent, own], ?_⟩
      rw [silent]
      simp only [view, waiting, accepted, sessionStep]
  | solveRecv state' effects ran => exact .inr ⟨.solve, rfl, solveRecv_session ran session⟩

end Steps

section Moves

inductive SessionMove (session : UInt32) (current : SessionView) :
    SessionEvent → SessionView → List SessionEffect → Prop where
  | arrive (sockfd : Int32) (message : TrollMessage) (malloc : AcceptedSocket) :
      SessionMove session current (.arrive sockfd message malloc)
        (arrived current session sockfd message malloc) []
  | accept (sock : AcceptedSocket) (waiting : current = .waiting sock) :
      SessionMove session current .accept (.accepted sock) []
  | request (sock : AcceptedSocket) (front : SockAddr) (len : UInt64)
      (accepted : current = .accepted sock) (positive : len ≠ 0)
      (idle : sock.receivingLength = 0) :
      SessionMove session current (.request front len)
        (.accepted { sock with receivingLength := len, receivingAddr := front }) [.requested len]
  | solve (sock final : AcceptedSocket) (effects : List ReceiverEffect)
      (accepted : current = .accepted sock)
      (solved : solveRecvSocket session sock = .ok (final, effects)) :
      SessionMove session current .solve (.accepted final)
        (effects.filterMap (sessionEffect session))
  | idle (event : SessionEvent) (quiet : ∀ sockfd message malloc, event ≠ .arrive sockfd message malloc) :
      SessionMove session current event current []

theorem sessionStep_move {session : UInt32} {current next : SessionView} {event : SessionEvent}
    {effects : List SessionEffect}
    (taken : sessionStep session current event = .ok (next, effects)) :
    SessionMove session current event next effects := by
  cases event with
  | arrive sockfd message malloc =>
    rw [sessionStep_arrive] at taken
    cases taken
    exact .arrive sockfd message malloc
  | accept =>
    cases current with
    | waiting sock =>
      cases taken
      exact .accept sock rfl
    | absent | accepted =>
      cases taken
      exact .idle _ (by simp)
  | request front len =>
    cases current with
    | accepted sock =>
      simp only [sessionStep] at taken
      split at taken
      next both =>
        cases taken
        exact .request sock front len rfl both.1 both.2
      · cases taken
        exact .idle _ (by simp)
    | absent | waiting =>
      cases taken
      exact .idle _ (by simp)
  | solve =>
    cases current with
    | accepted sock =>
      simp only [sessionStep] at taken
      split at taken
      · cases taken
      next final effects solved =>
        cases taken
        exact .solve sock final effects rfl solved
    | absent | waiting =>
      cases taken
      exact .idle _ (by simp)

end Moves

theorem step_data {order : IterOrder UInt32} {state : Receiver} (sockfd : Int32)
    {message : TrollMessage} (bound : state.bindedSockets.any fun tmp => tmp.socketFD == sockfd)
    (intact : message.Intact) (remoteTroll : SockAddr) (malloc : AcceptedSocket) :
    Receiver.step order state (.data sockfd message remoteTroll malloc) =
      .ok (storeData state sockfd message malloc, [.ack sockfd (ackOf message remoteTroll)]) := by
  simp [Receiver.step, bound, recvData, intact]

section Runs

variable {order : IterOrder UInt32} {first state : Receiver}
  {history : Machine.History ReceiverEvent ReceiverEffect}

theorem run_consistent_from (consistent : Consistent first)
    (run : Machine.Run (Receiver.step order) first history state) : Consistent state :=
  run.invariant (fun _ current => Consistent current) consistent
    fun _ _ _ _ _ _ consistent taken => step_consistent taken consistent

theorem run_session_from (consistent : Consistent first)
    (run : Machine.Run (Receiver.step order) first history state) (session : UInt32) :
    ∃ own, Machine.Run (sessionStep session) (view session first) own (view session state) ∧
      Machine.events own = history.filterMap (ownEvent session) ∧
      Machine.outputs own = history.flatMap (ownEffects session) := by
  induction run with
  | start => exact ⟨[], .start, rfl, rfl⟩
  | next event state' emitted before taken ih =>
    obtain ⟨own, ran, events, outputs⟩ := ih
    rcases step_session taken (run_consistent_from consistent before) session with
      ⟨foreign, same, silent⟩ | ⟨event', found, stepped⟩
    · refine ⟨own, same ▸ ran, ?_, ?_⟩
      · simp [events, foreign]
      · simp [outputs, silent]
    · refine ⟨_, .next event' _ _ ran stepped, ?_, ?_⟩
      · simp [events, found]
      · simp [outputs]

theorem run_consistent (run : Machine.Run (Receiver.step order) .initial history state) :
    Consistent state :=
  run_consistent_from consistent_initial run

theorem run_session (run : Machine.Run (Receiver.step order) .initial history state)
    (session : UInt32) :
    ∃ own, Machine.Run (sessionStep session) .absent own (view session state) ∧
      Machine.events own = history.filterMap (ownEvent session) ∧
      Machine.outputs own = history.flatMap (ownEffects session) :=
  run_session_from consistent_initial run session

end Runs

end NetworkProj.Reception
