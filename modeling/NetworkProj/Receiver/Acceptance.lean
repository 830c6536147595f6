import Mathlib.Data.List.Perm.Basic
import NetworkProj.Receiver.Reordering

set_option autoImplicit false

namespace NetworkProj.Reception

section Queues

def validArrivals (events : List ReceiverEvent) : List (Int32 × UInt32) :=
  events.filterMap fun
    | .data sockfd message _ _ => if message.Intact then some (sockfd, message.session) else none
    | _ => none

def addFirst (seen : List (Int32 × UInt32)) (arrival : Int32 × UInt32) : List (Int32 × UInt32) :=
  if arrival.2 ∈ seen.map Prod.snd then seen else seen ++ [arrival]

def firsts (arrivals : List (Int32 × UInt32)) : List (Int32 × UInt32) :=
  arrivals.foldl addFirst []

def accepts (events : List ReceiverEvent) : List (Int32 × SockAddr) :=
  events.filterMap fun
    | .accept front sockfd => some (sockfd, front)
    | _ => none

def replies (effects : List ReceiverEffect) : List (Int32 × SockAddr) :=
  effects.filterMap fun
    | .acceptReturn sockfd addr _ => some (sockfd, addr)
    | .acceptError sockfd addr _ => some (sockfd, addr)
    | _ => none

def returned (effects : List ReceiverEffect) : List (Int32 × UInt32) :=
  effects.filterMap fun
    | .acceptReturn sockfd _ session => some (sockfd, session)
    | _ => none

def waitingSessions (waiting : List AcceptedSocket) : List (Int32 × UInt32) :=
  waiting.map fun sock => (sock.socketFD, sock.session)

def pendingAccepts (sockets : List BindedSocket) : List (Int32 × SockAddr) :=
  (sockets.filter BindedSocket.accepting).map fun tmp => (tmp.socketFD, tmp.acceptingAddr)

def onSocket {β : Type} (sockfd : Int32) (entries : List (Int32 × β)) : List β :=
  (entries.filter fun entry => entry.1 == sockfd).map Prod.snd

@[simp] theorem onSocket_append {β : Type} (sockfd : Int32) (left right : List (Int32 × β)) :
    onSocket sockfd (left ++ right) = onSocket sockfd left ++ onSocket sockfd right := by
  simp [onSocket]

@[simp] theorem validArrivals_append (left right : List ReceiverEvent) :
    validArrivals (left ++ right) = validArrivals left ++ validArrivals right :=
  List.filterMap_append

@[simp] theorem accepts_append (left right : List ReceiverEvent) :
    accepts (left ++ right) = accepts left ++ accepts right :=
  List.filterMap_append

@[simp] theorem replies_append (left right : List ReceiverEffect) :
    replies (left ++ right) = replies left ++ replies right :=
  List.filterMap_append

@[simp] theorem returned_append (left right : List ReceiverEffect) :
    returned (left ++ right) = returned left ++ returned right :=
  List.filterMap_append

theorem firsts_append (arrivals : List (Int32 × UInt32)) (arrival : Int32 × UInt32) :
    firsts (arrivals ++ [arrival]) = addFirst (firsts arrivals) arrival := by
  simp [firsts]

theorem addFirst_nodup {seen : List (Int32 × UInt32)} (nodup : (seen.map Prod.snd).Nodup)
    (arrival : Int32 × UInt32) : ((addFirst seen arrival).map Prod.snd).Nodup := by
  unfold addFirst
  split
  · exact nodup
  next fresh =>
    rw [List.map_append]
    apply List.Nodup.append nodup (by simp)
    simpa using fresh

theorem mem_addFirst (seen : List (Int32 × UInt32)) (arrival : Int32 × UInt32) (session : UInt32) :
    session ∈ (addFirst seen arrival).map Prod.snd ↔
      session = arrival.2 ∨ session ∈ seen.map Prod.snd := by
  unfold addFirst
  split
  next old =>
    constructor
    · exact .inr
    · intro either
      rcases either with same | member
      · rw [same]
        exact old
      · exact member
  · rw [List.map_append, List.mem_append, List.map_singleton, List.mem_singleton]
    exact or_comm

end Queues

section Requests

variable (front : SockAddr) (sockfd : Int32)

theorem requestAccept_absent (result : Int32) {sockets : List BindedSocket}
    (absent : ∀ tmp ∈ sockets, tmp.socketFD ≠ sockfd) :
    requestAccept front sockfd result sockets = (result, sockets) := by
  induction sockets with
  | nil => rfl
  | cons tmp rest ih =>
    have different := absent tmp (by simp)
    simp [requestAccept, different, ih fun other member => absent other (by simp [member])]

theorem requestAccept_cases {sockets : List BindedSocket}
    (nodup : (sockets.map BindedSocket.socketFD).Nodup) :
    ((∀ tmp ∈ sockets, tmp.socketFD ≠ sockfd) ∧
        requestAccept front sockfd (-1) sockets = (-1, sockets)) ∨
      (∃ tmp ∈ sockets, tmp.socketFD = sockfd ∧ tmp.accepting = true ∧
        requestAccept front sockfd (-1) sockets = (-2, sockets)) ∨
      ∃ before tmp after, sockets = before ++ tmp :: after ∧ tmp.socketFD = sockfd ∧
        tmp.accepting = false ∧ requestAccept front sockfd (-1) sockets =
          (0, before ++ { tmp with accepting := true, acceptingAddr := front } :: after) := by
  induction sockets with
  | nil => exact .inl ⟨by simp, rfl⟩
  | cons tmp rest ih =>
    obtain ⟨fresh, nodup⟩ := List.nodup_cons.mp nodup
    by_cases here : tmp.socketFD = sockfd
    · have absent : ∀ other ∈ rest, other.socketFD ≠ sockfd := by
        intro other member same
        exact fresh (here.trans same.symm ▸ List.mem_map_of_mem member)
      cases accepting : tmp.accepting with
      | true =>
        exact .inr (.inl ⟨tmp, by simp, here, accepting, by simp [requestAccept, here, accepting]⟩)
      | false =>
        refine .inr (.inr ⟨[], tmp, rest, rfl, here, accepting, ?_⟩)
        simp [requestAccept, here, accepting, requestAccept_absent front sockfd 0 absent]
    · rcases ih nodup with
        ⟨absent, same⟩ | ⟨other, member, same, accepting, refused⟩ |
          ⟨before, other, after, rfl, same, accepting, added⟩
      · refine .inl ⟨?_, by simp [requestAccept, here, same]⟩
        intro other member
        rcases List.mem_cons.mp member with rfl | inside
        · exact here
        · exact absent other inside
      · exact .inr (.inl ⟨other, by simp [member], same, accepting,
          by simp [requestAccept, here, refused]⟩)
      · exact .inr (.inr ⟨tmp :: before, other, after, rfl, same, accepting,
          by simp [requestAccept, here, added]⟩)

end Requests

section Accepted

variable {sockets sockets' : List BindedSocket} {accepted accepted' : Table UInt32 AcceptedSocket}
  {waiting waiting' : List AcceptedSocket} {effects : List ReceiverEffect}
  (ran : Accepting sockets accepted waiting sockets' accepted' waiting' effects)

include ran

theorem accepting_sockets :
    sockets'.map BindedSocket.socketFD = sockets.map BindedSocket.socketFD := by
  induction ran with
  | done => rfl
  | stay tmp idle rest ih => simp [ih]
  | take tmp before sock after pending same first rest ih => simp [ih]

theorem accepting_waiting : waiting'.Sublist waiting := by
  induction ran with
  | done => exact List.Sublist.refl _
  | stay tmp idle rest ih => exact ih
  | take tmp before sock after pending same first rest ih =>
    exact ih.trans (List.Sublist.append_left (List.sublist_cons_self sock after) before)

theorem accepting_queue (sockfd : Int32) :
    onSocket sockfd (returned effects ++ waitingSessions waiting') =
      onSocket sockfd (waitingSessions waiting) := by
  induction ran with
  | done => rfl
  | stay tmp idle rest ih => exact ih
  | @take _ _ _ _ _ effects tmp before sock after pending same first rest ih =>
    have head : returned (.acceptReturn tmp.socketFD tmp.acceptingAddr sock.session :: effects) =
        (tmp.socketFD, sock.session) :: returned effects := rfl
    by_cases here : tmp.socketFD = sockfd
    · have none : onSocket sockfd (waitingSessions before) = [] := by
        simp only [onSocket, waitingSessions, List.filter_map, List.map_map, List.map_eq_nil_iff,
          List.filter_eq_nil_iff]
        intro other member
        simpa [here] using first other member
      simp only [waitingSessions, List.map_append, List.map_cons, onSocket_append] at ih none ⊢
      simp only [head, none, List.nil_append] at ih ⊢
      simp [onSocket, here, same] at ih ⊢
      exact ih
    · have different : sock.socketFD ≠ sockfd := by
        rw [same]
        exact here
      simp only [waitingSessions, List.map_append, List.map_cons, onSocket_append] at ih ⊢
      simpa [onSocket, head, here, different] using ih

theorem accepting_replies :
    (pendingAccepts sockets).Perm (replies effects ++ pendingAccepts sockets') := by
  induction ran with
  | done => exact List.Perm.refl _
  | stay tmp idle rest ih =>
    cases accepting : tmp.accepting with
    | true =>
      have cons (list : List BindedSocket) : pendingAccepts (tmp :: list) =
          (tmp.socketFD, tmp.acceptingAddr) :: pendingAccepts list := by
        simp [pendingAccepts, accepting]
      rw [cons, cons]
      exact (ih.cons _).trans List.perm_middle.symm
    | false => simpa [pendingAccepts, accepting] using ih
  | take tmp before sock after pending same first rest ih =>
    simpa [pendingAccepts, pending, replies] using ih

theorem accepting_done : ∀ tmp ∈ sockets', tmp.accepting = true →
    ∀ sock ∈ waiting', sock.socketFD ≠ tmp.socketFD := by
  induction ran with
  | done => simp
  | stay tmp idle rest ih =>
    intro other member accepting sock inside
    rcases List.mem_cons.mp member with rfl | later
    · exact idle accepting sock ((accepting_waiting rest).subset inside)
    · exact ih other later accepting sock inside
  | take tmp before sock after pending same first rest ih =>
    intro other member accepting found inside
    rcases List.mem_cons.mp member with rfl | later
    · cases accepting
    · exact ih other later accepting found inside

omit ran in
theorem acceptsSession_iff (session : UInt32) (effects : List ReceiverEffect) :
    effects.any (acceptsSession session) = true ↔ session ∈ (returned effects).map Prod.snd := by
  induction effects with
  | nil => simp [returned]
  | cons effect rest ih =>
    cases effect with
    | acceptReturn sockfd addr other =>
      by_cases same : other = session
      · simp [acceptsSession, returned, same]
      · simpa [acceptsSession, returned, same, Ne.symm same] using ih
    | bindReturn | acceptError | recvReturn | recvError | ack | free => exact ih

theorem accepting_once (apart : Apart accepted waiting) :
    ((returned effects).map Prod.snd).Nodup := by
  induction ran with
  | done => exact .nil
  | stay tmp idle rest ih => exact ih apart
  | take tmp before sock after pending same first rest ih =>
    obtain ⟨apart', moved⟩ := lookup_move apart sock.session
    rw [if_pos rfl] at moved
    refine List.nodup_cons.mpr ⟨?_, ih apart'⟩
    intro again
    rcases (accepting_lookup apart' rest sock.session).2 with ⟨never, _⟩ | ⟨_, _, waiting, _⟩
    · rw [← Bool.not_eq_true, acceptsSession_iff] at never
      exact never again
    · rw [moved] at waiting
      cases waiting

end Accepted

section Protocol

/-- What a run has asked, answered and left open. -/
structure Ledger (history : Machine.History ReceiverEvent ReceiverEffect) (state : Receiver) :
    Prop where
  bound : (state.bindedSockets.map BindedSocket.socketFD).Nodup
  known : ∀ session, view session state ≠ .absent ↔
    session ∈ (firsts (validArrivals (Machine.events history))).map Prod.snd
  numbered : ((firsts (validArrivals (Machine.events history))).map Prod.snd).Nodup
  queue : ∀ sockfd, onSocket sockfd (returned (Machine.outputs history) ++
      waitingSessions state.waitingAcceptSocketsList) =
    onSocket sockfd (firsts (validArrivals (Machine.events history)))
  accepted : ∀ session ∈ (returned (Machine.outputs history)).map Prod.snd,
    ∃ sock, view session state = .accepted sock
  once : ((returned (Machine.outputs history)).map Prod.snd).Nodup
  answered : (accepts (Machine.events history)).Perm
    (replies (Machine.outputs history) ++ pendingAccepts state.bindedSockets)

theorem ledger_initial : Ledger [] .initial where
  bound := .nil
  known := by simp [view, lookup, Receiver.initial, validArrivals, firsts]
  numbered := .nil
  queue := fun _ => rfl
  accepted := by simp [returned]
  once := .nil
  answered := List.Perm.refl _

theorem waitingSessions_storeWaiting (now : TrollMessage) (waiting : List AcceptedSocket) :
    waitingSessions (storeWaiting now waiting) = waitingSessions waiting := by
  unfold waitingSessions
  induction waiting with
  | nil => rfl
  | cons sock rest ih =>
    by_cases here : sock.session = now.session <;> simp [storeWaiting, here, ih]

theorem waitingSessions_storeData {state : Receiver} (consistent : Consistent state)
    (sockfd : Int32) (now : TrollMessage) (malloc : AcceptedSocket) :
    (view now.session state ≠ .absent ∧
        waitingSessions (storeData state sockfd now malloc).waitingAcceptSocketsList =
          waitingSessions state.waitingAcceptSocketsList) ∨
      (view now.session state = .absent ∧
        waitingSessions (storeData state sockfd now malloc).waitingAcceptSocketsList =
          waitingSessions state.waitingAcceptSocketsList ++ [(sockfd, now.session)]) := by
  unfold storeData
  split
  next sock found => exact .inl ⟨by simp [view, lookup, found], rfl⟩
  next absent =>
    split
    next known =>
      obtain ⟨sock, member, same⟩ := List.any_eq_true.mp known
      have found := lookup_waiting consistent member
      rw [beq_iff_eq.mp same] at found
      exact .inl ⟨by simp [view, found], waitingSessions_storeWaiting now _⟩
    next unknown =>
      have missing : state.waitingAcceptSocketsList.find?
          (fun sock => sock.session == now.session) = none := by
        rw [List.find?_eq_none]
        exact fun sock member same => unknown (List.any_eq_true.mpr ⟨sock, member, same⟩)
      exact .inr ⟨by simp [view, lookup, absent, missing],
        by simp [waitingSessions, newSocket]⟩

theorem storeData_sockets (state : Receiver) (sockfd : Int32) (now : TrollMessage)
    (malloc : AcceptedSocket) :
    (storeData state sockfd now malloc).bindedSockets = state.bindedSockets := by
  unfold storeData
  split
  · rfl
  · split <;> rfl

variable {order : IterOrder UInt32} {state state' : Receiver} {event : ReceiverEvent}
  {emitted : List ReceiverEffect} {history : Machine.History ReceiverEvent ReceiverEffect}

theorem ledger_data (consistent : Consistent state) (ledger : Ledger history state)
    (sockfd : Int32) {now : TrollMessage} (intact : now.Intact) (remoteTroll : SockAddr)
    (malloc : AcceptedSocket) :
    Ledger (history ++ [(.data sockfd now remoteTroll malloc, [.ack sockfd (ackOf now remoteTroll)])])
      (storeData state sockfd now malloc) := by
  have arrivals : validArrivals (Machine.events (history ++ [(.data sockfd now remoteTroll malloc,
      [ReceiverEffect.ack sockfd (ackOf now remoteTroll)])])) =
      validArrivals (Machine.events history) ++ [(sockfd, now.session)] := by
    simp [validArrivals, intact]
  have silent : returned (Machine.outputs (history ++ [(.data sockfd now remoteTroll malloc,
      [ReceiverEffect.ack sockfd (ackOf now remoteTroll)])])) = returned (Machine.outputs history) := by
    simp [returned]
  constructor
  · rw [storeData_sockets]
    exact ledger.bound
  · intro session
    rw [arrivals, firsts_append, mem_addFirst, ← ledger.known, storeData_view consistent]
    by_cases own : now.session = session
    · subst own
      cases view now.session state <;> simp [arrived]
    · simp [own, Ne.symm own]
  · rw [arrivals, firsts_append]
    exact addFirst_nodup ledger.numbered _
  · intro socket
    rw [arrivals, silent, firsts_append]
    unfold addFirst
    rcases waitingSessions_storeData consistent sockfd now malloc with
      ⟨known, same⟩ | ⟨absent, appended⟩
    · rw [same, if_pos ((ledger.known now.session).mp known)]
      exact ledger.queue socket
    · have fresh := mt (ledger.known now.session).mpr (not_not.mpr absent)
      rw [appended, if_neg fresh, ← List.append_assoc, onSocket_append, ledger.queue,
        onSocket_append]
  · intro session member
    rw [silent] at member
    obtain ⟨sock, accepted⟩ := ledger.accepted session member
    rw [storeData_view consistent, accepted]
    by_cases own : now.session = session <;> simp [own, arrived]
  · rw [silent]
    exact ledger.once
  · have unchanged : accepts (Machine.events (history ++ [(.data sockfd now remoteTroll malloc,
        [ReceiverEffect.ack sockfd (ackOf now remoteTroll)])])) = accepts (Machine.events history) := by
      simp [accepts]
    have quiet : replies (Machine.outputs (history ++ [(.data sockfd now remoteTroll malloc,
        [ReceiverEffect.ack sockfd (ackOf now remoteTroll)])])) = replies (Machine.outputs history) := by
      simp [replies]
    rw [unchanged, quiet, storeData_sockets]
    exact ledger.answered

def SamePlace : SessionView → SessionView → Prop
  | .absent, .absent => True
  | .waiting _, .waiting _ => True
  | .accepted _, .accepted _ => True
  | _, _ => False

theorem SamePlace.refl (current : SessionView) : SamePlace current current := by
  cases current <;> trivial

theorem samePlace_move {session : UInt32} {current next : SessionView} {own : SessionEvent}
    {effects : List SessionEffect} (move : SessionMove session current own next effects)
    (settled : own ≠ .accept) (noArrival : ∀ sockfd now malloc, own ≠ .arrive sockfd now malloc) :
    SamePlace current next := by
  cases move with
  | arrive sockfd now malloc => exact absurd rfl (noArrival sockfd now malloc)
  | accept => exact absurd rfl settled
  | request sock front len accepted =>
    subst accepted
    trivial
  | solve sock final effects accepted =>
    subst accepted
    trivial
  | idle => exact .refl current

theorem ledger_quiet (ledger : Ledger history state)
    (noArrival : validArrivals [event] = []) (noAccept : accepts [event] = [])
    (noReply : replies emitted = []) (noReturn : returned emitted = [])
    (bound : (state'.bindedSockets.map BindedSocket.socketFD).Nodup)
    (pending : pendingAccepts state'.bindedSockets = pendingAccepts state.bindedSockets)
    (waiting : state'.waitingAcceptSocketsList = state.waitingAcceptSocketsList)
    (places : ∀ session, SamePlace (view session state) (view session state')) :
    Ledger (history ++ [(event, emitted)]) state' := by
  have arrivals : validArrivals (Machine.events (history ++ [(event, emitted)])) =
      validArrivals (Machine.events history) := by
    simp [noArrival]
  have asked : accepts (Machine.events (history ++ [(event, emitted)])) =
      accepts (Machine.events history) := by
    simp [noAccept]
  have sessions : returned (Machine.outputs (history ++ [(event, emitted)])) =
      returned (Machine.outputs history) := by
    simp [noReturn]
  constructor
  · exact bound
  · intro session
    rw [arrivals, ← ledger.known]
    have place := places session
    cases old : view session state <;> cases new : view session state' <;>
      simp_all [SamePlace]
  · rw [arrivals]
    exact ledger.numbered
  · rw [arrivals, sessions, waiting]
    exact ledger.queue
  · intro session member
    rw [sessions] at member
    obtain ⟨sock, accepted⟩ := ledger.accepted session member
    have place := places session
    rw [accepted] at place
    cases new : view session state' with
    | accepted sock' => exact ⟨sock', rfl⟩
    | absent | waiting =>
      rw [new] at place
      exact place.elim
  · rw [sessions]
    exact ledger.once
  · rw [asked, pending]
    simpa [noReply] using ledger.answered

theorem ledger_accept (ledger : Ledger history state) (front : SockAddr) (sockfd : Int32) :
    Ledger (history ++ [(.accept front sockfd, (tcpdAccept state front sockfd).2)])
      (tcpdAccept state front sockfd).1 := by
  have asked (effects : List ReceiverEffect) :
      accepts (Machine.events (history ++ [(.accept front sockfd, effects)])) =
        accepts (Machine.events history) ++ [(sockfd, front)] := by
    simp [accepts]
  have arrivals (effects : List ReceiverEffect) :
      validArrivals (Machine.events (history ++ [(.accept front sockfd, effects)])) =
        validArrivals (Machine.events history) := by
    simp [validArrivals]
  -- The sessions are not touched, whatever becomes of the request.
  have kept (sockets : List BindedSocket) (effects : List ReceiverEffect)
      (fds : sockets.map BindedSocket.socketFD = state.bindedSockets.map BindedSocket.socketFD)
      (noReturn : returned effects = [])
      (answered : ((sockfd, front) :: pendingAccepts state.bindedSockets).Perm
        (replies effects ++ pendingAccepts sockets)) :
      Ledger (history ++ [(.accept front sockfd, effects)])
        { state with bindedSockets := sockets } := by
    constructor
    · rw [fds]
      exact ledger.bound
    · rw [arrivals]
      exact ledger.known
    · rw [arrivals]
      exact ledger.numbered
    · intro socket
      rw [arrivals]
      simpa [noReturn] using ledger.queue socket
    · intro session member
      have before : session ∈ (returned (Machine.outputs history)).map Prod.snd := by
        simpa [noReturn] using member
      exact ledger.accepted session before
    · simpa [noReturn] using ledger.once
    · rw [asked]
      have before := ledger.answered.append_right [(sockfd, front)]
      simp only [Machine.outputs_append, Machine.outputs_cons, Machine.outputs_nil,
        List.append_nil, replies_append]
      apply before.trans
      rw [List.append_assoc, List.append_assoc]
      apply List.Perm.append_left
      exact (List.perm_append_comm).trans answered
  unfold tcpdAccept
  rcases requestAccept_cases front sockfd ledger.bound with
    ⟨_, refused⟩ | ⟨_, _, _, _, refused⟩ | ⟨before, tmp, after, split, same, idle, added⟩
  · rw [refused]
    exact kept state.bindedSockets _ rfl rfl (List.Perm.refl _)
  · rw [refused]
    exact kept state.bindedSockets _ rfl rfl (List.Perm.refl _)
  · rw [added]
    apply kept _ _ (by simp [split]) rfl
    simp only [pendingAccepts, split, List.filter_append, List.map_append, List.filter_cons, idle,
      same]
    exact List.perm_middle.symm

theorem ledger_solveAccept (consistent : Consistent state) (ledger : Ledger history state)
    (taken : Receiver.step order state .solveAccept = .ok (state', emitted)) :
    Ledger (history ++ [(.solveAccept, emitted)]) state' := by
  have ran := solveAccept_accepting taken
  have arrivals : validArrivals (Machine.events (history ++ [(.solveAccept, emitted)])) =
      validArrivals (Machine.events history) := by
    simp [validArrivals]
  have looked (session : UInt32) := (accepting_lookup consistent ran session).2
  constructor
  · rw [accepting_sockets ran]
    exact ledger.bound
  · intro session
    rw [arrivals, ← ledger.known]
    rcases looked session with ⟨_, same⟩ | ⟨_, sock, waiting, accepted⟩
    · rw [view, same, view]
    · simp [view, waiting, accepted]
  · rw [arrivals]
    exact ledger.numbered
  · intro sockfd
    rw [arrivals, ← ledger.queue]
    simp only [Machine.outputs_append, Machine.outputs_cons, Machine.outputs_nil, List.append_nil,
      returned_append, List.append_assoc]
    rw [onSocket_append, accepting_queue ran, ← onSocket_append]
  · intro session member
    simp only [Machine.outputs_append, Machine.outputs_cons, Machine.outputs_nil, List.append_nil,
      returned_append, List.map_append, List.mem_append] at member
    rcases looked session with ⟨never, same⟩ | ⟨_, sock, _, accepted⟩
    · rcases member with old | new
      · rw [view, same]
        exact ledger.accepted session old
      · rw [← acceptsSession_iff, never] at new
        cases new
    · exact ⟨sock, accepted⟩
  · simp only [Machine.outputs_append, Machine.outputs_cons, Machine.outputs_nil, List.append_nil,
      returned_append, List.map_append]
    apply List.Nodup.append ledger.once (accepting_once ran consistent)
    intro session old new
    obtain ⟨sock, accepted⟩ := ledger.accepted session old
    rw [← acceptsSession_iff] at new
    rcases looked session with ⟨never, _⟩ | ⟨_, _, waiting, _⟩
    · rw [never] at new
      cases new
    · rw [view, waiting] at accepted
      cases accepted
  · have asked : accepts (Machine.events (history ++ [(.solveAccept, emitted)])) =
        accepts (Machine.events history) := by
      simp [accepts]
    rw [asked]
    simp only [Machine.outputs_append, Machine.outputs_cons, Machine.outputs_nil, List.append_nil,
      replies_append, List.append_assoc]
    exact ledger.answered.trans (List.Perm.append_left _ (accepting_replies ran))

theorem returned_of_replies {effects : List ReceiverEffect} (noReply : replies effects = []) :
    returned effects = [] := by
  simp only [replies, returned, List.filterMap_eq_nil_iff] at noReply ⊢
  intro effect member
  have silent := noReply effect member
  cases effect with
  | acceptReturn => cases silent
  | _ => rfl

theorem replies_solved {order : IterOrder UInt32}
    (ran : solveRecvCallback order state = .ok (state', emitted)) : replies emitted = [] := by
  obtain ⟨accepted, swept, rfl⟩ := solveRecvCallback_swept ran
  apply Table.sweep_invariant (fun _ _ effects => replies effects = []) ?_ [] rfl swept
  intro _ _ effects session sock _ final emitted silent _ visited
  obtain ⟨_, solved⟩ := solveRecvSocket_solved (visitSocket_ok visited)
  rw [replies_append, silent]
  obtain ⟨freed, _, ⟨_, rfl⟩ | ⟨_, _, _, data, _, rfl⟩⟩ := solved.answer <;>
    simp [replies, List.filterMap_map]

theorem ledger_step (consistent : Consistent state) (ledger : Ledger history state)
    (taken : Receiver.step order state event = .ok (state', emitted)) :
    Ledger (history ++ [(event, emitted)]) state' := by
  have stepped := fun session => step_session taken consistent session
  cases step_move taken with
  | bind front sockfd granted fresh =>
    apply ledger_quiet ledger rfl rfl rfl rfl
    · rw [List.map_append]
      apply List.Nodup.append ledger.bound (by simp)
      intro fd member new
      obtain ⟨tmp, inside, same⟩ := List.mem_map.mp member
      rw [List.map_singleton, List.mem_singleton] at new
      exact fresh tmp inside (same.trans new)
    · simp [pendingAccepts]
    · rfl
    · exact fun session => .refl _
  | accept front sockfd => exact ledger_accept ledger front sockfd
  | refused front sockfd len value reason =>
    apply ledger_quiet ledger rfl rfl rfl rfl ledger.bound rfl rfl
    exact fun session => .refl _
  | request front sockfd len now found positive idle =>
    apply ledger_quiet ledger rfl rfl rfl rfl
    · exact ledger.bound
    · rfl
    · rfl
    intro session
    rcases stepped session with ⟨_, same, _⟩ | ⟨own, named, moved⟩
    · rw [same]
      exact .refl _
    · apply samePlace_move (sessionStep_move moved)
      · intro accept
        simp [ownEvent, accept] at named
      · intro fd now malloc arrive
        simp [ownEvent, arrive] at named
  | data sockfd message remoteTroll malloc intact =>
    exact ledger_data consistent ledger sockfd intact remoteTroll malloc
  | garbled sockfd message remoteTroll malloc damaged =>
    apply ledger_quiet ledger (by simp [validArrivals, damaged]) rfl rfl rfl ledger.bound rfl rfl
    exact fun session => .refl _
  | solveAccept => exact ledger_solveAccept consistent ledger taken
  | solveRecv state' effects ran =>
    have silent := replies_solved ran
    have stepped := fun session => solveRecv_session ran session
    obtain ⟨accepted, _, rfl⟩ := solveRecvCallback_swept ran
    apply ledger_quiet ledger
    · rfl
    · rfl
    · exact silent
    · exact returned_of_replies silent
    · exact ledger.bound
    · rfl
    · rfl
    · intro session
      apply samePlace_move (sessionStep_move (stepped session))
      · simp
      · simp

theorem run_ledger (run : Machine.Run (Receiver.step order) .initial history state) :
    Ledger history state := by
  induction run with
  | start => exact ledger_initial
  | next event state' emitted before taken ih => exact ledger_step (run_consistent before) ih taken

theorem pendingAccepts_nodup {sockets : List BindedSocket}
    (nodup : (sockets.map BindedSocket.socketFD).Nodup) :
    ((pendingAccepts sockets).map Prod.fst).Nodup := by
  rw [pendingAccepts, List.map_map]
  exact nodup.sublist (List.filter_sublist.map _)

/-- In every run: a session has one record; it is returned once at most, on the socket where it
came up, in the order of coming up there; every ACCEPT is answered once or is the one pending on
its socket; an ACCEPT on such a socket is refused and changes nothing; and after the callback
nothing waits for a socket that is still accepting, and no record has changed. -/
theorem accept_protocol {order : IterOrder UInt32} {state : Receiver}
    {history : Machine.History ReceiverEvent ReceiverEffect}
    (run : Machine.Run (Receiver.step order) .initial history state) :
    Apart state.acceptedSockets state.waitingAcceptSocketsList ∧
      ((returned (Machine.outputs history)).map Prod.snd).Nodup ∧
      (∀ sockfd, onSocket sockfd (returned (Machine.outputs history)) ++
          onSocket sockfd (waitingSessions state.waitingAcceptSocketsList) =
        onSocket sockfd (firsts (validArrivals (Machine.events history)))) ∧
      (accepts (Machine.events history)).Perm
        (replies (Machine.outputs history) ++ pendingAccepts state.bindedSockets) ∧
      ((pendingAccepts state.bindedSockets).map Prod.fst).Nodup ∧
      (∀ front sockfd, sockfd ∈ (pendingAccepts state.bindedSockets).map Prod.fst →
        Receiver.step order state (.accept front sockfd) =
          .ok (state, [.acceptError sockfd front (-1)])) ∧
      ∀ state' emitted, Receiver.step order state .solveAccept = .ok (state', emitted) →
        (∀ tmp ∈ state'.bindedSockets, tmp.accepting = true →
          ∀ sock ∈ state'.waitingAcceptSocketsList, sock.socketFD ≠ tmp.socketFD) ∧
        ∀ session, (view session state').sock? = (view session state).sock? := by
  have ledger := run_ledger run
  have consistent := run_consistent run
  refine ⟨consistent, ledger.once, ?_, ledger.answered, pendingAccepts_nodup ledger.bound, ?_, ?_⟩
  · intro sockfd
    rw [← onSocket_append]
    exact ledger.queue sockfd
  · intro front sockfd member
    simp only [pendingAccepts, List.map_map, List.mem_map, List.mem_filter] at member
    obtain ⟨tmp, ⟨inside, pending⟩, same⟩ := member
    -- The socket is bound and accepting, so the loop breaks with -2.
    rcases requestAccept_cases front sockfd ledger.bound with
      ⟨absent, _⟩ | ⟨_, _, _, _, refused⟩ | ⟨before, other, after, split, named, idle, _⟩
    · exact absurd same (absent tmp inside)
    · simp [Receiver.step, tcpdAccept, refused]
    · have equal : tmp = other := by
        have present : other ∈ state.bindedSockets := by simp [split]
        exact List.inj_on_of_nodup_map ledger.bound inside present (same.trans named.symm)
      rw [equal, idle] at pending
      cases pending
  · intro state' emitted taken
    have ran := solveAccept_accepting taken
    refine ⟨accepting_done ran, ?_⟩
    intro session
    rcases (accepting_lookup consistent ran session).2 with ⟨_, same⟩ | ⟨_, sock, waiting, accepted⟩
    · rw [view, same, view]
    · simp [view, waiting, accepted, SessionView.sock?]

-- Two sessions come up, and the second of two ACCEPTs comes too early.
theorem accept_protocol_two_sessions :
    ∃ history state, Machine.Run (Receiver.step (.insertion UInt32)) .initial history state ∧
      returned (Machine.outputs history) = [(3, 7)] ∧
      waitingSessions state.waitingAcceptSocketsList = [(3, 9)] ∧
      (accepts (Machine.events history)).Perm
        (replies (Machine.outputs history) ++ pendingAccepts state.bindedSockets) ∧
      onSocket 3 (returned (Machine.outputs history)) ++
          onSocket 3 (waitingSessions state.waitingAcceptSocketsList) =
        onSocket 3 (firsts (validArrivals (Machine.events history))) := by
  have run : Machine.Run (Receiver.step (.insertion UInt32)) .initial [] .initial := .start
  have run := run.next (.bind default 3 true) _ _ rfl
  have run := run.next (.accept default 3) _ _ rfl
  have run := run.next (.accept default 3) _ _ rfl
  have run := run.next _ _ _ (step_data 3 rfl (frame_intact 7 0 [1, 2, 3, 4]) default default)
  have run := run.next _ _ _ (step_data 3 rfl (frame_intact 9 0 [5, 6, 7]) default default)
  have run := run.next .solveAccept _ _ rfl
  obtain ⟨_, _, queue, answered, _⟩ := accept_protocol run
  exact ⟨_, _, run, rfl, rfl, answered, queue 3⟩

end Protocol

end NetworkProj.Reception
