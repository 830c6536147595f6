import NetworkProj.Transfer.Composition
import NetworkProj.Receiver.Acceptance

set_option autoImplicit false

namespace NetworkProj.Transfer

variable {server server' : Receiver} {ftps ftps' : Ftps} {inbox : List (List UInt8)}
  {order : IterOrder UInt32} {event : ReceiverEvent} {effects : List ReceiverEffect}

def reads (point : FtpsPoint) : Option Int32 :=
  point.recv?.map Prod.fst

def Open (ftps : Ftps) (inbox : List (List UInt8)) : Prop :=
  ftps.waiting = true ∧ inbox = []

/-- The daemon has an open request only while `ftps` waits for its answer. -/
structure Turn (server : Receiver) (ftps : Ftps) (inbox : List (List UInt8)) : Prop where
  sockets : server.bindedSockets = [] ∨
    ∃ tmp, server.bindedSockets = [tmp] ∧ tmp.socketFD = ftps.sock
  fresh : ∀ record ∈ server.waitingAcceptSocketsList, record.receivingLength = 0
  accepting : ∀ tmp ∈ server.bindedSockets, tmp.accepting = true →
    Open ftps inbox ∧ ftps.point = .accept
  receiving : ∀ session record, server.acceptedSockets.find session = some record →
    record.receivingLength ≠ 0 → Open ftps inbox ∧ reads ftps.point = some session.toInt32
  answered : inbox = [] ∨ ftps.waiting = true ∧ ∃ datagram, inbox = [datagram]

section Calls

theorem called_cases (called : ftps.called event = some ftps') :
    ftps' = { ftps with waiting := true } ∧ ftps.waiting = false ∧ ftps.makes event = true ∨
      ftps' = ftps ∧ (event = .solveAccept ∨ event = .solveRecv ∨
        ∃ sockfd message remoteTroll malloc, event = .data sockfd message remoteTroll malloc) := by
  cases event with
  | bind | accept | recv =>
    simp only [Ftps.called] at called
    split at called
    next made =>
      cases called
      refine .inl ⟨rfl, ?_, made⟩
      simp only [Ftps.makes, Bool.and_eq_true, Bool.not_eq_true'] at made
      tauto
    · cases called
  | data sockfd message remoteTroll malloc =>
    cases called
    exact .inr ⟨rfl, .inr (.inr ⟨_, _, _, _, rfl⟩)⟩
  | solveAccept =>
    cases called
    exact .inr ⟨rfl, .inl rfl⟩
  | solveRecv =>
    cases called
    exact .inr ⟨rfl, .inr (.inl rfl)⟩

theorem turn_idle (turn : Turn server ftps inbox) (idle : ftps.waiting = false) :
    inbox = [] ∧ (∀ tmp ∈ server.bindedSockets, tmp.accepting = false) ∧
      ∀ session record, server.acceptedSockets.find session = some record →
        record.receivingLength = 0 := by
  refine ⟨?_, ?_, ?_⟩
  · rcases turn.answered with empty | ⟨waiting, _⟩
    · exact empty
    · cases idle.symm.trans waiting
  · intro tmp member
    by_contra accepting
    have opened := (turn.accepting tmp member (by simpa using accepting)).1.1
    cases idle.symm.trans opened
  · intro session record found
    by_contra receiving
    have opened := (turn.receiving session record found receiving).1.1
    cases idle.symm.trans opened

end Calls

section Answers

def answers (addr : SockAddr) (effects : List ReceiverEffect) : List (List UInt8) :=
  effects.filterMap (ReceiverEffect.datagram? addr)

-- An ACCEPT of `ftps` stays open, or there is no socket yet and it is refused.
theorem accept_cases (turn : Turn server ftps inbox) (idle : ftps.waiting = false)
    (front : SockAddr) :
    (tcpdAccept server front ftps.sock).1.acceptedSockets = server.acceptedSockets ∧
      (tcpdAccept server front ftps.sock).1.waitingAcceptSocketsList =
        server.waitingAcceptSocketsList ∧
      (((tcpdAccept server front ftps.sock).1.bindedSockets = [] ∧
          (tcpdAccept server front ftps.sock).2 = [.acceptError ftps.sock front (-1)]) ∨
        ∃ tmp, (tcpdAccept server front ftps.sock).1.bindedSockets = [tmp] ∧
          tmp.socketFD = ftps.sock ∧ (tcpdAccept server front ftps.sock).2 = []) := by
  refine ⟨rfl, rfl, ?_⟩
  rcases turn.sockets with none | ⟨tmp, only, same⟩
  · exact .inl ⟨by rw [tcpdAccept, none]; rfl, by rw [tcpdAccept, none]; rfl⟩
  · have accepting := (turn_idle turn idle).2.1 tmp (by simp [only])
    refine .inr ⟨{ tmp with accepting := true, acceptingAddr := front }, ?_, same, ?_⟩
    · simp [tcpdAccept, only, requestAccept, same, accepting]
    · simp [tcpdAccept, only, requestAccept, same, accepting]

theorem solveAccept_cases (turn : Turn server ftps inbox)
    (ran : Reception.Accepting server.bindedSockets server.acceptedSockets
      server.waitingAcceptSocketsList server'.bindedSockets server'.acceptedSockets
      server'.waitingAcceptSocketsList effects) :
    (server' = server ∧ effects = []) ∨
      ∃ tmp before record after, server.bindedSockets = [tmp] ∧ tmp.accepting = true ∧
        server.waitingAcceptSocketsList = before ++ record :: after ∧
        server' = {
          bindedSockets := [{ tmp with accepting := false }]
          acceptedSockets := server.acceptedSockets.insert record.session record
          waitingAcceptSocketsList := before ++ after } ∧
        effects = [.acceptReturn tmp.socketFD tmp.acceptingAddr record.session] := by
  obtain ⟨sockets, accepted, waiting⟩ := server
  obtain ⟨sockets', accepted', waiting'⟩ := server'
  dsimp only at ran ⊢
  have single := turn.sockets
  dsimp only at single
  rcases single with rfl | ⟨tmp, rfl, _⟩
  · cases ran
    exact .inl ⟨rfl, rfl⟩
  · cases ran with
    | stay _ _ rest =>
      cases rest
      exact .inl ⟨rfl, rfl⟩
    | take _ before record after pending _ _ rest =>
      cases rest
      exact .inr ⟨tmp, before, record, after, rfl, pending, rfl, rfl, rfl⟩

variable (ran : solveRecvCallback order server = .ok (server', effects))

include ran

theorem solveRecv_found {session : UInt32} {final : AcceptedSocket}
    (found : server'.acceptedSockets.find session = some final) :
    ∃ record own, server.acceptedSockets.find session = some record ∧
      solveRecvSocket session record = .ok (final, own) ∧
      effects.filterMap (Reception.blockOf session) = own.filterMap (Reception.blockOf session) := by
  have stepped := Reception.solveRecv_session ran session
  have after : Reception.view session server' = .accepted final := by
    simp only [Reception.view, Reception.lookup, found]
  rw [after] at stepped
  cases before : Reception.view session server with
  | absent | waiting record =>
    rw [before] at stepped
    cases stepped
  | accepted record =>
    rw [before] at stepped
    simp only [Reception.sessionStep] at stepped
    split at stepped
    · cases stepped
    next final' own solved =>
      simp only [Except.ok.injEq, Prod.mk.injEq, Reception.SessionView.accepted.injEq] at stepped
      obtain ⟨rfl, same⟩ := stepped
      refine ⟨record, own, ?_, solved, ?_⟩
      · simp only [Reception.view, Reception.lookup] at before
        split at before
        next other present =>
          cases before
          exact present
        · split at before <;> cases before
      · rw [← Reception.blocks_effects, ← Reception.blocks_effects, same]

theorem solveRecv_final {session : UInt32} {record : AcceptedSocket}
    (found : server.acceptedSockets.find session = some record) :
    ∃ final, server'.acceptedSockets.find session = some final := by
  obtain ⟨accepted, swept, rfl⟩ := Reception.solveRecvCallback_swept ran
  have keys := Table.sweep_keys swept
  have inside := Table.mem_keys_of_find found
  rw [← keys, Table.present] at inside
  exact Option.isSome_iff_exists.mp inside

theorem solveRecv_emits {addr : SockAddr} {effect : ReceiverEffect} (member : effect ∈ effects)
    (sent : effect.datagram? addr ≠ none) :
    ∃ session front data record, effect = .recvReturn session front data ∧
      server.acceptedSockets.find session = some record ∧ record.receivingLength ≠ 0 := by
  obtain ⟨accepted, swept, rfl⟩ := Reception.solveRecvCallback_swept ran
  obtain ⟨session, _, record, found, _, _, final, own, visited, emits⟩ :=
    Table.sweep_emits (order.nodup server.acceptedSockets) swept member
  obtain ⟨_, solved⟩ := Reception.solveRecvSocket_solved (Reception.visitSocket_ok visited)
  have notFree (freed : List TrollMessage) :
      effect ∉ freed.map (ReceiverEffect.free session) := by
    intro inside
    obtain ⟨message, _, rfl⟩ := List.mem_map.mp inside
    exact sent rfl
  obtain ⟨freed, _, ⟨_, rfl⟩ | ⟨positive, _, _, data, _, rfl⟩⟩ := solved.answer
  · exact absurd emits (notFree freed)
  · rcases List.mem_append.mp emits with free | answer
    · exact absurd free (notFree freed)
    · refine ⟨session, _, data, record, List.mem_singleton.mp answer, found, ?_⟩
      intro zero
      rw [zero] at positive
      exact UInt64.lt_irrefl 0 positive

omit ran in
theorem filterMap_sublist {α β : Type} {left right : α → Option β} {entries : List α}
    (within : ∀ entry ∈ entries, left entry = none ∨ left entry = right entry) :
    (entries.filterMap left).Sublist (entries.filterMap right) := by
  induction entries with
  | nil => exact .slnil
  | cons entry rest ih =>
    have later := ih fun other member => within other (List.mem_cons_of_mem _ member)
    rcases within entry List.mem_cons_self with none | same
    · rw [List.filterMap_cons_none none]
      exact later.trans (List.Sublist.filterMap right (List.sublist_cons_self entry rest))
    · rw [List.filterMap_cons, List.filterMap_cons, same]
      cases right entry with
      | none => exact later
      | some value => exact later.cons_cons value

omit ran in
theorem blocks_freed (session : UInt32) (freed : List TrollMessage) :
    (freed.map (ReceiverEffect.free session)).filterMap (Reception.blockOf session) = [] := by
  simp [List.filterMap_map, Function.comp_def, Reception.blockOf]

theorem solveRecv_answers (turn : Turn server ftps inbox) (addr : SockAddr) :
    answers addr effects = [] ∨
      ∃ session data, Open ftps inbox ∧ reads ftps.point = some session.toInt32 ∧
        answers addr effects = [data] ∧ effects.filterMap (Reception.blockOf session) = [data] ∧
        ∀ final, server'.acceptedSockets.find session = some final → final.receivingLength = 0 := by
  by_cases silent : answers addr effects = []
  · exact .inl silent
  · obtain ⟨_, answer⟩ := List.exists_mem_of_ne_nil _ silent
    obtain ⟨effect, member, sent⟩ := List.mem_filterMap.mp answer
    obtain ⟨session, _, _, record, _, found, receiving⟩ :=
      @solveRecv_emits _ _ _ _ ran addr _ member (by simp [sent])
    obtain ⟨opened, reading⟩ := turn.receiving session record found receiving
    obtain ⟨final, found'⟩ := solveRecv_final ran found
    obtain ⟨record', own, present, solved, blocks⟩ := solveRecv_found ran found'
    obtain rfl := Option.some.inj (found.symm.trans present)
    have within : (answers addr effects).Sublist
        (effects.filterMap (Reception.blockOf session)) := by
      apply filterMap_sublist
      intro other inside
      by_cases quiet : other.datagram? addr = none
      · exact .inl quiet
      · obtain ⟨session', _, _, record', rfl, found', receiving'⟩ :=
          solveRecv_emits ran inside quiet
        have same := reading.symm.trans (turn.receiving session' record' found' receiving').2
        have one := toInt32_inj (Option.some.inj same)
        subst one
        simp only [ReceiverEffect.datagram?] at quiet ⊢
        split at quiet
        next own => exact .inr (by simp [own, Reception.blockOf])
        · exact absurd rfl quiet
    obtain ⟨_, solved⟩ := Reception.solveRecvSocket_solved solved
    rw [blocks] at within
    obtain ⟨freed, _, ⟨_, rfl⟩ | ⟨_, zero, _, data, _, rfl⟩⟩ := solved.answer
    · rw [blocks_freed] at within
      exact absurd (List.sublist_nil.mp within) silent
    · have own : (freed.map (ReceiverEffect.free session) ++
          [ReceiverEffect.recvReturn session record.receivingAddr data]).filterMap (Reception.blockOf session) =
          [data] := by
        rw [List.filterMap_append, blocks_freed]
        simp [Reception.blockOf]
      rw [own] at within blocks
      refine .inr ⟨session, data, opened, reading, ?_, blocks, ?_⟩
      · exact (List.sublist_singleton.mp within).resolve_left silent
      · intro other present
        rw [Option.some.inj (present.symm.trans found')]
        exact zero

end Answers

section Steps

theorem received_sock (ftps : Ftps) (datagram : List UInt8) :
    (ftps.received datagram).1.sock = ftps.sock := by
  have loop (current : Ftps) (client : Int32) (fileSize fileLeft : UInt32) :
      (current.loop client fileSize fileLeft).1.sock = current.sock := by
    unfold Ftps.loop
    split <;> rfl
  unfold Ftps.received
  split
  · rfl
  · split <;> rfl
  · rfl
  · exact loop _ _ _ _
  · exact loop _ _ _ _
  · rfl

theorem turn_read (turn : Turn server ftps inbox) {datagram : List UInt8}
    {rest : List (List UInt8)} (arrived : inbox = datagram :: rest) :
    Turn server (ftps.received datagram).1 rest := by
  have closed : ¬ Open ftps inbox := by
    rintro ⟨_, empty⟩
    cases empty.symm.trans arrived
  constructor
  · rw [received_sock]
    exact turn.sockets
  · exact turn.fresh
  · intro tmp member accepting
    exact absurd (turn.accepting tmp member accepting).1 closed
  · intro session record found receiving
    exact absurd (turn.receiving session record found receiving).1 closed
  · rcases turn.answered with empty | ⟨_, other, single⟩
    · cases empty.symm.trans arrived
    · obtain ⟨_, rfl⟩ := List.cons.inj (arrived.symm.trans single)
      exact .inl rfl

theorem answers_single (addr : SockAddr) (effect : ReceiverEffect) :
    answers addr [effect] = [] ∨ ∃ datagram, answers addr [effect] = [datagram] := by
  cases sent : effect.datagram? addr with
  | none => exact .inl (List.filterMap_cons_none sent)
  | some datagram => exact .inr ⟨datagram, List.filterMap_cons_some sent⟩

theorem turn_call (turn : Turn server ftps inbox) (idle : ftps.waiting = false)
    (made : ftps.makes event = true)
    (taken : Receiver.step order server event = .ok (server', effects)) :
    Turn server' { ftps with waiting := true } (answers ftps.addr effects) := by
  obtain ⟨_, quiet, silent⟩ := turn_idle turn idle
  have one (effect : ReceiverEffect) : answers ftps.addr [effect] = [] ∨
      true = true ∧ ∃ datagram, answers ftps.addr [effect] = [datagram] :=
    (answers_single ftps.addr effect).imp_right fun single => ⟨rfl, single⟩
  cases Reception.step_move taken with
  | bind front sockfd granted fresh =>
    simp only [Ftps.makes, Bool.and_eq_true, beq_iff_eq] at made
    obtain ⟨_, rfl⟩ := made
    have first : server.bindedSockets = [] := by
      rcases turn.sockets with none | ⟨tmp, only, same⟩
      · exact none
      · exact absurd same (fresh tmp (by simp [only]))
    constructor
    · exact .inr ⟨_, by rw [first]; rfl, rfl⟩
    · exact turn.fresh
    · intro tmp member accepting
      rw [first] at member
      obtain rfl := List.mem_singleton.mp member
      cases accepting
    · intro session record found receiving
      exact absurd (silent session record found) receiving
    · exact one _
  | accept front sockfd =>
    simp only [Ftps.makes, Bool.and_eq_true, beq_iff_eq] at made
    obtain ⟨⟨⟨_, accepting⟩, _⟩, rfl⟩ := made
    obtain ⟨accepted, waiting, outcome⟩ := accept_cases turn idle front
    constructor
    · rcases outcome with ⟨none, _⟩ | ⟨tmp, only, same, _⟩
      · exact .inl none
      · exact .inr ⟨tmp, only, same⟩
    · rw [waiting]
      exact turn.fresh
    · intro tmp member _
      rcases outcome with ⟨none, _⟩ | ⟨_, _, _, effects⟩
      · rw [none] at member
        cases member
      · rw [effects]
        exact ⟨⟨rfl, rfl⟩, accepting⟩
    · intro session record found receiving
      rw [accepted] at found
      exact absurd (silent session record found) receiving
    · rcases outcome with ⟨_, effects⟩ | ⟨_, _, _, effects⟩
      · rw [effects]
        exact one _
      · rw [effects]
        exact .inl rfl
  | refused front sockfd len value reason =>
    constructor
    · exact turn.sockets
    · exact turn.fresh
    · intro tmp member accepting
      cases (quiet tmp member).symm.trans accepting
    · intro session record found receiving
      exact absurd (silent session record found) receiving
    · exact one _
  | request front sockfd len now found positive =>
    simp only [Ftps.makes, Bool.and_eq_true, beq_iff_eq] at made
    constructor
    · exact turn.sockets
    · exact turn.fresh
    · intro tmp member accepting
      cases (quiet tmp member).symm.trans accepting
    · intro session record found' receiving
      rcases Table.find_insert_some found' with ⟨rfl, _⟩ | ⟨_, old⟩
      · exact ⟨⟨rfl, rfl⟩, by simp [reads, made.1.2]⟩
      · exact absurd (silent session record old) receiving
    · exact .inl rfl
  | data | garbled | solveAccept | solveRecv => cases made

theorem storePackage_receiving (record : AcceptedSocket) (now : TrollMessage) :
    (storePackage record now).receivingLength = record.receivingLength := by
  obtain ⟨packages, stored, _⟩ := Reception.storePackage_eq record now
  rw [stored]

theorem storeWaiting_receiving (now : TrollMessage) {waiting : List AcceptedSocket}
    (fresh : ∀ record ∈ waiting, record.receivingLength = 0) :
    ∀ record ∈ storeWaiting now waiting, record.receivingLength = 0 := by
  induction waiting with
  | nil => exact fresh
  | cons head rest ih =>
    have first := fresh head List.mem_cons_self
    have later := ih fun record member => fresh record (List.mem_cons_of_mem _ member)
    intro record member
    rw [storeWaiting] at member
    split at member
    · rcases List.mem_cons.mp member with rfl | inside
      · rw [storePackage_receiving, first]
      · exact fresh record (List.mem_cons_of_mem _ inside)
    · rcases List.mem_cons.mp member with rfl | inside
      · exact first
      · exact later record inside

theorem turn_data (turn : Turn server ftps inbox) (sockfd : Int32) (now : TrollMessage)
    (malloc : AcceptedSocket) : Turn (storeData server sockfd now malloc) ftps inbox := by
  constructor
  · rw [Reception.storeData_sockets]
    exact turn.sockets
  · unfold storeData
    split
    · exact turn.fresh
    · split
      · exact storeWaiting_receiving now turn.fresh
      · intro record member
        rcases List.mem_append.mp member with old | new
        · exact turn.fresh record old
        · rw [List.mem_singleton.mp new, storePackage_receiving]
          rfl
  · rw [Reception.storeData_sockets]
    exact turn.accepting
  · intro session record found receiving
    unfold storeData at found
    split at found
    next old present =>
      rcases Table.find_insert_some found with ⟨rfl, rfl⟩ | ⟨_, same⟩
      · rw [storePackage_receiving] at receiving
        exact turn.receiving _ old present receiving
      · exact turn.receiving session record same receiving
    · split at found <;> exact turn.receiving session record found receiving
  · exact turn.answered

theorem turn_solveAccept (turn : Turn server ftps inbox)
    (ran : Reception.Accepting server.bindedSockets server.acceptedSockets
      server.waitingAcceptSocketsList server'.bindedSockets server'.acceptedSockets
      server'.waitingAcceptSocketsList effects) :
    Turn server' ftps (inbox ++ answers ftps.addr effects) := by
  rcases solveAccept_cases turn ran with
    ⟨rfl, rfl⟩ | ⟨tmp, before, record, after, only, accepting, waiting, rfl, rfl⟩
  · rw [show answers ftps.addr [] = [] from rfl, List.append_nil]
    exact turn
  · obtain ⟨⟨asked, rfl⟩, point⟩ := turn.accepting tmp (by simp [only]) accepting
    have nothing (session : UInt32) (other : AcceptedSocket)
        (found : server.acceptedSockets.find session = some other) :
        other.receivingLength = 0 := by
      by_contra receiving
      have reading := (turn.receiving session other found receiving).2
      rw [point] at reading
      cases reading
    have fresh := turn.fresh
    rw [waiting] at fresh
    constructor
    · refine .inr ⟨_, rfl, ?_⟩
      rcases turn.sockets with none | ⟨other, single, same⟩
      · cases none.symm.trans only
      · obtain ⟨rfl, _⟩ := List.cons.inj (single.symm.trans only)
        exact same
    · intro other member
      apply fresh other
      rcases List.mem_append.mp member with left | right
      · exact List.mem_append_left _ left
      · exact List.mem_append_right _ (List.mem_cons_of_mem _ right)
    · intro other member pending
      obtain rfl := List.mem_singleton.mp member
      cases pending
    · intro session other found receiving
      rcases Table.find_insert_some found with ⟨_, rfl⟩ | ⟨_, old⟩
      · exact absurd (fresh other (by simp)) receiving
      · exact absurd (nothing session other old) receiving
    · exact (answers_single _ _).imp_right fun single => ⟨asked, single⟩

theorem turn_solveRecv (turn : Turn server ftps inbox)
    (ran : solveRecvCallback order server = .ok (server', effects)) :
    Turn server' ftps (inbox ++ answers ftps.addr effects) := by
  obtain ⟨accepted, swept, rfl⟩ := Reception.solveRecvCallback_swept ran
  have before (session : UInt32) (final : AcceptedSocket)
      (found : accepted.find session = some final) (receiving : final.receivingLength ≠ 0) :
      ∃ record, server.acceptedSockets.find session = some record ∧
        record.receivingLength ≠ 0 := by
    obtain ⟨record, _, present, solved, _⟩ := solveRecv_found ran found
    obtain ⟨_, solved⟩ := Reception.solveRecvSocket_solved solved
    obtain ⟨_, _, ⟨same, _⟩ | ⟨_, zero, _⟩⟩ := solved.answer
    · exact ⟨record, present, same ▸ receiving⟩
    · exact absurd zero receiving
  rcases solveRecv_answers ran turn ftps.addr with
    silent | ⟨session, data, ⟨asked, rfl⟩, reading, single, _, closed⟩
  · rw [silent, List.append_nil]
    constructor
    · exact turn.sockets
    · exact turn.fresh
    · exact turn.accepting
    · intro session final found receiving
      obtain ⟨record, present, pending⟩ := before session final found receiving
      exact turn.receiving session record present pending
    · exact turn.answered
  · constructor
    · exact turn.sockets
    · exact turn.fresh
    · intro tmp member accepting
      have point := (turn.accepting tmp member accepting).2
      rw [point] at reading
      cases reading
    · intro other final found receiving
      obtain ⟨record, present, pending⟩ := before other final found receiving
      have same := (turn.receiving other record present pending).2.symm.trans reading
      obtain rfl := toInt32_inj (Option.some.inj same)
      exact absurd (closed final found) receiving
    · rw [List.nil_append, single]
      exact .inr ⟨asked, data, rfl⟩

theorem turn_work (turn : Turn server ftps inbox)
    (taken : Receiver.step order server event = .ok (server', effects))
    (own : event = .solveAccept ∨ event = .solveRecv ∨
      ∃ sockfd message remoteTroll malloc, event = .data sockfd message remoteTroll malloc) :
    Turn server' ftps (inbox ++ answers ftps.addr effects) := by
  cases Reception.step_move taken with
  | data sockfd message remoteTroll malloc =>
    rw [show answers ftps.addr [.ack sockfd (ackOf message remoteTroll)] = [] from rfl,
      List.append_nil]
    exact turn_data turn sockfd message malloc
  | garbled =>
    rw [show answers ftps.addr [] = [] from rfl, List.append_nil]
    exact turn
  | solveAccept _ _ ran => exact turn_solveAccept turn ran
  | solveRecv _ _ ran => exact turn_solveRecv turn ran
  | bind | accept | refused | request => simp at own

theorem turn_step (turn : Turn server ftps inbox) (called : ftps.called event = some ftps')
    (taken : Receiver.step order server event = .ok (server', effects)) :
    Turn server' ftps' (inbox ++ answers ftps'.addr effects) := by
  rcases called_cases called with ⟨rfl, idle, made⟩ | ⟨rfl, own⟩
  · rw [(turn_idle turn idle).1, List.nil_append]
    exact turn_call turn idle made taken
  · exact turn_work turn taken own

theorem run_turn {order : TcpdOrder} {addr : SockAddr} {sock : Int32} {state : Transfer}
    {history : Machine.History TransferEvent TransferEffect}
    (run : Machine.Run (Transfer.step order) (.initial addr sock) history state) :
    Turn state.transport.server state.ftps state.inbox := by
  induction run with
  | start => exact ⟨.inl rfl, nofun, nofun, nofun, .inl rfl⟩
  | next event state' emitted before taken ih =>
    cases step_move taken with
    | start | client => exact ih
    | server event server effects ftps acks called ran => exact turn_step ih called ran
    | read datagram rest waiting arrived => exact turn_read ih arrived

end Steps

end NetworkProj.Transfer
