import NetworkProj.Transfer.Onward

set_option autoImplicit false

namespace NetworkProj.Transfer

variable {server server' : Receiver} {ftps ftps' : Ftps} {inbox inbox' : List (List UInt8)}
  {order : IterOrder UInt32} {event : ReceiverEvent} {effects : List ReceiverEffect}

section Moves

inductive ServerMove (server : Receiver) (ftps : Ftps) (inbox : List (List UInt8)) :
    ReceiverEvent → Receiver → Ftps → List (List UInt8) → Prop where
  | bind (granted : Bool) (idle : ftps.waiting = false) (point : ftps.point = .bind) :
      ServerMove server ftps inbox (.bind ftps.addr ftps.sock granted)
        { server with
          bindedSockets := [{ socketFD := ftps.sock, accepting := false, acceptingAddr := default }] }
        { ftps with waiting := true } [bytes32 0]
  | accept (idle : ftps.waiting = false) (point : ftps.point = .accept) (tmp : BindedSocket)
      (only : server.bindedSockets = [tmp]) :
      ServerMove server ftps inbox (.accept ftps.addr ftps.sock)
        { server with
          bindedSockets := [{ tmp with accepting := true, acceptingAddr := ftps.addr }] }
        { ftps with waiting := true } []
  | unbound (idle : ftps.waiting = false) (point : ftps.point = .accept)
      (none : server.bindedSockets = []) (datagram : List UInt8) :
      ServerMove server ftps inbox (.accept ftps.addr ftps.sock) server
        { ftps with waiting := true } [datagram]
  | request (session : UInt32) (len : UInt64) (record : AcceptedSocket)
      (idle : ftps.waiting = false) (reading : reads ftps.point = some session.toInt32)
      (found : server.acceptedSockets.find session = some record) (positive : len ≠ 0) :
      ServerMove server ftps inbox (.recv ftps.addr session.toInt32 len)
        { server with
          acceptedSockets := server.acceptedSockets.insert session
            { record with receivingLength := len, receivingAddr := ftps.addr } }
        { ftps with waiting := true } []
  | refused (client : Int32) (len : UInt64) (idle : ftps.waiting = false)
      (reading : reads ftps.point = some client) (datagram : List UInt8) :
      ServerMove server ftps inbox (.recv ftps.addr client len) server
        { ftps with waiting := true } [datagram]
  | data (message : TrollMessage) (remoteTroll : SockAddr) (malloc : AcceptedSocket)
      (bound : server.bindedSockets ≠ []) (intact : message.Intact) :
      ServerMove server ftps inbox (.data ftps.sock message remoteTroll malloc)
        (storeData server ftps.sock message malloc) ftps inbox
  | nothing (event : ReceiverEvent) : ServerMove server ftps inbox event server ftps inbox
  | take (tmp : BindedSocket) (before : List AcceptedSocket) (record : AcceptedSocket)
      (after : List AcceptedSocket) (opened : Open ftps inbox) (point : ftps.point = .accept)
      (only : server.bindedSockets = [tmp]) (accepting : tmp.accepting = true)
      (waiting : server.waitingAcceptSocketsList = before ++ record :: after) :
      ServerMove server ftps inbox .solveAccept
        { bindedSockets := [{ tmp with accepting := false }]
          acceptedSockets := server.acceptedSockets.insert record.session record
          waitingAcceptSocketsList := before ++ after } ftps
        (answers ftps.addr [.acceptReturn tmp.socketFD tmp.acceptingAddr record.session])
  -- The callback goes through every record; it sends nothing to `ftps`.
  | silent (accepted : Table UInt32 AcceptedSocket)
      (kept : ∀ session final, accepted.find session = some final →
        ∃ record, server.acceptedSockets.find session = some record ∧
          final.receivingAddr = record.receivingAddr ∧
          (record.receivingAddr = ftps.addr → final.receivingLength = record.receivingLength)) :
      ServerMove server ftps inbox .solveRecv { server with acceptedSockets := accepted } ftps inbox
  | answer (accepted : Table UInt32 AcceptedSocket) (session : UInt32) (data : List UInt8)
      (opened : Open ftps inbox) (reading : reads ftps.point = some session.toInt32)
      (kept : ∀ session final, accepted.find session = some final →
        ∃ record, server.acceptedSockets.find session = some record) :
      ServerMove server ftps inbox .solveRecv { server with acceptedSockets := accepted } ftps [data]

theorem silent_kept (ran : solveRecvCallback order server = .ok (server', effects)) {addr : SockAddr}
    (silent : answers addr effects = []) {session : UInt32} {final : AcceptedSocket}
    (found : server'.acceptedSockets.find session = some final) :
    ∃ record, server.acceptedSockets.find session = some record ∧
      final.receivingAddr = record.receivingAddr ∧
      (record.receivingAddr = addr → final.receivingLength = record.receivingLength) := by
  obtain ⟨accepted, swept, rfl⟩ := Reception.solveRecvCallback_swept ran
  obtain ⟨record, present⟩ : ∃ record, server.acceptedSockets.find session = some record := by
    obtain ⟨record, _, present, _⟩ := solveRecv_found ran found
    exact ⟨record, present⟩
  have foreign : Table.Foreign Reception.visitSocket (Reception.sessionEffect session) session
      (order.visit server.acceptedSockets.keys) server.acceptedSockets :=
    fun _ _ different _ _ _ _ _ _ visited =>
      Reception.solved_foreign different (Reception.visitSocket_ok visited)
  have inside : session ∈ order.visit server.acceptedSockets.keys := by
    rw [order.mem, present]
    rfl
  obtain ⟨_, _, result, own, visited, found', same⟩ :=
    Table.sweep_visited (order.nodup _) foreign swept inside present
  obtain rfl := Option.some.inj (found'.symm.trans found)
  obtain ⟨_, solved⟩ := Reception.solveRecvSocket_solved (Reception.visitSocket_ok visited)
  refine ⟨record, present, solved.receivingAddr, ?_⟩
  obtain ⟨freed, _, ⟨kept, _⟩ | ⟨_, _, _, data, _, rfl⟩⟩ := solved.answer
  · exact fun _ => kept
  · intro here
    have told : Reception.SessionEffect.block record.receivingAddr data ∈
        effects.filterMap (Reception.sessionEffect session) := by
      rw [same, List.filterMap_append]
      simp [Reception.sessionEffect]
    obtain ⟨effect, member, block⟩ := List.mem_filterMap.mp told
    have sent : data ∈ answers addr effects := by
      refine List.mem_filterMap.mpr ⟨effect, member, ?_⟩
      cases effect with
      | recvReturn other front bytes =>
        simp only [Reception.sessionEffect] at block
        split at block
        next => cases block; simp [ReceiverEffect.datagram?, here]
        next => cases block
      | free other message =>
        simp only [Reception.sessionEffect] at block
        split at block <;> cases block
      | bindReturn | acceptReturn | acceptError | recvError | ack => cases block
    rw [silent] at sent
    cases sent

theorem accept_moves (turn : Turn server ftps inbox) (idle : ftps.waiting = false)
    (point : ftps.point = .accept) :
    ServerMove server ftps inbox (.accept ftps.addr ftps.sock)
      (tcpdAccept server ftps.addr ftps.sock).1 { ftps with waiting := true }
      (inbox ++ answers ftps.addr (tcpdAccept server ftps.addr ftps.sock).2) := by
  obtain ⟨empty, quiet, _⟩ := turn_idle turn idle
  obtain ⟨sockets, accepted, waiting⟩ := server
  have single := turn.sockets
  dsimp only at single quiet
  rcases single with rfl | ⟨tmp, rfl, same⟩
  · have error : answers ftps.addr
        (tcpdAccept ⟨[], accepted, waiting⟩ ftps.addr ftps.sock).2 = [bytes32 (-1 : Int32).toUInt32] := by
      simp [answers, tcpdAccept, requestAccept, ReceiverEffect.datagram?]
    rw [empty, error]
    exact .unbound idle point rfl _
  · have accepting := quiet tmp (List.mem_singleton_self tmp)
    have result : tcpdAccept ⟨[tmp], accepted, waiting⟩ ftps.addr ftps.sock =
        (⟨[{ tmp with accepting := true, acceptingAddr := ftps.addr }], accepted, waiting⟩, []) := by
      simp [tcpdAccept, requestAccept, same, accepting]
    rw [empty, result]
    exact .accept idle point tmp rfl

theorem server_move (turn : Turn server ftps inbox) (called : ftps.called event = some ftps')
    (taken : Receiver.step order server event = .ok (server', effects)) :
    ServerMove server ftps inbox event server' ftps' (inbox ++ answers ftps'.addr effects) := by
  rcases called_cases called with ⟨rfl, idle, made⟩ | ⟨rfl, own⟩
  · obtain ⟨empty, quiet, _⟩ := turn_idle turn idle
    cases Reception.step_move taken with
    | bind front sockfd granted fresh =>
      simp only [Ftps.makes, Bool.and_eq_true, beq_iff_eq] at made
      obtain ⟨⟨⟨_, point⟩, rfl⟩, rfl⟩ := made
      have first : server.bindedSockets = [] := by
        rcases turn.sockets with none | ⟨tmp, only, same⟩
        · exact none
        · exact absurd same (fresh tmp (by simp [only]))
      have answer : answers ftps.addr [.bindReturn ftps.addr 0] = [bytes32 0] := by
        simp [answers, ReceiverEffect.datagram?]
        rfl
      rw [first, empty]
      dsimp only
      rw [answer]
      exact .bind granted idle point
    | accept front sockfd =>
      simp only [Ftps.makes, Bool.and_eq_true, beq_iff_eq] at made
      obtain ⟨⟨⟨_, point⟩, rfl⟩, rfl⟩ := made
      exact accept_moves turn idle point
    | refused front sockfd len value =>
      simp only [Ftps.makes, Bool.and_eq_true, beq_iff_eq] at made
      obtain ⟨⟨_, wanted⟩, rfl⟩ := made
      have answer : answers ftps.addr [.recvError ftps.addr value] = [bytes32 value.toUInt32] := by
        simp [answers, ReceiverEffect.datagram?]
      rw [empty]
      dsimp only
      rw [answer]
      exact .refused sockfd len idle (by rw [reads, wanted]; rfl) _
    | request front sockfd len now found positive =>
      simp only [Ftps.makes, Bool.and_eq_true, beq_iff_eq] at made
      obtain ⟨⟨_, wanted⟩, rfl⟩ := made
      rw [empty]
      have move := @ServerMove.request server ftps [] sockfd.toUInt32 len now idle
        (by rw [reads, wanted]; simp) found positive
      simpa [answers] using move
    | data | garbled | solveAccept | solveRecv => cases made
  · cases Reception.step_move taken with
    | data sockfd message remoteTroll malloc intact =>
      have bound : server.bindedSockets.any (fun tmp => tmp.socketFD == sockfd) = true := by
        simp only [Receiver.step] at taken
        split at taken
        next bound => exact bound
        next => cases taken
      obtain ⟨tmp, member, same⟩ := List.any_eq_true.mp bound
      obtain rfl : tmp.socketFD = sockfd := beq_iff_eq.mp same
      rcases turn.sockets with none | ⟨other, only, own⟩
      · rw [none] at member
        cases member
      · rw [only] at member
        obtain rfl := List.mem_singleton.mp member
        rw [show answers ftps'.addr [.ack tmp.socketFD (ackOf message remoteTroll)] = [] from rfl,
          List.append_nil, own]
        exact .data message remoteTroll malloc (by simp [only]) intact
    | garbled =>
      rw [show answers ftps'.addr [] = [] from rfl, List.append_nil]
      exact .nothing _
    | solveAccept _ _ ran =>
      rcases solveAccept_cases turn ran with
        ⟨rfl, rfl⟩ | ⟨tmp, before, record, after, only, accepting, waiting, rfl, rfl⟩
      · rw [show answers ftps'.addr [] = [] from rfl, List.append_nil]
        exact .nothing _
      · obtain ⟨opened, point⟩ := turn.accepting tmp (by simp [only]) accepting
        have empty := opened.2
        rw [empty, List.nil_append]
        rw [empty] at opened
        exact .take tmp before record after opened point only accepting waiting
    | solveRecv _ _ ran =>
      obtain ⟨accepted, swept, rfl⟩ := Reception.solveRecvCallback_swept ran
      rcases solveRecv_answers ran turn ftps'.addr with
        silent | ⟨session, data, opened, reading, single, _⟩
      · rw [silent, List.append_nil]
        exact .silent accepted fun session final found => silent_kept ran silent found
      · rw [opened.2, List.nil_append, single]
        refine .answer accepted session data ⟨opened.1, rfl⟩ reading fun other final found => ?_
        obtain ⟨record, _, present, _⟩ := solveRecv_found ran found
        exact ⟨record, present⟩
    | bind | accept | refused | request => simp at own

inductive ReadMove (ftps : Ftps) (datagram : List UInt8) (next : Ftps) (effects : List FtpsEffect) :
    Prop where
  | bound (binding : ftps.point = .bind) (fine : ¬ (ofBytes32 datagram).toInt32 < 0)
      (point : next.point = .accept)
  | failed (code : Nat) (point : next.point = .exited code)
      (reason : ftps.point = .bind ∧ (ofBytes32 datagram).toInt32 < 0 ∨
        ftps.point = .accept ∧ (ofBytes32 datagram).toInt32 = -1 ∨ ftps.point = .exited code)
  | accepted (accepting : ftps.point = .accept) (fine : (ofBytes32 datagram).toInt32 ≠ -1)
      (point : next.point = .fileSize (ofBytes32 datagram).toInt32)
  | more (client : Int32) (reading : reads ftps.point = some client)
      (still : reads next.point = some client)
  | closed (client : Int32) (reading : reads ftps.point = some client) (point : next.point = .accept)
      (closes : .closed client ∈ effects)

theorem loop_reads (current : Ftps) (client : Int32) (fileSize fileLeft : UInt32) :
    reads (current.loop client fileSize fileLeft).1.point = some client ∨
      (current.loop client fileSize fileLeft).1.point = .accept ∧
        .closed client ∈ (current.loop client fileSize fileLeft).2 := by
  unfold Ftps.loop
  split
  · exact .inr ⟨rfl, List.mem_singleton_self _⟩
  · exact .inl rfl

theorem read_move (ftps : Ftps) (datagram : List UInt8) :
    ReadMove ftps datagram (ftps.received datagram).1 (ftps.received datagram).2 := by
  unfold Ftps.received
  split
  next binding =>
    by_cases negative : (ofBytes32 datagram).toInt32 < 0
    next => exact .failed 1 (if_pos negative) (.inl ⟨binding, negative⟩)
    next => exact .bound binding negative (if_neg negative)
  next accepting =>
    split
    next error => exact .failed 1 rfl (.inr (.inl ⟨accepting, error⟩))
    next fine => exact .accepted accepting fine rfl
  next client point => exact .more client (by rw [point]; rfl) rfl
  next client fileSize point =>
    have reading : reads ftps.point = some client := by rw [point]; rfl
    rcases loop_reads _ client fileSize fileSize with still | ⟨accept, closes⟩
    · exact .more client reading still
    · exact .closed client reading accept (List.mem_cons_of_mem _ closes)
  next client fileSize fileLeft point =>
    have reading : reads ftps.point = some client := by rw [point]; rfl
    rcases loop_reads _ client fileSize _ with still | ⟨accept, closes⟩
    · exact .more client reading still
    · exact .closed client reading accept (List.mem_cons_of_mem _ closes)
  next code point => exact .failed code point (.inr (.inr point))

theorem received_addr (ftps : Ftps) (datagram : List UInt8) :
    (ftps.received datagram).1.addr = ftps.addr := by
  have loop (current : Ftps) (client : Int32) (fileSize fileLeft : UInt32) :
      (current.loop client fileSize fileLeft).1.addr = current.addr := by
    unfold Ftps.loop
    split <;> rfl
  unfold Ftps.received
  split
  · rfl
  · split <;> rfl
  · rfl
  · exact loop _ _ _ _
  · exact loop _ _ _ _
  · rfl

theorem received_waiting (datagram : List UInt8) (running : ∀ code, ftps.point ≠ .exited code) :
    (ftps.received datagram).1.waiting = false := by
  have loop (current : Ftps) (client : Int32) (fileSize fileLeft : UInt32) :
      (current.loop client fileSize fileLeft).1.waiting = false := by
    unfold Ftps.loop
    split <;> rfl
  unfold Ftps.received
  split
  · rfl
  · split <;> rfl
  · rfl
  · exact loop _ _ _ _
  · exact loop _ _ _ _
  next code point => exact absurd point (running code)

end Moves

section Owed

/-- What is open, and what is done for the sessions that are known. -/
structure Owed (known : UInt32 → Prop) (server : Receiver) (ftps : Ftps)
    (inbox : List (List UInt8)) (done : List FtpsEffect) : Prop where
  bound : server.bindedSockets = [] ↔ ftps.point = .bind ∧ ftps.waiting = false
  binding : ftps.point = .bind → ftps.waiting = true → inbox = [bytes32 0]
  listens : Open ftps inbox → ftps.point = .accept →
    ∀ tmp ∈ server.bindedSockets, tmp.accepting = true
  front : ∀ tmp ∈ server.bindedSockets, tmp.accepting = true → tmp.acceptingAddr = ftps.addr
  waits : Open ftps inbox → ∀ session : UInt32, reads ftps.point = some session.toInt32 →
    ∀ record, server.acceptedSockets.find session = some record →
      record.receivingLength ≠ 0 ∧ record.receivingAddr = ftps.addr
  queued : ∀ record ∈ server.waitingAcceptSocketsList,
    record.socketFD = ftps.sock ∧ known record.session
  offered : ftps.point = .accept → ∀ datagram ∈ inbox,
    ∃ session, known session ∧ datagram = bytes32 session
  reading : ∀ client, reads ftps.point = some client →
    ∃ session, known session ∧ session.toInt32 = client
  running : ∀ code, ftps.point ≠ .exited code
  -- An accepted session is on its way to `ftps`, or `ftps` reads it or has read it.
  attended : ∀ session, Accepted session server → known session ∧
    (ftps.point = .accept ∧ inbox = [bytes32 session] ∨ reads ftps.point = some session.toInt32 ∨
      .closed session.toInt32 ∈ done)

variable {known known' : UInt32 → Prop} {done : List FtpsEffect}

theorem Owed.mono (owed : Owed known server ftps inbox done)
    (more : ∀ session, known session → known' session) : Owed known' server ftps inbox done where
  bound := owed.bound
  binding := owed.binding
  listens := owed.listens
  front := owed.front
  waits := owed.waits
  queued record member := ⟨(owed.queued record member).1, more _ (owed.queued record member).2⟩
  offered point datagram member := by
    obtain ⟨session, found, same⟩ := owed.offered point datagram member
    exact ⟨session, more session found, same⟩
  reading client reads := by
    obtain ⟨session, found, same⟩ := owed.reading client reads
    exact ⟨session, more session found, same⟩
  running := owed.running
  attended session accepted :=
    ⟨more session (owed.attended session accepted).1, (owed.attended session accepted).2⟩

theorem reads_elsewhere {client : Int32} {point : FtpsPoint} (reading : reads point = some client) :
    point ≠ .bind ∧ point ≠ .accept := by
  constructor
  · rintro rfl
    cases reading
  · rintro rfl
    cases reading

theorem storeData_accepted {sockfd : Int32} {now : TrollMessage} {malloc : AcceptedSocket}
    {session : UInt32} {record : AcceptedSocket}
    (found : (storeData server sockfd now malloc).acceptedSockets.find session = some record) :
    ∃ old, server.acceptedSockets.find session = some old ∧
      record.receivingLength = old.receivingLength ∧ record.receivingAddr = old.receivingAddr := by
  unfold storeData at found
  split at found
  next old present =>
    rcases Table.find_insert_some found with ⟨rfl, rfl⟩ | ⟨_, same⟩
    · obtain ⟨packages, stored, _⟩ := Reception.storePackage_eq old now
      exact ⟨old, present, by rw [stored], by rw [stored]⟩
    · exact ⟨record, same, rfl, rfl⟩
  next => split at found <;> exact ⟨record, found, rfl, rfl⟩

theorem storeData_queued (consistent : Reception.Consistent server) {sockfd : Int32}
    {now : TrollMessage} {malloc record : AcceptedSocket}
    (member : record ∈ (storeData server sockfd now malloc).waitingAcceptSocketsList) :
    (∃ old ∈ server.waitingAcceptSocketsList,
      old.socketFD = record.socketFD ∧ old.session = record.session) ∨
      record.socketFD = sockfd ∧ record.session = now.session := by
  have inside : (record.socketFD, record.session) ∈
      Reception.waitingSessions (storeData server sockfd now malloc).waitingAcceptSocketsList :=
    List.mem_map_of_mem member
  have old (before : (record.socketFD, record.session) ∈
      Reception.waitingSessions server.waitingAcceptSocketsList) :
      ∃ old ∈ server.waitingAcceptSocketsList,
        old.socketFD = record.socketFD ∧ old.session = record.session := by
    obtain ⟨old, kept, same⟩ := List.mem_map.mp before
    exact ⟨old, kept, Prod.mk.inj same⟩
  rcases Reception.waitingSessions_storeData consistent sockfd now malloc with
    ⟨_, same⟩ | ⟨_, appended⟩
  · rw [same] at inside
    exact .inl (old inside)
  · rw [appended, List.mem_append] at inside
    rcases inside with before | new
    · exact .inl (old before)
    · exact .inr (Prod.mk.inj (List.mem_singleton.mp new))

theorem Owed.attended_call (owed : Owed known server ftps inbox done) (empty : inbox = [])
    (session : UInt32) (accepted : Accepted session server) : known session ∧
    (ftps.point = .accept ∧ inbox' = [bytes32 session] ∨ reads ftps.point = some session.toInt32 ∨
      .closed session.toInt32 ∈ done) := by
  obtain ⟨own, ⟨_, answer⟩ | later⟩ := owed.attended session accepted
  · rw [empty] at answer
    cases answer
  · exact ⟨own, .inr later⟩

theorem not_open {datagram : List UInt8} {rest : List (List UInt8)} :
    ¬ Open ftps (datagram :: rest) := by
  intro opened
  cases opened.2

theorem owed_server (turn : Turn server ftps inbox) (consistent : Reception.Consistent server)
    (heard : ∀ sockfd message remoteTroll malloc, event = .data sockfd message remoteTroll malloc →
      message.Intact → known message.session)
    (owed : Owed known server ftps inbox done)
    (move : ServerMove server ftps inbox event server' ftps' inbox') :
    Owed known server' ftps' inbox' done := by
  cases move with
  | bind granted idle point =>
    have empty := (turn_idle turn idle).1
    exact { owed with
      bound := by simp
      binding := fun _ _ => rfl
      listens := fun opened => absurd opened not_open
      front := by simp
      waits := fun opened => absurd opened not_open
      offered := fun accept => by cases point.symm.trans accept
      attended := owed.attended_call empty }
  | accept idle point tmp only =>
    have empty := (turn_idle turn idle).1
    exact { owed with
      bound := by simp
      binding := fun bind => by cases point.symm.trans bind
      listens := by simp
      front := by simp
      waits := fun _ session reading => by simp [point, reads, FtpsPoint.recv?] at reading
      offered := fun _ => by simp
      attended := owed.attended_call empty }
  | unbound idle point none datagram =>
    cases point.symm.trans (owed.bound.mp none).1
  | request session len record idle reading found positive =>
    have empty := (turn_idle turn idle).1
    obtain ⟨unbinding, unaccepting⟩ := reads_elsewhere reading
    exact { owed with
      bound := by
        rw [owed.bound]
        simp [unbinding]
      binding := fun bind => absurd bind unbinding
      listens := fun _ accept => absurd accept unaccepting
      waits := fun _ other same final found' => by
        have own := toInt32_inj (Option.some.inj (reading.symm.trans same))
        subst own
        rw [Table.find_insert] at found'
        obtain rfl := Option.some.inj found'
        exact ⟨positive, rfl⟩
      offered := fun accept => absurd accept unaccepting
      attended := fun other accepted => by
        refine owed.attended_call empty other ?_
        obtain ⟨final, found'⟩ := accepted
        rcases Table.find_insert_some found' with ⟨rfl, _⟩ | ⟨_, old⟩
        · exact ⟨record, found⟩
        · exact ⟨final, old⟩ }
  | refused client len idle reading datagram =>
    have empty := (turn_idle turn idle).1
    obtain ⟨unbinding, unaccepting⟩ := reads_elsewhere reading
    exact { owed with
      bound := by
        rw [owed.bound]
        simp [unbinding]
      binding := fun bind => absurd bind unbinding
      listens := fun opened => absurd opened not_open
      waits := fun opened => absurd opened not_open
      offered := fun accept => absurd accept unaccepting
      attended := owed.attended_call empty }
  | data message remoteTroll malloc bound intact =>
    have sockets := Reception.storeData_sockets server ftps.sock message malloc
    exact { owed with
      bound := by
        rw [sockets]
        exact owed.bound
      listens := by
        rw [sockets]
        exact owed.listens
      front := by
        rw [sockets]
        exact owed.front
      waits := fun opened session reading record found => by
        obtain ⟨old, present, length, addr⟩ := storeData_accepted found
        rw [length, addr]
        exact owed.waits opened session reading old present
      queued := fun record member => by
        rcases storeData_queued consistent member with ⟨old, before, socket, session⟩ | ⟨socket, session⟩
        · rw [← socket, ← session]
          exact owed.queued old before
        · rw [session]
          exact ⟨socket, heard _ message remoteTroll malloc rfl intact⟩
      attended := fun session accepted => by
        obtain ⟨record, found⟩ := accepted
        obtain ⟨old, present, _⟩ := storeData_accepted found
        exact owed.attended session ⟨old, present⟩ }
  | nothing => exact owed
  | take tmp before record after opened point only accepting waiting =>
    have addr := owed.front tmp (by simp [only]) accepting
    have answer : answers ftps.addr [.acceptReturn tmp.socketFD tmp.acceptingAddr record.session] =
        [bytes32 record.session] := by
      simp [answers, ReceiverEffect.datagram?, addr]
    have queued := owed.queued
    rw [waiting] at queued
    have own := (queued record (by simp)).2
    rw [answer]
    exact { owed with
      bound := by simp [point]
      binding := fun bind => by cases point.symm.trans bind
      listens := fun opened => absurd opened not_open
      front := by simp
      waits := fun opened => absurd opened not_open
      queued := fun other member => by
        apply queued other
        rcases List.mem_append.mp member with left | right
        · exact List.mem_append_left _ left
        · exact List.mem_append_right _ (List.mem_cons_of_mem _ right)
      offered := fun _ datagram member => ⟨record.session, own, List.mem_singleton.mp member⟩
      attended := fun session accepted => by
        obtain ⟨final, found⟩ := accepted
        rcases Table.find_insert_some found with ⟨rfl, rfl⟩ | ⟨_, old⟩
        · exact ⟨own, .inl ⟨point, rfl⟩⟩
        · exact owed.attended_call opened.2 session ⟨final, old⟩ }
  | silent accepted kept =>
    exact { owed with
      waits := fun opened session reading final found => by
        obtain ⟨record, present, addr, length⟩ := kept session final found
        obtain ⟨receiving, here⟩ := owed.waits opened session reading record present
        rw [addr, length here]
        exact ⟨receiving, here⟩
      attended := fun session accepted => by
        obtain ⟨final, found⟩ := accepted
        obtain ⟨record, present, _⟩ := kept session final found
        exact owed.attended session ⟨record, present⟩ }
  | answer accepted session data opened reading kept =>
    obtain ⟨unbinding, unaccepting⟩ := reads_elsewhere reading
    exact { owed with
      binding := fun bind => absurd bind unbinding
      listens := fun opened => absurd opened not_open
      waits := fun opened => absurd opened not_open
      offered := fun accept => absurd accept unaccepting
      attended := fun other accepted => by
        obtain ⟨final, found⟩ := accepted
        obtain ⟨record, present⟩ := kept other final found
        exact owed.attended_call opened.2 other ⟨record, present⟩ }

theorem owed_read (valid : ∀ session, known session → session.toInt32 ≠ -1)
    (waiting : ftps.waiting = true) {datagram : List UInt8}
    (owed : Owed known server ftps [datagram] done) :
    Owed known server (ftps.received datagram).1 [] (done ++ (ftps.received datagram).2) := by
  have idle := received_waiting datagram owed.running
  have closed (inbox : List (List UInt8)) : ¬ Open (ftps.received datagram).1 inbox := by
    rintro ⟨waits, _⟩
    cases idle.symm.trans waits
  have bound : server.bindedSockets ≠ [] := by
    intro none
    cases waiting.symm.trans (owed.bound.mp none).2
  have named (accepting : ftps.point = .accept) :
      ∃ session, known session ∧ session = ofBytes32 datagram := by
    obtain ⟨session, own, same⟩ := owed.offered accepting datagram (List.mem_singleton_self _)
    exact ⟨session, own, by rw [same, ofBytes32_bytes32]⟩
  have move := read_move ftps datagram
  have running (code : Nat) : (ftps.received datagram).1.point ≠ .exited code := by
    intro exits
    cases move with
    | failed other point reason =>
      rcases reason with ⟨binding, negative⟩ | ⟨accepting, error⟩ | exited
      · obtain ⟨rfl, _⟩ := List.cons.inj (owed.binding binding waiting)
        rw [ofBytes32_bytes32] at negative
        exact absurd negative (by decide)
      · obtain ⟨session, own, rfl⟩ := named accepting
        exact valid _ own error
      · exact owed.running other exited
    | bound _ _ point | accepted _ _ point | closed _ _ point => cases point.symm.trans exits
    | more _ _ still =>
      rw [exits] at still
      cases still
  have unbinding : (ftps.received datagram).1.point ≠ .bind := by
    intro binding
    cases move with
    | failed _ point | bound _ _ point | accepted _ _ point | closed _ _ point =>
      cases point.symm.trans binding
    | more _ _ still => exact (reads_elsewhere still).1 binding
  have none {client : Int32} (accepting : (ftps.received datagram).1.point = .accept) :
      reads (ftps.received datagram).1.point ≠ some client :=
    fun reading => (reads_elsewhere reading).2 accepting
  constructor
  · simp [bound, unbinding]
  · exact fun binding => absurd binding unbinding
  · exact fun opened => absurd opened (closed [])
  · rw [received_addr]
    exact owed.front
  · exact fun opened => absurd opened (closed [])
  · rw [received_sock]
    exact owed.queued
  · exact fun _ _ inside => nomatch inside
  · intro client reading
    cases move with
    | failed code point => exact absurd point (running code)
    | bound _ _ point => exact absurd reading (none point)
    | closed _ _ point => exact absurd reading (none point)
    | accepted accepting fine point =>
      obtain ⟨session, own, rfl⟩ := named accepting
      rw [point] at reading
      exact ⟨_, own, Option.some.inj reading⟩
    | more other before still =>
      obtain rfl := Option.some.inj (still.symm.trans reading)
      exact owed.reading other before
  · exact running
  · intro session accepted
    obtain ⟨own, place⟩ := owed.attended session accepted
    refine ⟨own, .inr ?_⟩
    rcases place with ⟨accepting, answer⟩ | reading | finished
    · obtain ⟨rfl, _⟩ := List.cons.inj answer
      cases move with
      | failed code point => exact absurd point (running code)
      | bound binding => cases binding.symm.trans accepting
      | accepted _ _ point =>
        rw [point, ofBytes32_bytes32]
        exact .inl rfl
      | more _ before | closed _ before => exact absurd accepting (reads_elsewhere before).2
    · cases move with
      | failed code point => exact absurd point (running code)
      | bound binding => exact absurd binding (reads_elsewhere reading).1
      | accepted accepting => exact absurd accepting (reads_elsewhere reading).2
      | more client before still =>
        rw [still, ← before]
        exact .inl reading
      | closed client before _ closes =>
        obtain rfl := Option.some.inj (before.symm.trans reading)
        exact .inr (List.mem_append_right _ closes)
    · exact .inr (List.mem_append_left _ finished)

def Known (history : Machine.History TransferEvent TransferEffect) (session : UInt32) : Prop :=
  ∃ sockfd, (sockfd, session) ∈ connections history

theorem run_owed {order : TcpdOrder} {addr : SockAddr} {sock : Int32} {state : Transfer}
    {history : Machine.History TransferEvent TransferEffect}
    (run : Machine.Run (Transfer.step order) (.initial addr sock) history state)
    (valid : ∀ connection ∈ connections history, connection.2.toInt32 ≠ -1) :
    Owed (Known history) state.transport.server state.ftps state.inbox (ftpsEffects history) := by
  induction run with
  | start =>
    exact {
      bound := ⟨fun _ => ⟨rfl, rfl⟩, fun _ => rfl⟩
      binding := fun _ waiting => nomatch waiting
      listens := fun opened => nomatch opened.1
      front := nofun
      waits := fun opened => nomatch opened.1
      queued := nofun
      offered := nofun
      reading := nofun
      running := nofun
      attended := fun _ ⟨_, found⟩ => nomatch found }
  | @next history state event state' emitted before taken ih =>
    rw [connections_append] at valid
    have run := before.next event state' emitted taken
    have more (session : UInt32) (own : Known history session) :
        Known (history ++ [(event, emitted)]) session := by
      obtain ⟨sockfd, member⟩ := own
      rw [Known, connections_append]
      exact ⟨sockfd, List.mem_append_left _ member⟩
    have owed := (ih fun connection member => valid connection
      (List.mem_append_left _ member)).mono more
    have fine (session : UInt32) (own : Known (history ++ [(event, emitted)]) session) :
        session.toInt32 ≠ -1 := by
      obtain ⟨sockfd, member⟩ := own
      rw [connections_append] at member
      exact valid _ member
    have turn := run_turn before
    rw [ftpsEffects_append]
    cases step_move taken with
    | start => exact (List.append_nil (ftpsEffects history)).symm ▸ owed
    | client =>
      rw [ftpsEffects_transport, List.append_nil]
      exact owed
    | server event server effects ftps acks called ran =>
      rw [ftpsEffects_transport, List.append_nil]
      refine owed_server turn (Reception.run_consistent (Transport.run_server (run_transport before)))
        ?_ owed (server_move turn called ran)
      rintro sockfd message remoteTroll malloc rfl intact
      -- What is not garbled was sent for a session of a client.
      have arrived : message ∈ Reception.received message.session (serverCalls (history ++
          [(.server (.data sockfd message remoteTroll malloc),
            (effects.map .server).map .transport)])) := by
        rw [serverCalls_append, serverCalls_server, Reception.received_append]
        apply List.mem_append_right
        simp [Reception.received, intact]
      have daemons := run_transport run
      obtain ⟨other, _, present, own, _⟩ :=
        Transport.received_genuine daemons (run_served run).once arrived
      have named := Sending.run_opened (Transport.run_client daemons) present
      rw [own] at named
      exact ⟨other, named⟩
    | read datagram rest waiting arrived =>
      rw [ftpsEffects_read]
      rcases turn.answered with empty | ⟨_, other, single⟩
      · cases empty.symm.trans arrived
      · obtain ⟨rfl, rfl⟩ := List.cons.inj (arrived.symm.trans single)
        rw [arrived] at owed
        exact owed_read fine waiting owed

end Owed

end NetworkProj.Transfer
