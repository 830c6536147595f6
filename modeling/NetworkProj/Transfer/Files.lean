import NetworkProj.Transfer.Blocks
import NetworkProj.Transfer.Turns

set_option autoImplicit false

namespace NetworkProj.Transfer

section Conversation

def sockClient : FtpsEffect → Int32
  | .opened client .. => client
  | .wrote client _ => client
  | .closed client => client

def forClient (client : Int32) (effects : List FtpsEffect) : List FtpsEffect :=
  effects.filter fun effect => sockClient effect == client

@[simp] theorem forClient_append (client : Int32) (left right : List FtpsEffect) :
    forClient client (left ++ right) = forClient client left ++ forClient client right :=
  List.filter_append ..

/-- `ftps` is not at the session's stream, and the answer that it reads next does not bring it there. -/
structure Away (client : Int32) (point : FtpsPoint) (inbox : List (List UInt8)) : Prop where
  elsewhere : reads point ≠ some client
  -- A session that decodes to `-1` is taken for an error, and `ftps` ends.
  answer : point = .accept → ∀ datagram ∈ inbox, (ofBytes32 datagram).toInt32 = client → client = -1

def Accepted (session : UInt32) (server : Receiver) : Prop :=
  ∃ record, server.acceptedSockets.find session = some record

/-- Where `ftps` and its daemon are with a session: the lengths asked for, and what is done. -/
inductive Phase (session : UInt32) (fileName file : List UInt8) (server : Receiver) (ftps : Ftps)
    (inbox : List (List UInt8)) (asked : List Nat) (done : List FtpsEffect) : Prop where
  | away (away : Away session.toInt32 ftps.point inbox) (noRequest : asked = [])
      (nothing : done = [])
  | called (accepted : Accepted session server) (waiting : ftps.waiting = true)
      (point : ftps.point = .accept) (answer : inbox = [bytes32 session]) (noRequest : asked = [])
      (nothing : done = [])
  | ready (accepted : Accepted session server) (idle : ftps.waiting = false)
      (read unread : List (List UInt8)) (whole : read ++ unread = plan fileName file)
      (progress : Progress session.toInt32 fileName file ftps.point unread done)
      (requests : asked = read.map List.length)
  | asked (accepted : Accepted session server) (waiting : ftps.waiting = true)
      (read : List (List UInt8)) (block : List UInt8) (unread : List (List UInt8))
      (whole : read ++ block :: unread = plan fileName file)
      (progress : Progress session.toInt32 fileName file ftps.point (block :: unread) done)
      (requests : asked = (read ++ [block]).map List.length)
      (answer : inbox = [] ∨ inbox = [block])
  | complete (accepted : Accepted session server) (away : Away session.toInt32 ftps.point inbox)
      (requests : asked = (plan fileName file).map List.length) (writes : List (List UInt8))
      (whole : writes.flatten = file)
      (finished : done =
        record session.toInt32 fileName file writes ++ [.closed session.toInt32])

variable {session : UInt32} {fileName file : List UInt8} {server server' : Receiver}
  {ftps ftps' : Ftps} {inbox : List (List UInt8)} {asked : List Nat} {done : List FtpsEffect}
  {order : IterOrder UInt32} {event : ReceiverEvent} {effects : List ReceiverEffect}

theorem phase_lengths (phase : Phase session fileName file server ftps inbox asked done) :
    asked <+: (plan fileName file).map List.length := by
  cases phase with
  | away _ none | called _ _ _ _ none =>
    rw [none]
    exact List.nil_prefix
  | ready _ _ read unread whole _ requests =>
    rw [requests, ← whole, List.map_append]
    exact List.prefix_append _ _
  | asked _ _ read block unread whole _ requests =>
    rw [requests, ← whole, List.append_cons read block unread]
    exact (List.prefix_append _ _).map List.length
  | complete _ _ requests =>
    rw [requests]

theorem progress_reads {client : Int32} {point : FtpsPoint} {unread : List (List UInt8)}
    (progress : Progress client fileName file point unread done) : reads point = some client := by
  cases progress <;> rfl

theorem present_insert {accepted : Table UInt32 AcceptedSocket}
    (present : ∃ record, accepted.find session = some record) (key : UInt32)
    (value : AcceptedSocket) : ∃ record, (accepted.insert key value).find session = some record := by
  rw [Table.find_insert_eq]
  split
  · exact ⟨value, rfl⟩
  · exact present

theorem present_accepting {sockets sockets' : List BindedSocket}
    {accepted accepted' : Table UInt32 AcceptedSocket} {waiting waiting' : List AcceptedSocket}
    (ran : Reception.Accepting sockets accepted waiting sockets' accepted' waiting' effects)
    (present : ∃ record, accepted.find session = some record) :
    ∃ record, accepted'.find session = some record := by
  induction ran with
  | done => exact present
  | stay _ _ _ ih => exact ih present
  | take _ _ _ _ _ _ _ _ ih => exact ih (present_insert present _ _)

theorem accepted_step (accepted : Accepted session server)
    (taken : Receiver.step order server event = .ok (server', effects)) :
    Accepted session server' := by
  cases Reception.step_move taken with
  | bind | refused | garbled => exact accepted
  | accept => exact accepted
  | request => exact present_insert accepted _ _
  | data sockfd message remoteTroll malloc =>
    unfold storeData
    split
    · exact present_insert accepted _ _
    · split <;> exact accepted
  | solveAccept _ _ ran => exact present_accepting ran accepted
  | solveRecv _ _ ran =>
    obtain ⟨record, found⟩ := accepted
    exact solveRecv_final ran found

theorem Away.answers {client : Int32} {point : FtpsPoint} (away : Away client point inbox)
    {addr : SockAddr}
    (others : point = .accept → ∀ effect ∈ effects, ∀ datagram,
      effect.datagram? addr = some datagram → (ofBytes32 datagram).toInt32 = client → client = -1) :
    Away client point (inbox ++ answers addr effects) := by
  refine ⟨away.elsewhere, ?_⟩
  intro here datagram member decoded
  rcases List.mem_append.mp member with old | new
  · exact away.answer here datagram old decoded
  · obtain ⟨effect, inside, sent⟩ := List.mem_filterMap.mp new
    exact others here effect inside datagram sent decoded

theorem call_elsewhere (made : ftps.makes event = true)
    (taken : Receiver.step order server event = .ok (server', effects))
    (elsewhere : reads ftps.point ≠ some session.toInt32) :
    Reception.requests (Reception.ownEffects session (event, effects)) = [] ∧
      (ftps.point = .accept → ∀ effect ∈ effects, ∀ datagram,
        effect.datagram? ftps.addr = some datagram →
          (ofBytes32 datagram).toInt32 = session.toInt32 → session.toInt32 = -1) := by
  cases Reception.step_move taken with
  | bind front sockfd granted =>
    simp only [Ftps.makes, Bool.and_eq_true, beq_iff_eq] at made
    refine ⟨rfl, fun point => ?_⟩
    cases made.1.1.2.symm.trans point
  | accept front sockfd =>
    refine ⟨Reception.requests_effects session _, ?_⟩
    intro _ effect member datagram sent decoded
    -- The only answer at once is an error.
    have error : effect = .acceptError sockfd front (-1) := by
      unfold tcpdAccept at member
      dsimp only at member
      split at member
      · exact List.mem_singleton.mp member
      · cases member
    subst error
    simp only [ReceiverEffect.datagram?] at sent
    split at sent
    · cases sent
      rw [ofBytes32_bytes32] at decoded
      exact decoded.symm
    · cases sent
  | refused front sockfd len value reason =>
    simp only [Ftps.makes, Bool.and_eq_true, beq_iff_eq] at made
    refine ⟨rfl, fun point => ?_⟩
    rw [point] at made
    cases made.1.2
  | request front sockfd len now =>
    simp only [Ftps.makes, Bool.and_eq_true, beq_iff_eq] at made
    constructor
    · have other : sockfd.toUInt32 ≠ session := by
        intro own
        apply elsewhere
        rw [reads, made.1.2, ← own]
        simp
      rw [Reception.ownEffects, if_neg other]
      rfl
    · intro point
      rw [point] at made
      cases made.1.2
  | data | garbled | solveAccept | solveRecv => cases made

theorem phase_call (size : file.length < 2 ^ 32) (turn : Turn server ftps inbox)
    (idle : ftps.waiting = false) (made : ftps.makes event = true)
    (taken : Receiver.step order server event = .ok (server', effects))
    (phase : Phase session fileName file server ftps inbox asked done) :
    Phase session fileName file server' { ftps with waiting := true }
      (inbox ++ answers ftps.addr effects)
      (asked ++ Reception.requests (Reception.ownEffects session (event, effects))) done := by
  obtain ⟨empty, _, silent⟩ := turn_idle turn idle
  cases phase with
  | away away noRequest nothing =>
    obtain ⟨none, others⟩ := call_elsewhere made taken away.elsewhere
    rw [none, List.append_nil]
    exact .away (away.answers others) noRequest nothing
  | called _ waiting => cases idle.symm.trans waiting
  | asked _ waiting => cases idle.symm.trans waiting
  | complete accepted away requests writes whole finished =>
    obtain ⟨none, others⟩ := call_elsewhere made taken away.elsewhere
    rw [none, List.append_nil]
    exact .complete (accepted_step accepted taken) (away.answers others) requests writes whole
      finished
  | ready accepted _ read unread whole progress requests =>
    obtain ⟨block, rest, rfl, wanted⟩ := progress_asks size progress
    have some := (plan_blocks fileName file block (by simp [← whole])).1
    obtain ⟨record, found⟩ := accepted
    cases Reception.step_move taken with
    | bind | accept =>
      simp only [Ftps.makes, Bool.and_eq_true, beq_iff_eq] at made
      rw [made.1.1.2] at wanted
      cases wanted
    | refused front sockfd len value reason =>
      simp only [Ftps.makes, Bool.and_eq_true, beq_iff_eq] at made
      obtain ⟨rfl, length⟩ := Prod.mk.inj (Option.some.inj (made.1.2.symm.trans wanted))
      exfalso
      rcases reason with rfl | busy
      · exact some (List.length_eq_zero_iff.mp length.symm)
      · exact busy record (by simpa using found) (silent session record found)
    | request front sockfd len now found' =>
      simp only [Ftps.makes, Bool.and_eq_true, beq_iff_eq] at made
      obtain ⟨rfl, length⟩ := Prod.mk.inj (Option.some.inj (made.1.2.symm.trans wanted))
      have own : Reception.requests
          (Reception.ownEffects session (.recv front session.toInt32 len, [])) = [len.toNat] := by
        simp [Reception.ownEffects, Reception.requests]
      refine .asked (accepted_step ⟨record, found⟩ taken) rfl read block rest whole progress ?_ ?_
      · rw [requests, own, length, List.map_append]
        rfl
      · rw [empty]
        exact .inl rfl
    | data | garbled | solveAccept | solveRecv => cases made

theorem answer_block {before own : List Reception.SessionEffect} {data block : List UInt8}
    {read unread : List (List UInt8)}
    (whole : read ++ block :: unread = plan fileName file)
    (asked : Reception.requests (before ++ own) = (read ++ [block]).map List.length)
    (blocks : Reception.blocks own = [data]) {final : AcceptedSocket}
    (streams : Reception.Streams (plan fileName file) (before ++ own) final)
    (closed : final.receivingLength = 0) : data = block := by
  have lengths : Reception.requests (before ++ own) <+: (plan fileName file).map List.length := by
    rw [asked, ← whole, List.append_cons read block unread]
    exact (List.prefix_append _ _).map List.length
  have inside := Reception.streams_blocks streams lengths
  have answered := streams.answered
  rw [Reception.pending, if_pos closed, List.append_nil, asked] at answered
  have count := congrArg List.length answered
  simp only [List.length_map] at count
  rw [← whole, List.append_cons read block unread] at inside
  have same := List.prefix_of_prefix_length_le inside (List.prefix_append _ _) count.ge
  have equal := same.eq_of_length count.symm
  rw [Reception.blocks_append, blocks] at equal
  exact (List.append_inj' equal rfl).2 |> List.cons.inj |> And.left

theorem Phase.keeps (phase : Phase session fileName file server ftps inbox asked done)
    (keeps : Accepted session server → Accepted session server') :
    Phase session fileName file server' ftps inbox asked done := by
  cases phase with
  | away away noRequest nothing => exact .away away noRequest nothing
  | called accepted waiting point answer noRequest nothing =>
    exact .called (keeps accepted) waiting point answer noRequest nothing
  | ready accepted idle read unread whole progress requests =>
    exact .ready (keeps accepted) idle read unread whole progress requests
  | asked accepted waiting read block unread whole progress requests answer =>
    exact .asked (keeps accepted) waiting read block unread whole progress requests answer
  | complete accepted away requests writes whole finished =>
    exact .complete (keeps accepted) away requests writes whole finished

theorem phase_accept (consistent : Reception.Consistent server)
    (opened : Open ftps inbox) (point : ftps.point = .accept) {record : AcceptedSocket}
    (waiting : record ∈ server.waitingAcceptSocketsList) {sockfd : Int32} {front : SockAddr}
    (accepted : record.session = session → Accepted session server')
    (keeps : Accepted session server → Accepted session server')
    (phase : Phase session fileName file server ftps inbox asked done) :
    Phase session fileName file server' ftps
      (inbox ++ answers ftps.addr [.acceptReturn sockfd front record.session]) asked done := by
  have others (different : record.session ≠ session) : ftps.point = .accept →
      ∀ effect ∈ [ReceiverEffect.acceptReturn sockfd front record.session], ∀ datagram,
        effect.datagram? ftps.addr = some datagram →
          (ofBytes32 datagram).toInt32 = session.toInt32 → session.toInt32 = -1 := by
    intro _ effect member datagram sent decoded
    obtain rfl := List.mem_singleton.mp member
    simp only [ReceiverEffect.datagram?] at sent
    split at sent
    · cases sent
      rw [ofBytes32_bytes32] at decoded
      exact absurd (toInt32_inj decoded) different
    · cases sent
  have unaccepted (present : Accepted session server) : record.session ≠ session := by
    rintro rfl
    obtain ⟨other, found⟩ := present
    cases found.symm.trans (consistent.apart record waiting)
  cases phase with
  | away away noRequest nothing =>
    by_cases own : record.session = session
    · subst own
      by_cases here : front = ftps.addr
      · have answer : inbox ++ answers ftps.addr [.acceptReturn sockfd front record.session] =
            [bytes32 record.session] := by
          rw [opened.2]
          simp [answers, ReceiverEffect.datagram?, here]
        rw [answer]
        exact .called (accepted rfl) opened.1 point rfl noRequest nothing
      · have silent : answers ftps.addr [.acceptReturn sockfd front record.session] = [] := by
          simp [answers, ReceiverEffect.datagram?, here]
        rw [silent, List.append_nil]
        exact .away away noRequest nothing
    · exact .away (away.answers (others own)) noRequest nothing
  | called _ _ _ answer =>
    rw [opened.2] at answer
    cases answer
  | ready _ idle => cases idle.symm.trans opened.1
  | asked _ _ _ _ _ _ progress =>
    have reading := progress_reads progress
    rw [point] at reading
    cases reading
  | complete present away requests writes whole finished =>
    exact .complete (keeps present) (away.answers (others (unaccepted present))) requests writes
      whole finished

theorem phase_work (turn : Turn server ftps inbox) (consistent : Reception.Consistent server)
    (taken : Receiver.step order server event = .ok (server', effects))
    (own : event = .solveAccept ∨ event = .solveRecv ∨
      ∃ sockfd message remoteTroll malloc, event = .data sockfd message remoteTroll malloc)
    {before : List Reception.SessionEffect}
    (streaming : Reception.Streaming (plan fileName file)
      (before ++ Reception.ownEffects session (event, effects)) (Reception.view session server'))
    (phase : Phase session fileName file server ftps inbox (Reception.requests before) done) :
    Phase session fileName file server' ftps (inbox ++ answers ftps.addr effects)
      (Reception.requests (before ++ Reception.ownEffects session (event, effects))) done := by
  have keeps (accepted : Accepted session server) := accepted_step accepted taken
  have move := Reception.step_move taken
  cases move with
  | data sockfd message remoteTroll malloc =>
    rw [show Reception.ownEffects session (.data sockfd message remoteTroll malloc,
        [.ack sockfd (ackOf message remoteTroll)]) = [] from rfl,
      show answers ftps.addr [.ack sockfd (ackOf message remoteTroll)] = [] from rfl,
      List.append_nil, List.append_nil]
    exact phase.keeps keeps
  | garbled sockfd message remoteTroll malloc =>
    rw [show Reception.ownEffects session (.data sockfd message remoteTroll malloc, []) = [] from
      rfl, show answers ftps.addr [] = [] from rfl, List.append_nil, List.append_nil]
    exact phase
  | solveAccept _ _ ran =>
    have silent : Reception.requests (Reception.ownEffects session (.solveAccept, effects)) = [] :=
      Reception.requests_effects session effects
    rw [Reception.requests_append, silent, List.append_nil]
    rcases solveAccept_cases turn ran with
      ⟨rfl, rfl⟩ | ⟨tmp, left, record, right, only, accepting, waiting, rfl, rfl⟩
    · rw [show answers ftps.addr [] = [] from rfl, List.append_nil]
      exact phase
    · obtain ⟨opened, point⟩ := turn.accepting tmp (by simp [only]) accepting
      refine phase_accept consistent opened point (by simp [waiting]) ?_ keeps phase
      rintro rfl
      exact ⟨record, Table.find_insert _ _ _⟩
  | solveRecv _ _ ran =>
    have silent : Reception.requests (Reception.ownEffects session (.solveRecv, effects)) = [] :=
      Reception.requests_effects session effects
    rcases solveRecv_answers ran turn ftps.addr with
      quiet | ⟨other, data, opened, reading, single, blocks, closed⟩
    · rw [quiet, List.append_nil, Reception.requests_append, silent, List.append_nil]
      exact phase.keeps keeps
    · -- The program that is answered here waits in RECV.
      have unaccepting (point : ftps.point = .accept) : False := by
        rw [point] at reading
        cases reading
      cases phase with
      | away away noRequest nothing =>
        rw [Reception.requests_append, silent, List.append_nil]
        exact .away (away.answers fun point => (unaccepting point).elim) noRequest nothing
      | called _ _ point => exact (unaccepting point).elim
      | ready _ idle => cases idle.symm.trans opened.1
      | asked accepted waiting read block unread whole progress requests _ =>
        have same := reading.symm.trans (progress_reads progress)
        obtain rfl : session = other := (toInt32_inj (Option.some.inj same)).symm
        obtain ⟨final, found⟩ := keeps accepted
        have streams := streaming.streams final (by
          simp [Reception.view, Reception.lookup, found, Reception.SessionView.sock?])
        have asked : Reception.requests (before ++
            Reception.ownEffects session (.solveRecv, effects)) =
            (read ++ [block]).map List.length := by
          rw [Reception.requests_append, silent, List.append_nil, requests]
        have sent : Reception.blocks (Reception.ownEffects session (.solveRecv, effects)) = [data] :=
          (Reception.blocks_effects session effects).trans blocks
        obtain rfl := answer_block whole asked sent streams (closed final found)
        refine .asked (keeps accepted) waiting read data unread whole progress asked ?_
        rw [opened.2, single]
        exact .inr rfl
      | complete accepted away requests writes whole finished =>
        rw [Reception.requests_append, silent, List.append_nil]
        exact .complete (keeps accepted) (away.answers fun point => (unaccepting point).elim)
          requests writes whole finished
  | bind | accept | refused | request => simp at own

theorem received_client (ftps : Ftps) (datagram : List UInt8) :
    ∀ effect ∈ (ftps.received datagram).2, reads ftps.point = some (sockClient effect) := by
  have loop (current : Ftps) (client : Int32) (fileSize fileLeft : UInt32) :
      ∀ effect ∈ (current.loop client fileSize fileLeft).2, sockClient effect = client := by
    intro effect member
    unfold Ftps.loop at member
    split at member
    · rw [List.mem_singleton.mp member]
      rfl
    · cases member
  intro effect member
  unfold Ftps.received at member
  split at member
  next => cases member
  next => split at member <;> cases member
  next => cases member
  next client fileSize point =>
    rw [point]
    rcases List.mem_cons.mp member with rfl | later
    · rfl
    · exact congrArg some (loop _ client fileSize fileSize effect later).symm
  next client fileSize fileLeft point =>
    rw [point]
    rcases List.mem_cons.mp member with rfl | later
    · rfl
    · exact congrArg some (loop _ client fileSize _ effect later).symm
  next => cases member

theorem received_point (ftps : Ftps) (datagram : List UInt8) :
    reads (ftps.received datagram).1.point = none ∨
      reads (ftps.received datagram).1.point = reads ftps.point ∨
      ftps.point = .accept ∧ (ofBytes32 datagram).toInt32 ≠ -1 ∧
        reads (ftps.received datagram).1.point = some (ofBytes32 datagram).toInt32 := by
  have loop (current : Ftps) (client : Int32) (fileSize fileLeft : UInt32) :
      reads (current.loop client fileSize fileLeft).1.point = none ∨
        reads (current.loop client fileSize fileLeft).1.point = some client := by
    unfold Ftps.loop
    split
    · exact .inl rfl
    · exact .inr rfl
  unfold Ftps.received
  split
  next =>
    left
    dsimp only
    split <;> rfl
  next point =>
    split
    · exact .inl rfl
    next found => exact .inr (.inr ⟨point, found, rfl⟩)
  next client point =>
    rw [point]
    exact .inr (.inl rfl)
  next client fileSize point =>
    rw [point]
    exact (loop _ client fileSize fileSize).imp_right .inl
  next client fileSize fileLeft point =>
    rw [point]
    exact (loop _ client fileSize _).imp_right .inl
  next code point =>
    rw [point]
    exact .inl rfl

theorem received_idle {client : Int32} (reading : reads ftps.point = some client)
    (datagram : List UInt8) : (ftps.received datagram).1.waiting = false := by
  have loop (current : Ftps) (client : Int32) (fileSize fileLeft : UInt32) :
      (current.loop client fileSize fileLeft).1.waiting = false := by
    unfold Ftps.loop
    split <;> rfl
  unfold Ftps.received
  split
  next point => simp [point, reads, FtpsPoint.recv?] at reading
  next point => simp [point, reads, FtpsPoint.recv?] at reading
  next => rfl
  next => exact loop _ _ _ _
  next => exact loop _ _ _ _
  next point => simp [point, reads, FtpsPoint.recv?] at reading

theorem away_read {client : Int32} {datagram : List UInt8}
    (away : Away client ftps.point [datagram]) :
    Away client (ftps.received datagram).1.point [] ∧
      forClient client (ftps.received datagram).2 = [] := by
  refine ⟨⟨?_, nofun⟩, ?_⟩
  · rcases received_point ftps datagram with none | same | ⟨point, found, turned⟩
    · rw [none]
      nofun
    · rw [same]
      exact away.elsewhere
    · rw [turned]
      intro here
      have decoded := Option.some.inj here
      exact found (decoded.trans (away.answer point datagram (.head _) decoded))
  · apply List.filter_eq_nil_iff.mpr
    intro effect member own
    apply away.elsewhere
    rw [received_client ftps datagram effect member, beq_iff_eq.mp own]

theorem phase_read (size : file.length < 2 ^ 32) (short : fileName.length ≤ 20)
    (text : 0 ∉ fileName) (waiting : ftps.waiting = true) {datagram : List UInt8}
    (phase : Phase session fileName file server ftps [datagram] asked done) :
    Phase session fileName file server (ftps.received datagram).1 [] asked
      (done ++ forClient session.toInt32 (ftps.received datagram).2) := by
  cases phase with
  | away away noRequest nothing =>
    obtain ⟨away, silent⟩ := away_read away
    rw [silent, List.append_nil]
    exact .away away noRequest nothing
  | called accepted _ point answer noRequest nothing =>
    obtain ⟨rfl, _⟩ := List.cons.inj answer
    have decoded : (ofBytes32 (bytes32 session)).toInt32 = session.toInt32 := by
      rw [ofBytes32_bytes32]
    subst nothing
    unfold Ftps.received
    simp only [point]
    split
    · exact .away ⟨nofun, nofun⟩ noRequest rfl
    · refine .ready accepted rfl [] (plan fileName file) rfl ?_ noRequest
      rw [decoded]
      exact .fileSize
  | ready _ idle => cases idle.symm.trans waiting
  | asked accepted _ read block unread whole progress requests answer =>
    have same : datagram = block := by simpa using answer
    subst same
    have reading := progress_reads progress
    have all : forClient session.toInt32 (ftps.received datagram).2 =
        (ftps.received datagram).2 := by
      apply List.filter_eq_self.mpr
      intro effect member
      have own := (received_client ftps datagram effect member).symm.trans reading
      exact beq_iff_eq.mpr (Option.some.inj own)
    rw [all]
    rw [List.append_cons] at whole
    rcases received_advanced size short text progress with
      next | ⟨rfl, point, writes, written, finished⟩
    · exact .ready accepted (received_idle reading datagram) _ _ whole next requests
    · rw [List.append_nil] at whole
      rw [whole] at requests
      refine .complete accepted ⟨?_, nofun⟩ requests writes written finished
      rw [point]
      nofun
  | complete accepted away requests writes whole finished =>
    obtain ⟨away, silent⟩ := away_read away
    rw [silent, List.append_nil]
    exact .complete accepted away requests writes whole finished

end Conversation

section Runs

variable {order : TcpdOrder} {addr : SockAddr} {sock : Int32} {state : Transfer}
  {history : Machine.History TransferEvent TransferEffect} {session : UInt32}
  {fileName file : List UInt8}

def sessionEffects (session : UInt32) (history : Machine.History TransferEvent TransferEffect) :
    List Reception.SessionEffect :=
  (serverCalls history).flatMap (Reception.ownEffects session)

theorem sessionEffects_append (session : UInt32)
    (left right : Machine.History TransferEvent TransferEffect) :
    sessionEffects session (left ++ right) =
      sessionEffects session left ++ sessionEffects session right := by
  simp [sessionEffects]

structure Conversation (session : UInt32) (fileName file : List UInt8)
    (history : Machine.History TransferEvent TransferEffect) (state : Transfer) : Prop where
  streaming : Reception.Streaming (plan fileName file) (sessionEffects session history)
    (Reception.view session state.transport.server)
  phase : Phase session fileName file state.transport.server state.ftps state.inbox
    (Reception.requests (sessionEffects session history))
    (forClient session.toInt32 (ftpsEffects history))

theorem conversation_unsplit (conversation : Conversation session fileName file history state) :
    Reception.Unsplit session state.transport.server := by
  intro record accepted pending
  have streams := conversation.streaming.streams record (by rw [accepted]; rfl)
  exact Reception.streams_unsplit streams (plan_blocks fileName file)
    (phase_lengths conversation.phase) pending

theorem conversation_step (turn : Turn state.transport.server state.ftps state.inbox)
    (consistent : Reception.Consistent state.transport.server) {event : TransferEvent}
    {state' : Transfer} {emitted : List TransferEffect}
    (taken : Transfer.step order state event = .ok (state', emitted))
    (size : file.length < 2 ^ 32) (short : fileName.length ≤ 20) (text : 0 ∉ fileName)
    (carries : Reception.Carries (plan fileName file)
      (Reception.received session (serverCalls [(event, emitted)])))
    (conversation : Conversation session fileName file history state) :
    Conversation session fileName file (history ++ [(event, emitted)]) state' := by
  have phase := conversation.phase
  have none (event : TransferEvent) (emitted : List TransferEffect)
      (other : serverCalls [(event, emitted)] = []) :
      sessionEffects session (history ++ [(event, emitted)]) = sessionEffects session history := by
    rw [sessionEffects_append]
    simp only [sessionEffects, other, List.flatMap_nil, List.append_nil]
  cases step_move taken with
  | start sockfd fileName' file' =>
    have same := none (.start sockfd fileName' file') [] rfl
    refine ⟨?_, ?_⟩
    · rw [same]
      exact conversation.streaming
    · rw [same, ftpsEffects_append]
      simpa [ftpsEffects] using phase
  | client event client effects ftpcs frames =>
    have same := none _ _ (serverCalls_client event ((effects.map .client).map .transport))
    refine ⟨?_, ?_⟩
    · rw [same]
      exact conversation.streaming
    · rw [same, ftpsEffects_append, ftpsEffects_transport, List.append_nil]
      exact phase
  | server event server effects ftps acks called ran =>
    rw [serverCalls_server] at carries
    have own : sessionEffects session (history ++
        [(.server event, (effects.map .server).map .transport)]) =
        sessionEffects session history ++ Reception.ownEffects session (event, effects) := by
      rw [sessionEffects_append]
      simp only [sessionEffects, serverCalls_server, List.flatMap_singleton]
    have streaming := Reception.step_streaming consistent ran (plan_few fileName size) carries
      (fun _ => conversation_unsplit conversation) conversation.streaming
    refine ⟨?_, ?_⟩
    · rw [own]
      exact streaming
    · rw [own, ftpsEffects_append, ftpsEffects_transport, List.append_nil]
      rcases called_cases called with ⟨rfl, idle, made⟩ | ⟨rfl, work⟩
      · rw [Reception.requests_append]
        exact phase_call size turn idle made ran phase
      · exact phase_work turn consistent ran work streaming phase
  | read datagram rest waiting arrived =>
    have same := none .read ((state.ftps.received datagram).2.map .ftps) rfl
    refine ⟨?_, ?_⟩
    · rw [same]
      exact conversation.streaming
    · rw [same, ftpsEffects_append, ftpsEffects_read, forClient_append]
      rcases turn.answered with empty | ⟨_, other, single⟩
      · cases empty.symm.trans arrived
      · obtain ⟨rfl, rfl⟩ := List.cons.inj (arrived.symm.trans single)
        rw [arrived] at phase
        exact phase_read size short text waiting phase

theorem run_conversation
    (run : Machine.Run (Transfer.step order) (.initial addr sock) history state)
    (size : file.length < 2 ^ 32) (short : fileName.length ≤ 20) (text : 0 ∉ fileName)
    (carries : Reception.Carries (plan fileName file)
      (Reception.received session (serverCalls history))) :
    Conversation session fileName file history state := by
  induction run with
  | start =>
    refine ⟨⟨fun _ => ⟨rfl, rfl⟩, ?_⟩, .away ⟨nofun, nofun⟩ rfl rfl⟩
    simp [Transfer.initial, Transport.initial, Receiver.initial, Reception.view, Reception.lookup,
      Reception.SessionView.sock?]
  | next event state' emitted before taken ih =>
    rw [serverCalls_append, Reception.received_append] at carries
    exact conversation_step (run_turn before)
      (Reception.run_consistent (Transport.run_server (run_transport before))) taken size short text
      (carries.subset fun _ member => List.mem_append_right _ member)
      (ih (carries.subset fun _ member => List.mem_append_left _ member))

def written (client : Int32) (effects : List FtpsEffect) : List UInt8 :=
  (effects.filterMap fun
    | .wrote other data => if other = client then some data else none
    | _ => none).flatten

@[simp] theorem written_append (client : Int32) (left right : List FtpsEffect) :
    written client (left ++ right) = written client left ++ written client right := by
  simp [written]

theorem written_forClient (client : Int32) (effects : List FtpsEffect) :
    written client (forClient client effects) = written client effects := by
  unfold written forClient
  rw [List.filterMap_filter]
  congr 2
  funext effect
  by_cases own : sockClient effect = client
  · simp [own]
  · cases effect with
    | wrote other data =>
      have different : other ≠ client := own
      simp [own, different]
    | opened | closed => simp

theorem written_record (client : Int32) (fileName file : List UInt8) (writes : List (List UInt8)) :
    written client (record client fileName file writes) = writes.flatten := by
  simp [written, record, List.filterMap_map]

/-- What `ftps` has done is a part of its work on the file, and it closes only a whole one. -/
def Partly (client : Int32) (fileName file : List UInt8) (done : List FtpsEffect) : Prop :=
  done = [] ∨ ∃ writes rest ends, writes.flatten ++ rest = file ∧
    done = record client fileName file writes ++ ends ∧
    (ends = [] ∨ rest = [] ∧ ends = [.closed client])

theorem progress_partly {client : Int32} {point : FtpsPoint} {unread : List (List UInt8)}
    {done : List FtpsEffect} (progress : Progress client fileName file point unread done) :
    Partly client fileName file done := by
  cases progress with
  | fileSize | fileName => exact .inl rfl
  | body writes rest whole =>
    exact .inr ⟨writes, rest, [], whole, (List.append_nil _).symm, .inl rfl⟩

theorem phase_partly {server : Receiver} {ftps : Ftps} {inbox : List (List UInt8)}
    {asked : List Nat} {done : List FtpsEffect}
    (phase : Phase session fileName file server ftps inbox asked done) :
    Partly session.toInt32 fileName file done := by
  cases phase with
  | away _ _ nothing | called _ _ _ _ _ nothing => exact .inl nothing
  | ready _ _ _ _ _ progress => exact progress_partly progress
  | asked _ _ _ _ _ _ progress => exact progress_partly progress
  | complete _ _ _ writes whole finished =>
    exact .inr ⟨writes, [], _, by rw [List.append_nil, whole], finished, .inr ⟨rfl, rfl⟩⟩

theorem file_transferred
    (run : Machine.Run (Transfer.step order) (.initial addr sock) history state) {sockfd : Int32}
    {ftpc : Ftpc} (found : state.ftpcs.find sockfd = some ftpc)
    (size : ftpc.file.length < 2 ^ 32) (short : ftpc.fileName.length ≤ 20)
    (text : 0 ∉ ftpc.fileName)
    (unique : ∀ other,
      (other, session) ∈ Sending.opened (Machine.events (clientCalls history)) → other = sockfd) :
    (∀ fileSize fileName, .opened session.toInt32 fileSize fileName ∈ ftpsEffects history →
        fileSize.toNat = ftpc.file.length ∧ fileName = ftpc.fileName) ∧
      written session.toInt32 (ftpsEffects history) <+: ftpc.file ∧
      (.closed session.toInt32 ∈ ftpsEffects history →
        written session.toInt32 (ftpsEffects history) = ftpc.file) := by
  have conversation := run_conversation run size short text
    (received_plan run found (size.trans (by decide)) unique)
  have own (effect : FtpsEffect) (member : effect ∈ ftpsEffects history)
      (client : sockClient effect = session.toInt32) :
      effect ∈ forClient session.toInt32 (ftpsEffects history) :=
    List.mem_filter.mpr ⟨member, beq_iff_eq.mpr client⟩
  rw [← written_forClient]
  rcases phase_partly conversation.phase with nothing | ⟨writes, rest, ends, whole, done, outcome⟩
  · rw [nothing] at own ⊢
    refine ⟨?_, List.nil_prefix, ?_⟩
    · intro fileSize fileName member
      cases own _ member rfl
    · intro member
      cases own _ member rfl
  · have silent : written session.toInt32 ends = [] := by
      rcases outcome with rfl | ⟨_, rfl⟩ <;> rfl
    have bytes : written session.toInt32 (forClient session.toInt32 (ftpsEffects history)) =
        writes.flatten := by
      rw [done, written_append, written_record, silent, List.append_nil]
    rw [done] at own
    refine ⟨?_, ?_, ?_⟩
    · intro fileSize fileName member
      have inside := own _ member rfl
      have first : fileSize = UInt32.ofNat ftpc.file.length ∧ fileName = ftpc.fileName := by
        rcases outcome with rfl | ⟨_, rfl⟩ <;> simpa [record] using inside
      rw [first.1, UInt32.toNat_ofNat_of_lt' size]
      exact ⟨rfl, first.2⟩
    · rw [bytes, ← whole]
      exact List.prefix_append _ _
    · intro member
      have inside := own _ member rfl
      rw [bytes]
      rcases outcome with rfl | ⟨rfl, _⟩
      · simp [record] at inside
      · rw [← whole, List.append_nil]

-- A file of two bytes crosses in three frames.
theorem file_transferred_two_bytes :
    ∃ history state ftpc, Machine.Run (Transfer.step ⟨.insertion UInt32, .insertion Int32⟩)
        (.initial default 3) history state ∧
      state.ftpcs.find 5 = some ftpc ∧ ftpc.file = [1, 2] ∧
      ftpsEffects history = [.opened 7 2 [97], .wrote 7 [1, 2], .closed 7] ∧
      written 7 (ftpsEffects history) = ftpc.file := by
  have run : Machine.Run (Transfer.step ⟨.insertion UInt32, .insertion Int32⟩) (.initial default 3)
    [] (.initial default 3) := .start
  have run := run.next (.start 5 [97] [1, 2]) _ _ rfl
  have run := run.next _ _ _
    (step_server (.bind default 3 true) (Transport.step_server _ trivial rfl) rfl)
  have run := run.next .read _ _ rfl
  have run := run.next _ _ _
    (step_server (.accept default 3) (Transport.step_server _ trivial rfl) rfl)
  have run := run.next _ _ _
    (step_client (.connect default 5 default 7) (Transport.step_client _ trivial rfl) rfl)
  have run := run.next _ _ _
    (step_client (.send default 5 4 (.pad bufLen [0, 0, 0, 2]) default)
      (Transport.step_client _ trivial rfl) rfl)
  have run := run.next _ _ _
    (step_client (.send default 5 20 (.pad bufLen [97]) default)
      (Transport.step_client _ trivial rfl) rfl)
  have run := run.next _ _ _
    (step_client (.send default 5 2 (.pad bufLen [1, 2]) default)
      (Transport.step_client _ trivial rfl) rfl)
  have run := run.next _ _ _
    (step_client (.solveSend fun _ => default) (Transport.step_client _ trivial rfl) rfl)
  have run := run.next _ _ _
    (step_server (.data 3 _ default default) (Transport.step_server _
      (fun _ => ⟨_, .head _, rfl⟩)
      (Reception.step_data 3 rfl (TrollMessage.sealed_intact _) default default)) rfl)
  have run := run.next _ _ _
    (step_server (.data 3 _ default default) (Transport.step_server _
      (fun _ => ⟨_, .tail _ (.head _), rfl⟩)
      (Reception.step_data 3 rfl (TrollMessage.sealed_intact _) default default)) rfl)
  have run := run.next _ _ _
    (step_server (.data 3 _ default default) (Transport.step_server _
      (fun _ => ⟨_, .tail _ (.tail _ (.head _)), rfl⟩)
      (Reception.step_data 3 rfl (TrollMessage.sealed_intact _) default default)) rfl)
  have run := run.next _ _ _
    (step_server .solveAccept (Transport.step_server _ trivial rfl) rfl)
  have run := run.next .read _ _ rfl
  have run := run.next _ _ _
    (step_server (.recv default 7 4) (Transport.step_server _ trivial rfl) rfl)
  have run := run.next _ _ _
    (step_server .solveRecv (Transport.step_server _ trivial rfl) rfl)
  have run := run.next .read _ _ rfl
  have run := run.next _ _ _
    (step_server (.recv default 7 20) (Transport.step_server _ trivial rfl) rfl)
  have run := run.next _ _ _
    (step_server .solveRecv (Transport.step_server _ trivial rfl) rfl)
  have run := run.next .read _ _ rfl
  have run := run.next _ _ _
    (step_server (.recv default 7 2) (Transport.step_server _ trivial rfl) rfl)
  have run := run.next _ _ _
    (step_server .solveRecv (Transport.step_server _ trivial rfl) rfl)
  have run := run.next .read _ _ rfl
  have unique (other : Int32) (member : (other, (7 : UInt32)) ∈ [((5 : Int32), (7 : UInt32))]) :
      other = 5 := by
    simpa using member
  have transferred := @file_transferred _ _ _ _ _ 7 run 5 _ rfl (by decide) (by decide) (by decide)
    unique
  refine ⟨_, _, _, run, rfl, rfl, ?_⟩
  exact ⟨rfl, transferred.2.2 (.tail _ (.tail _ (.head _)))⟩

end Runs

end NetworkProj.Transfer
