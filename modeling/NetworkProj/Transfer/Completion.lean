import NetworkProj.Transfer.Debts
import NetworkProj.Transfer.Sends
import NetworkProj.Receiver.Idempotence

set_option autoImplicit false

namespace NetworkProj.Transfer

variable {order : TcpdOrder} {addr : SockAddr} {sock : Int32} {before state state' : Transfer}
  {history : Machine.History TransferEvent TransferEffect} {sockfd : Int32} {session : UInt32}
  {ftpc : Ftpc}

section Requests

variable {payloads : List (List UInt8)} {effects : List Reception.SessionEffect}
  {record final : AcceptedSocket}

theorem request_short (streams : Reception.Streams payloads effects record)
    (short : ∀ block ∈ payloads, block.length ≤ bufLen)
    (lengths : Reception.requests effects <+: payloads.map List.length) :
    record.receivingLength.toNat ≤ bufLen := by
  by_cases idle : record.receivingLength = 0
  next =>
    rw [idle]
    exact Nat.zero_le _
  next =>
    have answered := streams.answered
    rw [Reception.pending, if_neg idle] at answered
    have member : record.receivingLength.toNat ∈ payloads.map List.length := by
      apply lengths.subset
      rw [answered]
      exact List.mem_append_right _ (List.mem_singleton_self _)
    obtain ⟨block, inside, same⟩ := List.mem_map.mp member
    rw [← same]
    exact short block inside

theorem unanswered {freed : List ReceiverEffect}
    (ran : solveRecvSocket session record = .ok (final, freed))
    (still : final.receivingLength ≠ 0) :
    ¬ Reception.Copyable final ∧ final.recvBufferSize ≠ final.receivingLength := by
  rcases Reception.solveRecvSocket_cases ran with
    ⟨idle, rfl, _⟩ | ⟨_, _, copied, freed, looped, ⟨partly, rfl, _⟩ | ⟨_, rfl, _⟩⟩
  · rw [UInt64.lt_iff_toNat_lt] at idle
    exact absurd (UInt64.toNat_inj.mp (Nat.eq_zero_of_not_pos idle)) still
  · exact ⟨Reception.copyLoop_stuck looped, partly⟩
  · exact absurd rfl still

theorem consumed_all {received : List TrollMessage} (streams : Reception.Streams payloads effects record)
    (canonical : Reception.Canonical received record)
    (arrived : ∀ seqNum : UInt32, seqNum.toNat < payloads.length →
      (∃ now ∈ record.packages, now.seqNum = seqNum) ∨ seqNum < record.base)
    (room : record.recvBufferSize < record.receivingLength) (stuck : ¬ Reception.Copyable record) :
    record.base.toNat = payloads.length := by
  by_contra short
  rcases arrived record.base (Nat.lt_of_le_of_ne streams.base short) with ⟨now, member, same⟩ | less
  · cases shape : record.packages with
    | nil =>
      rw [shape] at member
      cases member
    | cons head rest =>
      have sorted := canonical.sorted
      rw [shape] at sorted member
      have above := ((canonical.stored head.seqNum).mp ⟨head, by simp [shape], rfl⟩).1
      rcases List.mem_cons.mp member with rfl | behind
      · exact stuck ⟨room, now, by simp [shape], same⟩
      · have below := (List.pairwise_cons.mp sorted).1 now behind
        rw [same] at below
        exact UInt32.not_lt.mpr above below
  · exact UInt32.lt_irrefl _ less

theorem no_request_waits {received : List TrollMessage}
    (streams : Reception.Streams payloads effects record)
    (canonical : Reception.Canonical received record)
    (arrived : ∀ seqNum : UInt32, seqNum.toNat < payloads.length →
      (∃ now ∈ record.packages, now.seqNum = seqNum) ∨ seqNum < record.base)
    (short : ∀ block ∈ payloads, block.length ≤ bufLen)
    (lengths : Reception.requests effects <+: payloads.map List.length)
    (stuck : ¬ Reception.Copyable record) (partly : record.recvBufferSize ≠ record.receivingLength) :
    False := by
  have room : record.recvBufferSize.toNat < record.receivingLength.toNat :=
    Nat.lt_of_le_of_ne (UInt64.le_iff_toNat_le.mp streams.size)
      fun same => partly (UInt64.toNat_inj.mp same)
  have pending : record.receivingLength ≠ 0 := by
    intro zero
    rw [zero] at room
    cases room
  have full := consumed_all streams canonical arrived (UInt64.lt_iff_toNat_lt.mpr room) stuck
  -- All bytes are there, and the program never asks for more than all.
  have within := request_short streams short lengths
  have bytes := congrArg List.length streams.delivered
  rw [full, List.take_length, List.length_append, Reception.buffered,
    Block.length_take _ _ (by omega)] at bytes
  obtain ⟨rest, whole⟩ := lengths
  have answered := streams.answered
  rw [Reception.pending, if_neg pending] at answered
  rw [answered] at whole
  have sum := congrArg List.sum whole
  simp only [List.sum_append, List.sum_singleton, ← List.length_flatten] at sum
  omega

end Requests

section Stored

theorem Sound.turn (sound : Sound order addr sock history state) :
    Turn state.transport.server state.ftps state.inbox :=
  run_turn sound.run

theorem Sound.owed (sound : Sound order addr sock history state) :
    Owed (Known history) state.transport.server state.ftps state.inbox (ftpsEffects history) :=
  run_owed sound.run sound.valid

theorem Sound.finished (sound : Sound order addr sock history state) (delivered : Delivered state)
    (connected : (sockfd, session) ∈ connections history)
    (found : state.ftpcs.find sockfd = some ftpc) :
    Sending.sends sockfd (Machine.events (clientCalls history)) = plan ftpc.fileName ftpc.file ∧
      ftpc.point = .exited 0 := by
  have small := (sound.fits sockfd ftpc found).size.trans (show 2 ^ 32 < 2 ^ 64 by decide)
  have gapless := run_gapless sound.run sockfd ftpc found small
  have follows := sound.served.follows sockfd ftpc found small
  obtain ⟨other, present, past⟩ := sound.program connected
  obtain rfl := Option.some.inj (present.symm.trans found)
  have none : todo other = [] := by
    have weight := Table.weight_le_total unsent found
    rw [delivered.silent, unsent_todo past] at weight
    exact List.eq_nil_of_length_eq_zero (Nat.le_zero.mp weight)
  have whole := gapless.whole
  rw [none, List.append_nil] at whole
  refine ⟨whole, ?_⟩
  cases at_ : other.point with
  | connect => exact absurd at_ past
  | fileSize | fileName => simp [todo, at_, plan] at none
  | body fileLeft position =>
    obtain ⟨left, positive⟩ := follows.left fileLeft position at_
    rw [todo, at_] at none
    dsimp only at none
    rw [chunks_of_ne (List.ne_nil_of_length_pos (left ▸ positive))] at none
    cases none
  | exited code => rw [gapless.ended code at_]

theorem Sound.arrived (sound : Sound order addr sock history state) (delivered : Delivered state)
    (connected : (sockfd, session) ∈ connections history)
    (found : state.ftpcs.find sockfd = some ftpc) :
    ∃ record, (Reception.view session state.transport.server).sock? = some record ∧
      ∀ seqNum : UInt32, seqNum.toNat < (plan ftpc.fileName ftpc.file).length →
        (∃ now ∈ record.packages, now.seqNum = seqNum) ∨ seqNum < record.base := by
  obtain ⟨client, present, own⟩ := sound.record connected
  have booked := sound.books.booked sockfd client present
  rw [(sound.finished delivered connected found).1] at booked
  have kept (seqNum : UInt32) (below : seqNum.toNat < (plan ftpc.fileName ftpc.file).length) :
      ∃ record, (Reception.view session state.transport.server).sock? = some record ∧
        ((∃ now ∈ record.packages, now.seqNum = seqNum) ∨ seqNum < record.base) := by
    rw [booked.count, ← UInt32.lt_iff_toNat_lt] at below
    rcases Transport.acked_kept (run_transport sound.run) sound.served.once sound.distinct present
      below with ⟨now, member, _⟩ | ⟨record, taken, outcome⟩
    · obtain ⟨packages, pending⟩ := Network.none_held delivered.empty present
      rw [packages, pending] at member
      cases member
    · rw [own] at taken
      exact ⟨record, taken, outcome.imp_left fun ⟨now, member, same, _⟩ => ⟨now, member, same⟩⟩
  obtain ⟨record, taken, _⟩ := kept 0 (by simp [plan])
  refine ⟨record, taken, fun seqNum below => ?_⟩
  obtain ⟨other, taken', outcome⟩ := kept seqNum below
  obtain rfl := Option.some.inj (taken.symm.trans taken')
  exact outcome

theorem Sound.fitting (sound : Sound order addr sock history state) {record : AcceptedSocket}
    (found : state.transport.server.acceptedSockets.find session = some record) :
    Reception.Fitting record := by
  obtain ⟨sockfd, connected⟩ := (sound.owed.attended session ⟨record, found⟩).1
  obtain ⟨ftpc, present, _⟩ := sound.program connected
  have conversation := sound.conversation connected present
  have streams := conversation.streaming.streams record (by
    simp [Reception.view, Reception.lookup, found, Reception.SessionView.sock?])
  have short := request_short streams
    (fun block member => (plan_blocks ftpc.fileName ftpc.file block member).2)
    (phase_lengths conversation.phase)
  exact ⟨⟨short, UInt64.le_iff_toNat_le.mp streams.size⟩, fun now member => (streams.stored now member).2⟩

theorem Sound.answers (sound : Sound order addr sock history state) (delivered : Delivered state)
    (connected : (sockfd, session) ∈ connections history) {record final : AcceptedSocket}
    {freed : List ReceiverEffect}
    (found : state.transport.server.acceptedSockets.find session = some final)
    (solved : solveRecvSocket session record = .ok (final, freed)) : final.receivingLength = 0 := by
  by_contra still
  obtain ⟨stuck, partly⟩ := unanswered solved still
  obtain ⟨ftpc, present, _⟩ := sound.program connected
  have here : (Reception.view session state.transport.server).sock? = some final := by
    simp [Reception.view, Reception.lookup, found, Reception.SessionView.sock?]
  have conversation := sound.conversation connected present
  obtain ⟨other, taken, arrived⟩ := sound.arrived delivered connected present
  obtain rfl := Option.some.inj (here.symm.trans taken)
  have reordered := Reception.run_reordered sound.server session
    (Transport.consumed_few (run_transport sound.run) sound.served.once session)
  exact no_request_waits (conversation.streaming.streams final here)
    (reordered.canonical final here) arrived
    (fun block member => (plan_blocks ftpc.fileName ftpc.file block member).2)
    (phase_lengths conversation.phase) stuck partly

end Stored

section Ways

def ahead (ftps : Ftps) (inbox : List (List UInt8)) : Nat :=
  match ftps.point with
  | .bind => 1
  | .accept => if inbox = [] then 0 else UInt32.size + 2
  | .fileSize _ => UInt32.size + 1
  | .fileName _ fileSize => fileSize.toNat + 1
  | .body _ _ fileLeft => fileLeft.toNat
  | .exited _ => 0

def awaited (ftps : Ftps) (inbox : List (List UInt8)) : Nat :=
  if ftps.waiting then if inbox = [] then 1 else 0 else 2

def remaining (state : Transfer) : Nat :=
  3 * (UInt32.size + 3) * state.transport.server.waitingAcceptSocketsList.length +
    3 * ahead state.ftps state.inbox + awaited state.ftps state.inbox

structure Settled (state : Transfer) : Prop where
  queue : state.transport.server.waitingAcceptSocketsList = []
  point : state.ftps.point = .accept
  empty : state.inbox = []

variable {server server' : Receiver} {ftps ftps' : Ftps} {inbox inbox' : List (List UInt8)}
  {event : ReceiverEvent}

theorem ahead_elsewhere (elsewhere : ftps.point ≠ .accept) (inbox inbox' : List (List UInt8)) :
    ahead ftps inbox = ahead ftps inbox' := by
  cases at_ : ftps.point with
  | accept => exact absurd at_ elsewhere
  | bind | fileSize | fileName | body | exited => simp only [ahead, at_]

theorem call_lowers (bound : server.bindedSockets = [] → ftps.point ≠ .accept)
    (idle : ftps.waiting = false) (waits : ftps'.waiting = true)
    (move : ServerMove server ftps inbox event server' ftps' inbox') :
    server'.waitingAcceptSocketsList = server.waitingAcceptSocketsList ∧
      3 * ahead ftps' inbox' + awaited ftps' inbox' < 3 * ahead ftps inbox + awaited ftps inbox := by
  have two : awaited ftps inbox = 2 := by
    simp [awaited, idle]
  have less : awaited ftps' inbox' < 2 := by
    rw [awaited, if_pos waits]
    split <;> decide
  have lowers (same : ahead ftps' inbox' ≤ ahead ftps inbox) :
      3 * ahead ftps' inbox' + awaited ftps' inbox' < 3 * ahead ftps inbox + awaited ftps inbox := by
    omega
  cases move with
  | bind granted idle point => exact ⟨rfl, lowers (by simp [ahead, point])⟩
  | accept idle point => exact ⟨rfl, lowers (by simp [ahead, point])⟩
  | unbound idle point none => exact absurd point (bound none)
  | request session len record idle reading =>
    exact ⟨rfl, lowers (ahead_elsewhere (reads_elsewhere reading).2 [] inbox).le⟩
  | refused client len idle reading datagram =>
    exact ⟨rfl, lowers (ahead_elsewhere (reads_elsewhere reading).2 [datagram] inbox).le⟩
  | data | nothing | take | silent | answer => cases idle.symm.trans waits

theorem ahead_loop (current : Ftps) (client : Int32) (fileSize fileLeft : UInt32) :
    ahead (current.loop client fileSize fileLeft).1 [] = fileLeft.toNat := by
  unfold Ftps.loop
  split
  next zero =>
    rw [zero]
    rfl
  · rfl

theorem ahead_received {datagram : List UInt8} (running : ∀ code, ftps.point ≠ .exited code)
    (some : ∀ client, reads ftps.point = some client → datagram ≠ [])
    (more : ∀ client fileSize fileLeft, ftps.point = .body client fileSize fileLeft → fileLeft ≠ 0) :
    ahead (ftps.received datagram).1 [] < ahead ftps [datagram] := by
  cases at_ : ftps.point with
  | bind =>
    by_cases negative : (ofBytes32 datagram).toInt32 < 0 <;>
      simp [ahead, Ftps.received, at_, negative]
  | accept =>
    by_cases error : (ofBytes32 datagram).toInt32 = -1 <;>
      simp [ahead, Ftps.received, at_, error]
  | fileSize client =>
    simp only [ahead, Ftps.received, at_]
    have bound := fun size : UInt32 => size.toNat_lt_size
    exact Nat.succ_lt_succ (bound _)
  | fileName client fileSize =>
    rw [show ahead ftps [datagram] = fileSize.toNat + 1 by simp only [ahead, at_]]
    simp only [Ftps.received, at_, ahead_loop]
    exact Nat.lt_succ_self _
  | body client fileSize fileLeft =>
    have nonzero := more client fileSize fileLeft at_
    have bytes := List.length_pos_iff.mpr (some client (by rw [at_]; rfl))
    have positive : 0 < fileLeft.toNat := Nat.pos_of_ne_zero fun zero =>
      nonzero (UInt32.toNat_inj.mp zero)
    rw [show ahead ftps [datagram] = fileLeft.toNat by simp only [ahead, at_]]
    simp only [Ftps.received, at_, ahead_loop]
    generalize taken : (datagram.take
      (if fileLeft.toNat < bufLen then fileLeft.toNat else bufLen)).length = count
    have count_pos : 0 < count := by
      rw [← taken, List.length_take]
      unfold bufLen
      split <;> omega
    have rVal : 0 < (if count > fileLeft.toNat then fileLeft.toNat else count) ∧
        (if count > fileLeft.toNat then fileLeft.toNat else count) ≤ fileLeft.toNat := by
      split <;> omega
    have small := rVal.2.trans_lt fileLeft.toNat_lt_size
    rw [UInt32.toNat_sub_of_le _ _ (by
      rw [UInt32.le_iff_toNat_le, UInt32.toNat_ofNat_of_lt' small]
      exact rVal.2), UInt32.toNat_ofNat_of_lt' small]
    omega
  | exited code => exact absurd at_ (running code)

theorem progress_more {client : Int32} {fileName file : List UInt8} {fileSize fileLeft : UInt32}
    {unread : List (List UInt8)} {done : List FtpsEffect} (size : file.length < 2 ^ 32)
    (progress : Progress client fileName file (.body client fileSize fileLeft) unread done) :
    fileLeft ≠ 0 := by
  cases progress with
  | body writes rest whole more =>
    intro zero
    have length : writes.flatten.length + rest.length = file.length := by
      rw [← whole, List.length_append]
    have left := congrArg UInt32.toNat zero
    rw [UInt32.toNat_ofNat_of_lt' (by unfold UInt32.size; omega)] at left
    exact more (List.eq_nil_of_length_eq_zero left)

theorem phase_reading {fileName file : List UInt8} {asked : List Nat} {done : List FtpsEffect}
    (waiting : ftps.waiting = true) (reading : reads ftps.point = some session.toInt32)
    (phase : Phase session fileName file server ftps inbox asked done) :
    Accepted session server ∧ ∃ block unread, block ∈ plan fileName file ∧
      (inbox = [] ∨ inbox = [block]) ∧
      Progress session.toInt32 fileName file ftps.point (block :: unread) done := by
  cases phase with
  | away away => exact absurd reading away.elsewhere
  | called _ _ point => exact absurd point (reads_elsewhere reading).2
  | ready _ idle => cases idle.symm.trans waiting
  | asked accepted _ read block unread whole progress _ answer =>
    refine ⟨accepted, block, unread, ?_, answer, progress⟩
    rw [← whole]
    exact List.mem_append_right _ List.mem_cons_self
  | complete _ away => exact absurd reading away.elsewhere

end Ways

section Moves

theorem called_of_makes {ftps : Ftps} {event : ReceiverEvent} (made : ftps.makes event = true) :
    ftps.called event = some { ftps with waiting := true } := by
  cases event with
  | bind | accept | recv => simp [Ftps.called, made]
  | data | solveAccept | solveRecv => cases made

theorem since_of_makes {ftps : Ftps} {event : ReceiverEvent} (made : ftps.makes event = true) :
    Since before state (.server event) := by
  cases event with
  | bind | accept | recv => trivial
  | data | solveAccept | solveRecv => cases made

theorem Sound.makes (sound : Sound order addr sock history state)
    (idle : state.ftps.waiting = false) :
    ∃ event server effects, state.ftps.makes event = true ∧
      Receiver.step order.accepted state.transport.server event = .ok (server, effects) := by
  have recv (client : Int32) (len : Nat) (wanted : state.ftps.point.recv? = some (client, len))
      (small : len < 2 ^ 64) :
      state.ftps.makes (.recv state.ftps.addr client (UInt64.ofNat len)) = true := by
    simp [Ftps.makes, idle, wanted, UInt64.toNat_ofNat_of_lt' small]
  cases at_ : state.ftps.point with
  | bind =>
    have none := sound.owed.bound.mpr ⟨at_, idle⟩
    obtain ⟨⟨server, effects⟩, taken⟩ : ∃ result, Receiver.step order.accepted
        state.transport.server (.bind state.ftps.addr state.ftps.sock true) = .ok result := by
      simp [Receiver.step, tcpdBind, none]
    exact ⟨_, server, effects, by simp [Ftps.makes, idle, at_], taken⟩
  | accept =>
    exact ⟨.accept state.ftps.addr state.ftps.sock, _, _, by simp [Ftps.makes, idle, at_], rfl⟩
  | fileSize client =>
    exact ⟨_, _, _, recv client 4 (by rw [at_]; rfl) (by decide), rfl⟩
  | fileName client fileSize =>
    exact ⟨_, _, _, recv client 20 (by rw [at_]; rfl) (by decide), rfl⟩
  | body client fileSize fileLeft =>
    refine ⟨_, _, _, recv client _ (by rw [at_]; rfl) ?_, rfl⟩
    unfold bufLen
    split <;> omega
  | exited code => exact absurd at_ (sound.owed.running code)

theorem Reached.calls (reached : Reached order addr sock history before state)
    (idle : state.ftps.waiting = false) :
    ∃ state', Reached order addr sock history before state' ∧ state'.ftpcs = state.ftpcs ∧
      state'.transport.client = state.transport.client ∧ remaining state' < remaining state := by
  obtain ⟨later, onward⟩ := reached
  have sound := onward.sound
  obtain ⟨event, server, effects, made, taken⟩ := sound.makes idle
  have called := called_of_makes made
  have on := Reached.server ⟨later, onward⟩ (since_of_makes made) taken called
  obtain ⟨queue, less⟩ := call_lowers
    (fun none accepting => nomatch (sound.owed.bound.mp none).1.symm.trans accepting) idle rfl
    (server_move sound.turn called taken)
  refine ⟨_, on, rfl, rfl, ?_⟩
  unfold remaining
  dsimp only
  rw [queue]
  dsimp only at less
  omega

theorem Reached.hears (reached : Reached order addr sock history before state)
    (waiting : state.ftps.waiting = true) (answered : state.inbox ≠ []) :
    ∃ state', Reached order addr sock history before state' ∧ state'.ftpcs = state.ftpcs ∧
      state'.transport.client = state.transport.client ∧ remaining state' < remaining state := by
  obtain ⟨later, onward⟩ := reached
  have sound := onward.sound
  have owed := sound.owed
  rcases sound.turn.answered with empty | ⟨_, datagram, single⟩
  · exact absurd empty answered
  · have on := Reached.read ⟨later, onward⟩ waiting single
    -- In a RECV the answer is the next block of the file.
    have reading (client : Int32) (reading : reads state.ftps.point = some client) :
        datagram ≠ [] ∧ ∀ fileSize fileLeft,
          state.ftps.point = .body client fileSize fileLeft → fileLeft ≠ 0 := by
      obtain ⟨session, ⟨sockfd, connected⟩, rfl⟩ := owed.reading client reading
      obtain ⟨ftpc, found, _⟩ := sound.program connected
      obtain ⟨_, block, unread, inside, answer, progress⟩ :=
        phase_reading waiting reading (sound.conversation connected found).phase
      rw [single] at answer
      obtain rfl : datagram = block := by simpa using answer
      refine ⟨(plan_blocks _ _ datagram inside).1, ?_⟩
      intro fileSize fileLeft body
      rw [body] at progress
      exact progress_more (sound.fits sockfd ftpc found).size progress
    have less := @ahead_received state.ftps datagram owed.running
      (fun client here => (reading client here).1)
      (fun client fileSize fileLeft body => (reading client (by rw [body]; rfl)).2 _ _ body)
    refine ⟨_, on, rfl, rfl, ?_⟩
    have idle := received_waiting datagram owed.running
    unfold remaining
    dsimp only
    rw [single, show ∀ inbox, awaited (state.ftps.received datagram).1 inbox = 2 by
      intro inbox
      simp [awaited, idle]]
    omega

theorem Reached.takes (reached : Reached order addr sock history before state)
    (opened : Open state.ftps state.inbox) (point : state.ftps.point = .accept)
    (waiting : state.transport.server.waitingAcceptSocketsList ≠ []) :
    ∃ state', Reached order addr sock history before state' ∧ state'.ftpcs = state.ftpcs ∧
      state'.transport.client = state.transport.client ∧ remaining state' < remaining state := by
  obtain ⟨later, onward⟩ := reached
  have owed := onward.sound.owed
  obtain ⟨record, rest, shape⟩ := List.exists_cons_of_ne_nil waiting
  obtain ⟨tmp, only, same⟩ : ∃ tmp, state.transport.server.bindedSockets = [tmp] ∧
      tmp.socketFD = state.ftps.sock := by
    rcases onward.sound.turn.sockets with none | single
    · cases (owed.bound.mp none).1.symm.trans point
    · exact single
  have accepting := owed.listens opened point tmp (by simp [only])
  have here : record.socketFD = tmp.socketFD :=
    ((owed.queued record (by simp [shape])).1).trans same.symm
  have addr := owed.front tmp (by simp [only]) accepting
  have taken : Receiver.step order.accepted state.transport.server .solveAccept =
      .ok (⟨[{ tmp with accepting := false }],
          state.transport.server.acceptedSockets.insert record.session record, rest⟩,
        [.acceptReturn tmp.socketFD tmp.acceptingAddr record.session]) := by
    simp [Receiver.step, solveAcceptCallback, acceptWaiting, shape, only, accepting, here]
  have on := Reached.server ⟨later, onward⟩ (show Since before state (.server .solveAccept) from trivial)
    taken (show state.ftps.called .solveAccept = some state.ftps from rfl)
  refine ⟨_, on, rfl, rfl, ?_⟩
  have answer : answers state.ftps.addr [.acceptReturn tmp.socketFD tmp.acceptingAddr record.session] =
      [bytes32 record.session] := by
    simp [answers, ReceiverEffect.datagram?, addr]
  unfold remaining
  dsimp only
  rw [answer]
  simp only [shape, List.length_cons, opened.2, List.nil_append, ahead, awaited, opened.1, point,
    List.cons_ne_nil, if_true, if_false]
  have shorter := Nat.mul_add_one (3 * (UInt32.size + 3)) rest.length
  omega

theorem Reached.answered (reached : Reached order addr sock history before state)
    (delivered : Delivered state) (opened : Open state.ftps state.inbox) {client : Int32}
    (reading : reads state.ftps.point = some client) :
    ∃ state', Reached order addr sock history before state' ∧ state'.ftpcs = state.ftpcs ∧
      state'.transport.client = state.transport.client ∧ remaining state' < remaining state := by
  obtain ⟨later, onward⟩ := reached
  have sound := onward.sound
  obtain ⟨session, ⟨sockfd, connected⟩, rfl⟩ := sound.owed.reading client reading
  obtain ⟨ftpc, found, _⟩ := sound.program connected
  obtain ⟨⟨record, present⟩, _⟩ :=
    phase_reading opened.1 reading (sound.conversation connected found).phase
  obtain ⟨asked, front⟩ := sound.owed.waits opened session reading record present
  obtain ⟨server, effects, ran⟩ := Reception.solveRecvCallback_ok order.accepted
    fun _ _ found => sound.fitting found
  have on := Reached.server ⟨later, onward⟩ (show Since before state (.server .solveRecv) from trivial)
    ran (show state.ftps.called .solveRecv = some state.ftps from rfl)
  refine ⟨_, on, rfl, rfl, ?_⟩
  have told : answers state.ftps.addr effects ≠ [] := by
    intro silent
    -- The request would stay open, although everything is there.
    obtain ⟨final, present'⟩ := solveRecv_final ran present
    obtain ⟨other, before, _, kept⟩ := silent_kept ran silent present'
    obtain rfl := Option.some.inj (before.symm.trans present)
    obtain ⟨_, _, _, solved, _⟩ := solveRecv_found ran present'
    obtain ⟨last, onward'⟩ := on
    have still : (sockfd, session) ∈ connections (history ++ last) := by
      rw [onward'.kept.1, ← onward.kept.1]
      exact connected
    have closed := onward'.sound.answers ⟨delivered.silent, delivered.empty⟩ still present' solved
    exact asked ((kept front).symm.trans closed)
  obtain ⟨accepted, _, rfl⟩ := Reception.solveRecvCallback_swept ran
  have same := ahead_elsewhere (reads_elsewhere reading).2 state.inbox
    (state.inbox ++ answers state.ftps.addr effects)
  unfold remaining
  dsimp only
  rw [← same]
  simp only [awaited, opened.1, opened.2, List.nil_append, told, if_true, if_false]
  omega

theorem Reached.serves (reached : Reached order addr sock history before state)
    (delivered : Delivered state) :
    Settled state ∨ ∃ state', (Reached order addr sock history before state' ∧ Delivered state') ∧
      remaining state' < remaining state := by
  have moves (next : ∃ state', Reached order addr sock history before state' ∧
      state'.ftpcs = state.ftpcs ∧ state'.transport.client = state.transport.client ∧
        remaining state' < remaining state) :
      ∃ state', (Reached order addr sock history before state' ∧ Delivered state') ∧
        remaining state' < remaining state := by
    obtain ⟨state', reached, ftpcs, client, less⟩ := next
    refine ⟨state', ⟨reached, ?_, ?_⟩, less⟩
    · rw [ftpcs]
      exact delivered.silent
    · rw [client]
      exact delivered.empty
  cases waiting : state.ftps.waiting with
  | false => exact .inr (moves (reached.calls waiting))
  | true =>
    by_cases empty : state.inbox = []
    next =>
      have opened : Open state.ftps state.inbox := ⟨waiting, empty⟩
      obtain ⟨later, onward⟩ := reached
      have owed := onward.sound.owed
      cases at_ : state.ftps.point with
      | bind =>
        have answer := owed.binding at_ waiting
        rw [empty] at answer
        cases answer
      | accept =>
        by_cases queue : state.transport.server.waitingAcceptSocketsList = []
        next => exact .inl ⟨queue, at_, empty⟩
        next => exact .inr (moves (Reached.takes ⟨later, onward⟩ opened at_ queue))
      | fileSize client | fileName client | body client =>
        exact .inr (moves (Reached.answered ⟨later, onward⟩ delivered opened
          (show reads state.ftps.point = some client by rw [at_]; rfl)))
      | exited code => exact absurd at_ (owed.running code)
    next => exact .inr (moves (reached.hears waiting empty))

theorem Reached.binds (reached : Reached order addr sock history before state) :
    ∃ state', Reached order addr sock history before state' ∧
      state'.transport.server.bindedSockets ≠ [] := by
  by_cases none : state.transport.server.bindedSockets = []
  next =>
    obtain ⟨later, onward⟩ := reached
    obtain ⟨point, idle⟩ := onward.sound.owed.bound.mp none
    have taken : Receiver.step order.accepted state.transport.server
        (.bind state.ftps.addr state.ftps.sock true) =
        .ok ({ state.transport.server with
            bindedSockets := [{
              socketFD := state.ftps.sock
              accepting := false
              acceptingAddr := default }] }, [.bindReturn state.ftps.addr 0]) := by
      simp [Receiver.step, tcpdBind, none]
    have made : state.ftps.makes (.bind state.ftps.addr state.ftps.sock true) = true := by
      simp [Ftps.makes, idle, point]
    exact ⟨_, Reached.server ⟨later, onward⟩ (since_of_makes made) taken (called_of_makes made),
      List.cons_ne_nil _ _⟩
  next => exact ⟨state, reached, none⟩

theorem Reached.settles (reached : Reached order addr sock history before state) :
    ∃ last, Reached order addr sock history before last ∧ Delivered last ∧ Settled last := by
  obtain ⟨_, reached, bound⟩ := reached.binds
  obtain ⟨sent, reached, _, delivered⟩ := reached.all_sent bound
  obtain ⟨last, ⟨reached, delivered⟩, settled⟩ := Machine.exists_goal
    (fun state => Reached order addr sock history before state ∧ Delivered state) Settled remaining
    (fun _ found => found.1.serves found.2) ⟨reached, delivered⟩
  exact ⟨last, reached, delivered, settled⟩

theorem Sound.closed (sound : Sound order addr sock history state) (delivered : Delivered state)
    (settled : Settled state) (connected : (sockfd, session) ∈ connections history)
    (found : state.ftpcs.find sockfd = some ftpc) :
    .closed session.toInt32 ∈ ftpsEffects history := by
  obtain ⟨record, taken, _⟩ := sound.arrived delivered connected found
  have accepted : Accepted session state.transport.server := by
    simp only [Reception.view, Reception.lookup, settled.queue] at taken
    split at taken
    next record present => exact ⟨record, present⟩
    next => cases taken
  obtain ⟨_, ⟨_, answer⟩ | reading | finished⟩ := sound.owed.attended session accepted
  · rw [settled.empty] at answer
    cases answer
  · exact absurd settled.point (reads_elsewhere reading).2
  · exact finished

end Moves

section Complete

theorem Sound.named (sound : Sound order addr sock history state)
    (connected : (sockfd, session) ∈ connections history)
    (found : state.ftpcs.find sockfd = some ftpc)
    (closed : .closed session.toInt32 ∈ ftpsEffects history) :
    .opened session.toInt32 (UInt32.ofNat ftpc.file.length) ftpc.fileName ∈ ftpsEffects history := by
  have own : FtpsEffect.closed session.toInt32 ∈ forClient session.toInt32 (ftpsEffects history) :=
    List.mem_filter.mpr ⟨closed, beq_self_eq_true _⟩
  rcases phase_partly (sound.conversation connected found).phase with
    nothing | ⟨writes, _, ends, _, done, _⟩
  · rw [nothing] at own
    cases own
  · have first : .opened session.toInt32 (UInt32.ofNat ftpc.file.length) ftpc.fileName ∈
        forClient session.toInt32 (ftpsEffects history) := by
      rw [done]
      exact List.mem_append_left _ List.mem_cons_self
    exact (List.mem_filter.mp first).1

end Complete

end NetworkProj.Transfer
