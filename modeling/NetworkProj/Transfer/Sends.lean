import NetworkProj.Transfer.Onward
import NetworkProj.Transport.Recovery

set_option autoImplicit false

namespace NetworkProj.Transfer

variable {order : TcpdOrder} {addr : SockAddr} {sock : Int32} {before state state' : Transfer}
  {history : Machine.History TransferEvent TransferEffect}

section Records

theorem insert_present {sockets : Table Int32 ConnectedSocket} {other sockfd : Int32}
    {session : UInt32} {old new kept : ConnectedSocket} (found : sockets.find other = some old)
    (kind : new.session = old.session) (present : sockets.find sockfd = some kept)
    (own : kept.session = session) :
    ∃ record, (sockets.insert other new).find sockfd = some record ∧ record.session = session := by
  rw [Table.find_insert_eq]
  split
  next same =>
    rw [same, found] at present
    rw [Option.some.inj present] at kind
    exact ⟨new, rfl, kind.trans own⟩
  · exact ⟨kept, present, own⟩

theorem run_present {order : IterOrder Int32} {calls : Machine.History SenderEvent SenderEffect}
    {sender : Sender} (run : Machine.Run (Sender.step order) .initial calls sender)
    (once : (Sending.connected (Machine.events calls)).Nodup) {sockfd : Int32} {session : UInt32}
    (connected : (sockfd, session) ∈ Sending.opened (Machine.events calls)) :
    ∃ record, sender.connectedSockets.find sockfd = some record ∧ record.session = session := by
  induction run with
  | start => cases connected
  | @next calls sender event sender' emitted ran taken ih =>
    rw [Machine.events_append, Sending.connected_append] at once
    rw [Machine.events_append, Sending.opened_append, List.mem_append] at connected
    have apart := (List.nodup_append.mp once).2.2
    rcases connected with old | new
    · obtain ⟨kept, present, same⟩ := ih once.of_append_left old
      have known : sockfd ∈ Sending.connected (Machine.events calls) := by
        rw [← Sending.opened_sockets]
        exact List.mem_map_of_mem old
      cases Sending.step_move taken with
      | connect front other addr rand =>
        have different := apart sockfd known other (List.mem_singleton_self other)
        exact ⟨kept, (Table.find_insert_of_ne _ _ _ _ different).trans present, same⟩
      | send _ _ _ _ _ _ _ _ _ found | acked _ _ _ _ _ _ _ _ _ found
      | expire _ _ _ _ _ _ found =>
        exact insert_present found rfl present same
      | garbled | unmatched | stale => exact ⟨kept, present, same⟩
      | solve clock sender' effects solved =>
        exact ⟨Sending.transmitted kept, by rw [Sending.solveSend_find solved, present]; rfl, same⟩
    · cases Sending.step_move taken with
      | connect front other addr rand =>
        obtain ⟨rfl, rfl⟩ := Prod.mk.inj (List.mem_singleton.mp new)
        exact ⟨_, Table.find_insert _ _ _, rfl⟩
      | send | garbled | unmatched | acked | stale | expire | solve => cases new

theorem Sound.record (sound : Sound order addr sock history state) {sockfd : Int32}
    {session : UInt32} (connected : (sockfd, session) ∈ connections history) :
    ∃ record, state.transport.client.connectedSockets.find sockfd = some record ∧
      record.session = session :=
  run_present sound.client sound.served.once connected

end Records

section Programs

variable {ftpc : Ftpc} {sent : List (List UInt8)}

/-- The SENDs made and those to come are the plan, also when the program has ended. -/
structure Gapless (sent : List (List UInt8)) (ftpc : Ftpc) : Prop where
  whole : sent ++ todo ftpc = plan ftpc.fileName ftpc.file
  ended : ∀ code, ftpc.point = .exited code → code = 0

theorem gapless_loop {fileLeft : UInt64} {position : Nat}
    (whole : sent ++ chunks (ftpc.file.drop position) = plan ftpc.fileName ftpc.file)
    (left : fileLeft.toNat = (ftpc.file.drop position).length) :
    Gapless sent { ftpc with point := Ftpc.loop fileLeft position } := by
  by_cases done : fileLeft = 0
  · rw [done] at left
    rw [List.eq_nil_of_length_eq_zero left.symm, chunks_nil] at whole
    rw [Ftpc.loop, if_pos done]
    refine ⟨whole, ?_⟩
    intro code same
    cases same
    rfl
  · rw [Ftpc.loop, if_neg done]
    exact ⟨whole, by simp⟩

theorem gapless_connected (gapless : Gapless sent ftpc) (connecting : ftpc.point = .connect) :
    Gapless sent (ftpc.returned 0) := by
  have whole := gapless.whole
  rw [todo, connecting] at whole
  have returned : ftpc.returned 0 = { ftpc with point := .fileSize } := by
    simp [Ftpc.returned, connecting]
  rw [returned]
  exact ⟨whole, by simp⟩

theorem gapless_sent {block : List UInt8} {value : Int32} (small : ftpc.file.length < 2 ^ 64)
    (follows : Follows sent ftpc) (gapless : Gapless sent ftpc)
    (sending : ftpc.message = some block) (fine : ¬ value < 0) :
    Gapless (sent ++ [block]) (ftpc.returned value) := by
  have whole := gapless.whole
  rw [todo] at whole
  rw [Ftpc.message] at sending
  rw [Ftpc.returned, if_neg fine]
  cases at_ : ftpc.point with
  | connect | exited code => simp [at_] at sending
  | fileSize =>
    simp only [at_] at sending whole ⊢
    obtain rfl := Option.some.inj sending
    exact ⟨(List.append_assoc sent [sizeBytes ftpc.file] _).trans whole, by simp⟩
  | fileName =>
    simp only [at_] at sending whole ⊢
    obtain rfl := Option.some.inj sending
    refine gapless_loop ?_ (UInt64.toNat_ofNat_of_lt' small)
    exact (List.append_assoc sent [nameBytes ftpc.fileName] _).trans whole
  | body fileLeft position =>
    have followed := follows_sent small follows (by rw [Ftpc.message]; exact sending) value
    simp only [Ftpc.returned, fine, if_false, at_] at sending whole followed ⊢
    obtain ⟨left, positive⟩ := follows.left fileLeft position at_
    have some : ftpc.file.drop position ≠ [] := List.ne_nil_of_length_pos (left ▸ positive)
    rw [rVal_whole left] at sending followed ⊢
    by_cases done : fileLeft - UInt64.ofNat (ftpc.fread position).length = 0
    next =>
      -- The block is all that was left.
      have read : (ftpc.fread position).length = min bufLen fileLeft.toNat := by
        rw [Ftpc.fread, List.length_take, left]
      have fits : (ftpc.fread position).length < UInt64.size := by
        rw [read]
        exact (Nat.min_le_right _ _).trans_lt fileLeft.toNat_lt
      have few : UInt64.ofNat (ftpc.fread position).length ≤ fileLeft := by
        rw [UInt64.le_iff_toNat_le, UInt64.toNat_ofNat_of_lt' fits, read]
        exact Nat.min_le_right _ _
      have none := congrArg UInt64.toNat done
      rw [UInt64.toNat_sub_of_le _ _ few, UInt64.toNat_ofNat_of_lt' fits, read, left] at none
      have last : (ftpc.file.drop position).length ≤ bufLen := by
        change _ - _ = 0 at none
        omega
      rw [List.take_length] at sending
      obtain rfl := Option.some.inj sending
      rw [chunks_of_ne some, List.drop_of_length_le last, chunks_nil] at whole
      rw [Ftpc.loop, if_pos done]
      refine ⟨(List.append_nil _).trans whole, ?_⟩
      intro code same
      cases same
      rfl
    next =>
      rw [Ftpc.loop, if_neg done] at followed ⊢
      exact ⟨followed.next (by simp), by simp⟩

end Programs

section Plans

theorem sendReturn_fine {len : UInt64} (short : len.toNat ≤ bufLen) :
    ¬ len.toUInt32.toInt32 < 0 := by
  have small : len.toUInt32.toNat = len.toNat := by
    rw [UInt64.toNat_toUInt32]
    unfold bufLen at short
    omega
  have half : 2 * len.toUInt32.toBitVec.toNat < 2 ^ 32 := by
    change 2 * len.toUInt32.toNat < 2 ^ 32
    unfold bufLen at short
    omega
  rw [Int32.lt_iff_toInt_lt]
  change ¬ len.toUInt32.toBitVec.toInt < 0
  rw [BitVec.toInt_eq_toNat_of_lt half]
  omega

theorem called_gapless {order : IterOrder Int32} {sender sender' : Sender} {event : SenderEvent}
    {effects : List SenderEffect} {events : List SenderEvent} {ftpcs ftpcs' : Table Int32 Ftpc}
    (taken : Sender.step order sender event = .ok (sender', effects))
    (called : Transfer.called ftpcs effects event = some ftpcs') (served : Served events ftpcs)
    (gapless : ∀ sockfd ftpc, ftpcs.find sockfd = some ftpc → ftpc.file.length < 2 ^ 64 →
      Gapless (Sending.sends sockfd events) ftpc) (sockfd : Int32) (ftpc : Ftpc)
    (found : ftpcs'.find sockfd = some ftpc) (small : ftpc.file.length < 2 ^ 64) :
    Gapless (Sending.sends sockfd (events ++ [event])) ftpc := by
  rw [Sending.sends_append]
  cases event with
  | connect front other addr rand =>
    rw [show Sending.sends sockfd [.connect front other addr rand] = [] from rfl, List.append_nil]
    simp only [Transfer.called] at called
    split at called
    next old present =>
      split at called
      next connecting =>
        cases Sending.step_move taken with
        | connect =>
          cases called
          rcases Table.find_insert_some found with ⟨rfl, rfl⟩ | ⟨_, kept⟩
          · rw [(returned_names old 0).2] at small
            exact gapless_connected (gapless sockfd old present small) connecting
          · exact gapless sockfd ftpc kept small
      · cases called
    · cases called
  | send front other len buf malloc =>
    simp only [Transfer.called] at called
    split at called
    next old present =>
      split at called
      next data sending =>
        split at called
        next same =>
          cases Sending.step_move taken with
          | send _ _ _ _ _ _ _ _ short =>
            cases called
            rcases Table.find_insert_some found with ⟨rfl, rfl⟩ | ⟨different, kept⟩
            · rw [(returned_names old _).2] at small
              have own : Sending.sends sockfd [.send front sockfd len buf malloc] = [data] := by
                simp [Sending.sends, same.2]
              rw [own]
              exact gapless_sent small (served.follows sockfd old present small)
                (gapless sockfd old present small) sending (sendReturn_fine short)
            · have none : Sending.sends sockfd [.send front other len buf malloc] = [] := by
                simp [Sending.sends, Ne.symm different]
              rw [none, List.append_nil]
              exact gapless sockfd ftpc kept small
        · cases called
      · cases called
    · cases called
  | ack | expired | solveSend =>
    cases called
    exact (List.append_nil (Sending.sends sockfd events)).symm ▸ gapless sockfd ftpc found small

theorem run_gapless (run : Machine.Run (Transfer.step order) (.initial addr sock) history state) :
    ∀ sockfd ftpc, state.ftpcs.find sockfd = some ftpc → ftpc.file.length < 2 ^ 64 →
      Gapless (Sending.sends sockfd (Machine.events (clientCalls history))) ftpc := by
  induction run with
  | start => nofun
  | next event state' emitted ran taken ih =>
    rw [clientCalls_append, Machine.events_append]
    cases step_move taken with
    | start other fileName file fresh =>
      rw [show clientCalls [(.start other fileName file, [])] = [] from rfl, Machine.events_nil,
        List.append_nil]
      intro sockfd ftpc found small
      rcases Table.find_insert_some found with ⟨rfl, rfl⟩ | ⟨_, old⟩
      · rw [(run_served ran).unknown sockfd fresh]
        exact ⟨rfl, nofun⟩
      · exact ih sockfd ftpc old small
    | client event client effects ftpcs frames called stepped =>
      rw [clientCalls_client]
      exact called_gapless stepped called (run_served ran) ih
    | server event server effects ftps acks called stepped =>
      rw [clientCalls_server, Machine.events_nil, List.append_nil]
      exact ih
    | read datagram rest waiting arrived =>
      rw [show ∀ emitted, clientCalls [(.read, emitted)] = [] from fun _ => rfl, Machine.events_nil,
        List.append_nil]
      exact ih

end Plans

section Rounds

variable {sockfd : Int32} {record : ConnectedSocket} {now : TrollMessage}

theorem plan_low (fileName : List UInt8) {file : List UInt8} (size : file.length < 2 ^ 32) :
    (plan fileName file).length < Sending.farthest := by
  have count := (chunks_bounds file).2
  simp only [plan, List.length_cons]
  unfold bufLen at count
  unfold Sending.farthest maxBufferPackages
  omega

-- No file has so many blocks that the window would hold one of them back.
theorem Sound.low (sound : Sound order addr sock history state)
    (found : state.transport.client.connectedSockets.find sockfd = some record)
    (member : now ∈ Sending.unacked record) : now.seqNum.toNat < Sending.farthest := by
  obtain ⟨ftpc, present, _⟩ := sound.program (Sending.run_opened sound.client found)
  have size := (sound.fits sockfd ftpc present).size
  have within := (sound.served.follows sockfd ftpc present (size.trans (by decide))).within
  have genuine := (sound.books.booked sockfd record found).genuine now member
  exact (genuine.below.trans_le within.length_le).trans (plan_low ftpc.fileName size)

theorem Sound.counted (sound : Sound order addr sock history state) :
    state.transport.client.inBufferPackages = Sending.held state.transport.client :=
  Sending.run_counted sound.client sound.served.once

theorem Sound.expired (sound : Sound order addr sock history state)
    (found : state.transport.client.connectedSockets.find sockfd = some record)
    (flying : now ∈ record.packages) :
    ∃ front back, record.packages = front ++ now :: back ∧
      Sender.step order.connected state.transport.client
          (.expired ⟨now.session.toInt32, now.seqNum.toInt32⟩) =
        .ok ({ state.transport.client with
          connectedSockets := state.transport.client.connectedSockets.insert sockfd
            { record with
              packages := front ++ back
              pendingPackages := record.pendingPackages ++ [now] } }, []) := by
  have booked := sound.books.booked sockfd record found
  have unacked : now ∈ Sending.unacked record := List.mem_append_left _ flying
  have session := (booked.genuine now unacked).session
  simp only [Sender.step, recvTimer, UInt32.toUInt32_toInt32]
  cases named : findSession order.connected state.transport.client now.session with
  | none => exact absurd session.symm (Sending.findSession_none named found)
  | some entry =>
    obtain ⟨other, old⟩ := entry
    obtain ⟨present, own⟩ := Sending.findSession_some named
    obtain rfl := Sending.session_unique sound.client sound.distinct present found
      (own.trans session)
    obtain rfl := Option.some.inj (present.symm.trans found)
    rcases Sending.named_cases now.session now.seqNum old.packages with
      ⟨_, absent⟩ | ⟨front, message, back, split, first, erased, _, seqNum⟩
    · exact absurd ⟨rfl, rfl⟩ (absent now flying)
    · have held : message ∈ Sending.unacked old := List.mem_append_left _ (by simp [split])
      obtain rfl := List.inj_on_of_nodup_map booked.numbers held unacked seqNum
      refine ⟨front, back, split, ?_⟩
      simp only [first, erased]

theorem Reached.expires (reached : Reached order addr sock history before state)
    (bound : state.transport.server.bindedSockets ≠ [])
    (found : state.transport.client.connectedSockets.find sockfd = some record)
    (member : now ∈ Sending.unacked record)
    (oldest : ∀ other ∈ Sending.unacked record, now.seqNum ≤ other.seqNum) :
    ∃ state' record', Reached order addr sock history before state' ∧
      state'.transport.server.bindedSockets ≠ [] ∧ state'.ftpcs = state.ftpcs ∧
      state'.transport.client.inBufferPackages = state.transport.client.inBufferPackages ∧
      state'.transport.client.connectedSockets.find sockfd = some record' ∧
      now ∈ record'.pendingPackages ∧
      ∀ other ∈ Sending.unacked record', now.seqNum ≤ other.seqNum := by
  rcases List.mem_append.mp member with flying | pending
  · obtain ⟨later, onward⟩ := reached
    obtain ⟨front, back, split, taken⟩ := onward.sound.expired found flying
    have on := Reached.client ⟨later, onward⟩
      (show Uncalled (.client (.expired _)) from trivial)
      (show Since before state (.client (.expired _)) from trivial) taken rfl
    refine ⟨_, _, on, bound, rfl, rfl, Table.find_insert _ _ _, by simp, ?_⟩
    intro other kept
    exact oldest other ((Sending.unacked_expire split).mem_iff.mp kept)
  · exact ⟨state, record, reached, bound, rfl, rfl, found, pending, oldest⟩

theorem transmits_oldest (low : now.seqNum.toNat < Sending.farthest)
    (pending : now ∈ record.pendingPackages)
    (oldest : ∀ other ∈ Sending.unacked record, now.seqNum ≤ other.seqNum) :
    now ∈ Sending.transmits record := by
  refine Sending.mem_transmits.mpr ⟨pending, ?_⟩
  cases shape : record.packages with
  | nil =>
    rw [Sending.limitOf_idle shape]
    exact low
  | cons head rest =>
    obtain ⟨first, inside, least⟩ := Sending.exists_oldest (shape ▸ List.mem_cons_self)
    have earlier := oldest first (List.mem_append_left _ inside)
    rw [Sending.limitOf_busy ⟨inside, least⟩]
    rw [UInt32.le_iff_toNat_le] at earlier
    unfold maxBufferPackages
    omega

theorem Reached.resends (reached : Reached order addr sock history before state)
    (bound : state.transport.server.bindedSockets ≠ [])
    (found : state.transport.client.connectedSockets.find sockfd = some record)
    (sent : now ∈ Sending.transmits record) :
    ∃ state' record', Reached order addr sock history before state' ∧
      state'.transport.server.bindedSockets ≠ [] ∧ state'.ftpcs = state.ftpcs ∧
      state'.transport.client.inBufferPackages = state.transport.client.inBufferPackages ∧
      state'.transport.client.connectedSockets.find sockfd = some record' ∧
      now ∈ record'.packages ∧
      now ∈ state'.transport.frames.drop before.transport.frames.length := by
  obtain ⟨later, onward⟩ := reached
  obtain ⟨client, effects, ran⟩ := Sending.solveSend_total order.connected state.transport.client
    fun _ => default
  have on := Reached.client ⟨later, onward⟩
    (show Uncalled (.client (.solveSend fun _ => default)) from trivial)
    (show Since before state (.client (.solveSend fun _ => default)) from trivial) ran rfl
  have output := Sending.solveSend_data ran onward.sound.books.keyed sockfd
  rw [found, Option.map_some, Option.getD_some] at output
  rw [← output] at sent
  obtain ⟨effect, inside, own⟩ := List.mem_filterMap.mp sent
  have frame : now ∈ effects.filterMap SenderEffect.frame? := by
    refine List.mem_filterMap.mpr ⟨effect, inside, ?_⟩
    cases effect with
    | data other message =>
      simp only [Sending.dataOn] at own
      split at own
      · exact own
      · cases own
    | connectReturn | sendReturn | timer | free => cases own
  refine ⟨_, Sending.transmitted record, on, bound, rfl, Sending.solveSend_inBufferPackages ran,
    ?_, List.mem_append_right _ (output ▸ sent), ?_⟩
  · dsimp only
    rw [Sending.solveSend_find ran, found, Option.map_some]
  · dsimp only
    rw [List.drop_append_of_le_length onward.longer.1]
    exact List.mem_append_right _ frame

theorem Reached.delivers (reached : Reached order addr sock history before state)
    (bound : state.transport.server.bindedSockets ≠ [])
    (frame : now ∈ state.transport.frames.drop before.transport.frames.length)
    (intact : now.Intact) :
    ∃ state', Reached order addr sock history before state' ∧
      state'.transport.server.bindedSockets ≠ [] ∧ state'.ftpcs = state.ftpcs ∧
      state'.transport.client = state.transport.client ∧
      ackOf now default ∈ state'.transport.acks.drop before.transport.acks.length := by
  obtain ⟨tmp, rest, shape⟩ := List.exists_cons_of_ne_nil bound
  obtain ⟨later, onward⟩ := reached
  have taken := @Reception.step_data order.accepted state.transport.server tmp.socketFD now
    (by simp [shape]) intact default default
  have on := Reached.server ⟨later, onward⟩
    (show Since before state (.server (.data tmp.socketFD now default default)) from
      fun _ => ⟨now, frame, rfl⟩) taken rfl
  refine ⟨_, on, ?_, rfl, rfl, ?_⟩
  · change (storeData state.transport.server tmp.socketFD now default).bindedSockets ≠ []
    rwa [Reception.storeData_sockets]
  · dsimp only
    rw [List.drop_append_of_le_length onward.longer.2]
    exact List.mem_append_right _ (List.mem_singleton_self _)

theorem Reached.acks (reached : Reached order addr sock history before state)
    (bound : state.transport.server.bindedSockets ≠ [])
    (found : state.transport.client.connectedSockets.find sockfd = some record)
    (flying : now ∈ record.packages)
    (arrives : ackOf now default ∈ state.transport.acks.drop before.transport.acks.length) :
    ∃ state', Reached order addr sock history before state' ∧
      state'.transport.server.bindedSockets ≠ [] ∧ state'.ftpcs = state.ftpcs ∧
      state'.transport.client.inBufferPackages = state.transport.client.inBufferPackages - 1 := by
  obtain ⟨client, emitted, packages, taken, _, _, fewer⟩ :=
    @Network.acked_once order.connected _ sockfd record found now flying (ackOf now default)
      (TrollAck.sealed_intact _) rfl rfl
  have on := reached.client (show Uncalled (.client (.ack sockfd _ default)) from trivial)
    (show Since before state (.client (.ack sockfd (ackOf now default) default)) from
      fun _ => ⟨_, arrives, rfl, rfl⟩) taken rfl
  exact ⟨_, on, bound, rfl, fewer⟩

/-- One package goes through, the oldest of its connection. -/
theorem Reached.round (reached : Reached order addr sock history before state)
    (bound : state.transport.server.bindedSockets ≠ [])
    (left : Sending.held state.transport.client ≠ 0) :
    ∃ state', Reached order addr sock history before state' ∧
      state'.transport.server.bindedSockets ≠ [] ∧ state'.ftpcs = state.ftpcs ∧
      Sending.held state'.transport.client + 1 = Sending.held state.transport.client := by
  obtain ⟨sockfd, record, found, some, member⟩ : ∃ sockfd record,
      state.transport.client.connectedSockets.find sockfd = some record ∧
        ∃ some, some ∈ Sending.unacked record := by
    by_contra none
    push Not at none
    apply left
    apply Network.held_none
    intro sockfd record found
    exact List.append_eq_nil_iff.mp (List.eq_nil_iff_forall_not_mem.mpr (none sockfd record found))
  obtain ⟨now, inside, oldest⟩ := Sending.exists_oldest member
  have counted : ∀ state, Reached order addr sock history before state →
      state.transport.client.inBufferPackages = Sending.held state.transport.client := by
    rintro state ⟨later, onward⟩
    exact onward.sound.counted
  obtain ⟨back, record, toBack, bound, ftpcs, same, found, pending, oldest⟩ :=
    reached.expires bound found inside oldest
  have unacked : now ∈ Sending.unacked record := List.mem_append_right _ pending
  obtain ⟨low, intact⟩ : now.seqNum.toNat < Sending.farthest ∧ now.Intact := by
    obtain ⟨later, onward⟩ := toBack
    exact ⟨onward.sound.low found unacked,
      ((onward.sound.books.booked sockfd record found).genuine now unacked).intact⟩
  obtain ⟨out, record, toOut, bound, ftpcs, same, found, flying, frame⟩ :=
    ftpcs ▸ same ▸ toBack.resends bound found (transmits_oldest low pending oldest)
  obtain ⟨stored, toStored, bound, ftpcs, client, arrives⟩ :=
    ftpcs ▸ toOut.delivers bound frame intact
  rw [← client] at found
  obtain ⟨last, toLast, bound, ftpcs, fewer⟩ := ftpcs ▸ toStored.acks bound found flying arrives
  refine ⟨last, toLast, bound, ftpcs, ?_⟩
  rw [client, same, counted state reached, counted last toLast] at fewer
  omega

end Rounds

section Finish

def unsent (ftpc : Ftpc) : Nat :=
  match ftpc.point with
  | .connect => 0
  | .fileSize | .fileName | .body .. | .exited _ => (todo ftpc).length

structure Delivered (state : Transfer) : Prop where
  silent : state.ftpcs.total unsent = 0
  empty : Sending.held state.transport.client = 0

theorem message_some {ftpc : Ftpc} {sent : List (List UInt8)} (follows : Follows sent ftpc)
    (left : unsent ftpc ≠ 0) :
    ∃ block, ftpc.message = some block ∧ block ∈ todo ftpc ∧ ftpc.point ≠ .connect := by
  unfold unsent at left
  unfold Ftpc.message todo
  cases at_ : ftpc.point with
  | connect => simp [at_] at left
  | exited code => simp [at_, todo] at left
  | fileSize => exact ⟨_, rfl, List.mem_cons_self, by simp⟩
  | fileName => exact ⟨_, rfl, List.mem_cons_self, by simp⟩
  | body fileLeft position =>
    obtain ⟨whole, positive⟩ := follows.left fileLeft position at_
    have some : ftpc.file.drop position ≠ [] := List.ne_nil_of_length_pos (whole ▸ positive)
    refine ⟨_, rfl, ?_, by simp⟩
    dsimp only
    rw [chunks_of_ne some, rVal_whole whole, List.take_length]
    exact List.mem_cons_self

theorem unsent_todo {ftpc : Ftpc} (connected : ftpc.point ≠ .connect) :
    unsent ftpc = (todo ftpc).length := by
  unfold unsent
  split
  next connecting => exact absurd connecting connected
  all_goals rfl

theorem run_connected
    (run : Machine.Run (Transfer.step order) (.initial addr sock) history state) {sockfd : Int32}
    {ftpc : Ftpc} (found : state.ftpcs.find sockfd = some ftpc) (past : ftpc.point ≠ .connect) :
    ∃ session, (sockfd, session) ∈ connections history := by
  induction run generalizing ftpc with
  | start => cases found
  | next event state' emitted ran taken ih =>
    rw [connections_append]
    have earlier {old : Ftpc} (present : _) (past : old.point ≠ .connect) :=
      (@ih old present past).imp fun _ => List.mem_append_left (connections [(event, emitted)])
    cases step_move taken with
    | start other fileName file =>
      rcases Table.find_insert_some found with ⟨rfl, rfl⟩ | ⟨_, old⟩
      · exact absurd rfl past
      · exact earlier old past
    | client event client effects ftpcs frames called stepped =>
      cases called_move stepped called with
      | connect front other addr rand old value =>
        rcases Table.find_insert_some found with ⟨rfl, rfl⟩ | ⟨_, kept⟩
        · refine ⟨rand, List.mem_append_right _ ?_⟩
          rw [connections, clientCalls_client]
          exact List.mem_singleton_self _
        · exact earlier kept past
      | send front other len buf malloc old value present sending =>
        rcases Table.find_insert_some found with ⟨rfl, rfl⟩ | ⟨_, kept⟩
        · refine earlier present fun connecting => ?_
          rw [Ftpc.message, connecting] at sending
          cases sending
        · exact earlier kept past
      | idle => exact earlier found past
    | server | read => exact earlier found past

theorem unsent_sent {ftpc : Ftpc} {sent : List (List UInt8)} {block : List UInt8} {value : Int32}
    (small : ftpc.file.length < 2 ^ 64) (follows : Follows sent ftpc) (gapless : Gapless sent ftpc)
    (sending : ftpc.message = some block) (past : ftpc.point ≠ .connect) (fine : ¬ value < 0) :
    unsent (ftpc.returned value) + 1 = unsent ftpc := by
  have next := (gapless_sent small follows gapless sending fine).whole
  rw [(returned_names ftpc value).1, (returned_names ftpc value).2, ← gapless.whole] at next
  have count := congrArg List.length next
  rw [unsent_todo (returned_point ftpc value), unsent_todo past]
  simp only [List.length_append, List.length_singleton] at count
  omega

theorem length_block {block : List UInt8} (short : block.length ≤ bufLen) :
    (UInt64.ofNat block.length).toNat = block.length := by
  apply UInt64.toNat_ofNat_of_lt'
  unfold bufLen at short
  unfold UInt64.size
  omega

theorem step_send {order : IterOrder Int32} {sender : Sender} {sockfd : Int32}
    {record : ConnectedSocket} {block : List UInt8} (ready : sender.Ready)
    (found : sender.connectedSockets.find sockfd = some record) (short : block.length ≤ bufLen) :
    ∃ sender', Sender.step order sender
        (.send default sockfd (UInt64.ofNat block.length) (.pad bufLen block) default) =
      .ok (sender', [.sendReturn default (UInt64.ofNat block.length)]) := by
  obtain ⟨body, copied⟩ := Block.bcopy_inside (Block.pad bufLen block)
    (default : TrollMessage).body 0 0 block.length (by omega) (by omega)
  have fits : ¬ bufLen < (UInt64.ofNat block.length).toNat := by
    rw [length_block short]
    omega
  rw [Sender.step, if_pos ready, tcpdSend, if_neg fits]
  simp only [found, length_block short, copied]
  exact ⟨_, rfl⟩

/-- With nothing unacked the daemon takes a SEND from a program that has more to say. -/
theorem Reached.sends (reached : Reached order addr sock history before state)
    (empty : Sending.held state.transport.client = 0) (left : state.ftpcs.total unsent ≠ 0) :
    ∃ state', Reached order addr sock history before state' ∧
      state'.transport.server = state.transport.server ∧
      state'.ftpcs.total unsent < state.ftpcs.total unsent ∧
      Sending.held state'.transport.client ≤ 1 := by
  obtain ⟨sockfd, ftpc, found, more⟩ : ∃ sockfd ftpc,
      state.ftpcs.find sockfd = some ftpc ∧ unsent ftpc ≠ 0 := by
    by_contra none
    push Not at none
    exact left (Table.total_eq_zero unsent none)
  obtain ⟨later, onward⟩ := reached
  have sound := onward.sound
  have small := (sound.fits sockfd ftpc found).size.trans (show 2 ^ 32 < 2 ^ 64 by decide)
  have follows := sound.served.follows sockfd ftpc found small
  have gapless := run_gapless sound.run sockfd ftpc found small
  obtain ⟨block, sending, inside, past⟩ := message_some follows more
  obtain ⟨session, connected⟩ := run_connected sound.run found past
  obtain ⟨record, present, _⟩ := sound.record connected
  have short : block.length ≤ bufLen := by
    refine (plan_blocks ftpc.fileName ftpc.file block ?_).2
    rw [← gapless.whole]
    exact List.mem_append_right _ inside
  have ready : state.transport.client.Ready := by
    unfold Sender.Ready
    rw [sound.counted, empty]
    decide
  obtain ⟨client, taken⟩ := @step_send order.connected _ sockfd record block ready present short
  have called : Transfer.called state.ftpcs [.sendReturn default (UInt64.ofNat block.length)]
      (.send default sockfd (UInt64.ofNat block.length) (.pad bufLen block) default) =
      some (state.ftpcs.insert sockfd
        (ftpc.returned (UInt64.ofNat block.length).toUInt32.toInt32)) := by
    have bytes : (Block.pad bufLen block).take block.length = block := Block.pad_take short
    simp only [Transfer.called, found, sending, length_block short, bytes, and_self, if_true]
    rfl
  have on := Reached.client ⟨later, onward⟩ (show Uncalled (.client (.send ..)) from trivial)
    (show Since before state (.client (.send ..)) from trivial) taken called
  refine ⟨_, on, rfl, ?_, ?_⟩
  · have fewer := unsent_sent small follows gapless sending past
      (sendReturn_fine (show (UInt64.ofNat block.length).toNat ≤ bufLen by
        rwa [length_block short]))
    have total := Table.total_insert_old unsent state.ftpcs sockfd ftpc
      (ftpc.returned (UInt64.ofNat block.length).toUInt32.toInt32) found
    dsimp only
    omega
  · obtain ⟨_, onward'⟩ := on
    have counted : client.inBufferPackages = Sending.held client := onward'.sound.counted
    have one : client.inBufferPackages = 1 := by
      cases Sending.step_move taken with
      | send =>
        dsimp only
        rw [sound.counted, empty]
        rfl
    change Sending.held client ≤ 1
    omega

theorem Reached.all_sent (reached : Reached order addr sock history before state)
    (bound : state.transport.server.bindedSockets ≠ []) :
    ∃ state', Reached order addr sock history before state' ∧
      state'.transport.server.bindedSockets ≠ [] ∧ Delivered state' := by
  obtain ⟨last, ⟨reached, bound⟩, delivered⟩ := Machine.exists_goal
    (fun state => Reached order addr sock history before state ∧
      state.transport.server.bindedSockets ≠ [])
    Delivered
    (fun state => 2 * state.ftpcs.total unsent + Sending.held state.transport.client)
    (fun state ⟨reached, bound⟩ => by
      by_cases empty : Sending.held state.transport.client = 0
      next =>
        by_cases silent : state.ftpcs.total unsent = 0
        next => exact .inl ⟨silent, empty⟩
        next =>
          obtain ⟨next, reached, same, fewer, one⟩ := reached.sends empty silent
          exact .inr ⟨next, ⟨reached, same ▸ bound⟩, by omega⟩
      next =>
        obtain ⟨next, reached, bound, same, fewer⟩ := reached.round bound empty
        refine .inr ⟨next, ⟨reached, bound⟩, ?_⟩
        rw [same]
        omega) ⟨reached, bound⟩
  exact ⟨last, reached, bound, delivered⟩

end Finish

end NetworkProj.Transfer
