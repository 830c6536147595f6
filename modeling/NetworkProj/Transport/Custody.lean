import NetworkProj.Transport.Delivery

set_option autoImplicit false

namespace NetworkProj.Transport

variable {order : TcpdOrder} {state : Transport}
  {history : Machine.History TransportEvent TransportEffect}

theorem payload_of_content {left right : TrollMessage} (same : left.content = right.content) :
    left.payload = right.payload := by
  have body : left.body = right.body := congrArg Content.body same
  have len : left.len = right.len := congrArg Content.len same
  rw [TrollMessage.payload, body, len, TrollMessage.payload]

variable (run : Machine.Run (Transport.step order) .initial history state)
  (once : (Sending.connected (Machine.events (clientCalls history))).Nodup)

include run once

-- A frame that the server took is one that the client made for a socket of its session.
theorem received_genuine {session : UInt32} {now : TrollMessage}
    (arrived : now ∈ Reception.received session (serverCalls history)) :
    ∃ sockfd sock, state.client.connectedSockets.find sockfd = some sock ∧ sock.session = session ∧
      now.seqNum < sock.base ∧ now.len.toNat ≤ bufLen ∧
      (Sending.sends sockfd (Machine.events (clientCalls history)))[now.seqNum.toNat]? =
        some now.payload := by
  have wired := run_wired run
  have books := Sending.run_books (run_client run) once
  obtain ⟨sent, inside, same⟩ := wired.arrived session now arrived
  obtain ⟨sockfd, output⟩ := wired.frames sent inside
  obtain ⟨sock, found, genuine⟩ := books.sent sockfd sent output
  have own : now.session = session := by
    obtain ⟨event, _, taken⟩ := List.mem_filterMap.mp arrived
    split at taken
    · split at taken
      next both =>
        cases taken
        exact both.2
      · cases taken
    · cases taken
  have seqNum : now.seqNum = sent.seqNum := congrArg Content.seqNum same
  have len : now.len = sent.len := congrArg Content.len same
  refine ⟨sockfd, sock, found, ?_, ?_, ?_, ?_⟩
  · rw [← own, ← genuine.session]
    exact (congrArg Content.session same).symm
  · rw [seqNum, UInt32.lt_iff_toNat_lt, ← (books.booked sockfd sock found).count]
    exact genuine.below
  · rw [len]
    exact genuine.fits
  · rw [seqNum, payload_of_content same]
    exact genuine.payload

-- The frames of a session are numbered far below the wrap of the numbers.
theorem consumed_few (session : UInt32) :
    (Reception.consumed session (serverCalls history)).length < 2 ^ 32 := by
  have bounded := Reception.run_reordered_bounded (run_server run) session
    (show Sending.farthest + maxBufferPackages < 2 ^ 32 by decide) (by
      intro now arrived
      obtain ⟨sockfd, sock, found, _, below, _⟩ := received_genuine run once arrived
      exact (UInt32.lt_iff_toNat_lt.mp below).trans_le
        (Sending.base_few (run_client run) once found))
  exact bounded.trans_lt (by decide)

theorem acked_kept
    (distinct : (Sending.sessions (Machine.events (clientCalls history))).Nodup)
    {sockfd : Int32} {sock : ConnectedSocket}
    (found : state.client.connectedSockets.find sockfd = some sock) {seqNum : UInt32}
    (below : seqNum < sock.base) :
    (∃ now ∈ sock.packages ++ sock.pendingPackages, now.seqNum = seqNum) ∨
      ∃ record, (Reception.view sock.session state.server).sock? = some record ∧
        ((∃ now ∈ record.packages, now.seqNum = seqNum ∧
            (Sending.sends sockfd (Machine.events (clientCalls history)))[seqNum.toNat]? =
              some now.payload) ∨
          seqNum < record.base) := by
  by_cases kept : ∃ now ∈ sock.packages ++ sock.pendingPackages, now.seqNum = seqNum
  · exact .inl kept
  · have missing (now : TrollMessage) (member : now ∈ Sending.unacked sock) :
        now.seqNum ≠ seqNum := fun same => kept ⟨now, member, same⟩
    have wired := run_wired run
    -- The client has a valid ack, so the server has sent one, so the server took the frame.
    obtain ⟨ack, valid, session, number⟩ :=
      ((Sending.run_books (run_client run) once).booked sockfd sock found).acked seqNum below missing
    obtain ⟨sent, inside, names⟩ := wired.acked sockfd ack valid
    obtain ⟨frame, arrived, same⟩ := wired.acks sent inside
    rw [← names.1, session] at arrived
    have numbered : frame.seqNum = seqNum := same.trans (names.2.symm.trans number)
    have reordered := Reception.run_reordered (run_server run) sock.session
      (consumed_few run once sock.session)
    cases taken : (Reception.view sock.session state.server).sock? with
    | none =>
      rw [(reordered.absent taken).1] at arrived
      cases arrived
    | some record =>
      have canonical := reordered.canonical record taken
      refine .inr ⟨record, rfl, ?_⟩
      by_cases consumed : seqNum < record.base
      · exact .inr consumed
      · obtain ⟨now, stored, equal⟩ := (canonical.stored seqNum).mpr
          ⟨UInt32.not_lt.mp consumed, frame, arrived, numbered⟩
        obtain ⟨other, sock', found', own, _, _, payload⟩ :=
          received_genuine run once (canonical.original now stored)
        obtain rfl := Sending.session_unique (run_client run) distinct found' found own
        rw [equal] at payload
        exact .inl ⟨now, stored, equal, payload⟩

omit run once

-- The package is acked and freed before the session is accepted.
theorem acked_kept_waiting :
    ∃ history state sock record,
      Machine.Run (Transport.step ⟨.insertion UInt32, .insertion Int32⟩) .initial history state ∧
      state.client.connectedSockets.find 5 = some sock ∧
      sock.packages ++ sock.pendingPackages = [] ∧ (0 : UInt32) < sock.base ∧
      (Reception.view 7 state.server).sock? = some record ∧
      ((∃ now ∈ record.packages, now.seqNum = 0) ∨ (0 : UInt32) < record.base) := by
  have run : Machine.Run (Transport.step ⟨.insertion UInt32, .insertion Int32⟩) .initial []
    .initial := .start
  have run := run.next _ _ _ (step_server (.bind default 3 true) trivial rfl)
  have run := run.next _ _ _ (step_client (.connect default 5 default 7) trivial rfl)
  have run := run.next _ _ _
    (step_client (.send default 5 4 (.pad bufLen [1, 2, 3, 4]) default) trivial rfl)
  have run := run.next _ _ _ (step_client (.solveSend fun _ => default) trivial rfl)
  have run := run.next _ _ _ (step_server (.data 3 _ default default)
    (fun _ => ⟨_, .head _, rfl⟩)
    (Reception.step_data 3 rfl (TrollMessage.sealed_intact _) default default))
  have run := run.next _ _ _ (step_client (.ack 5 _ default) (fun _ => ⟨_, .head _, rfl, rfl⟩)
    (Sending.step_ack 5 rfl (TrollAck.sealed_intact _) default))
  have once : [(5 : Int32)].Nodup := by decide
  have distinct : [(7 : UInt32)].Nodup := by decide
  rcases @acked_kept _ _ _ run once distinct 5 _ rfl 0 (by decide) with
    ⟨now, member, _⟩ | ⟨record, view, ⟨now, member, same, _⟩ | consumed⟩
  · cases member
  · exact ⟨_, _, _, record, run, rfl, rfl, by decide, view, .inl ⟨now, member, same⟩⟩
  · exact ⟨_, _, _, record, run, rfl, rfl, by decide, view, .inr consumed⟩

end NetworkProj.Transport
