import Mathlib.Data.List.Infix
import NetworkProj.Receiver.Reordering

set_option autoImplicit false

namespace NetworkProj.Reception

section Payloads

/-- Each message carries the payload of its number. -/
def Carries (payloads : List (List UInt8)) (messages : List TrollMessage) : Prop :=
  ∀ now ∈ messages, payloads[now.seqNum.toNat]? = some now.payload ∧ now.len.toNat ≤ bufLen

variable {payloads : List (List UInt8)}

theorem Carries.subset {messages other : List TrollMessage} (carries : Carries payloads messages)
    (inside : ∀ now ∈ other, now ∈ messages) : Carries payloads other :=
  fun now member => carries now (inside now member)

theorem inOrder_payloads (few : payloads.length < 2 ^ 32) {base : UInt32}
    {taken : List TrollMessage} (order : InOrder base taken) (carries : Carries payloads taken)
    (start : base.toNat ≤ payloads.length) (count : Nat) (within : count ≤ taken.length) :
    base.toNat + count ≤ payloads.length ∧
      payloads.take (base.toNat + count) =
        payloads.take base.toNat ++ (taken.take count).map TrollMessage.payload := by
  induction count with
  | zero => exact ⟨start, by simp⟩
  | succ count ih =>
    obtain ⟨below, same⟩ := ih (by omega)
    have bound : count < taken.length := by omega
    have named : taken[count].seqNum = base + UInt32.ofNat count := by
      have number := congrArg (fun numbers => numbers[count]?) order
      simpa [consecutive, bound] using number
    have number : (base + UInt32.ofNat count).toNat = base.toNat + count := toNat_offset (by omega)
    have carried := (carries taken[count] (List.getElem_mem bound)).1
    rw [named, number] at carried
    obtain ⟨inside, payload⟩ := List.getElem?_eq_some_iff.mp carried
    refine ⟨by omega, ?_⟩
    rw [← Nat.add_assoc, List.take_add_one, carried, same, List.take_add_one,
      List.getElem?_eq_getElem bound]
    simp only [Option.toList_some, List.append_assoc, List.map_append, List.map_cons, List.map_nil]

end Payloads

section Streams

def requests (effects : List SessionEffect) : List Nat :=
  effects.filterMap fun
    | .requested len => some len.toNat
    | _ => none

def blocks (effects : List SessionEffect) : List (List UInt8) :=
  effects.filterMap fun
    | .block _ data => some data
    | _ => none

@[simp] theorem requests_append (left right : List SessionEffect) :
    requests (left ++ right) = requests left ++ requests right :=
  List.filterMap_append

@[simp] theorem blocks_append (left right : List SessionEffect) :
    blocks (left ++ right) = blocks left ++ blocks right :=
  List.filterMap_append

theorem blocks_effects (session : UInt32) (effects : List ReceiverEffect) :
    blocks (effects.filterMap (sessionEffect session)) = effects.filterMap (blockOf session) := by
  simp only [blocks, List.filterMap_filterMap]
  congr 1
  funext effect
  cases effect with
  | free other message => by_cases own : other = session <;> simp [sessionEffect, blockOf, own]
  | recvReturn other addr data =>
    by_cases own : other = session <;> simp [sessionEffect, blockOf, own]
  | bindReturn | acceptReturn | acceptError | recvError | ack => rfl

theorem requests_effects (session : UInt32) (effects : List ReceiverEffect) :
    requests (effects.filterMap (sessionEffect session)) = [] := by
  simp only [requests, List.filterMap_filterMap, List.filterMap_eq_nil_iff]
  intro effect _
  cases effect with
  | free other message => by_cases own : other = session <;> simp [sessionEffect, own]
  | recvReturn other addr data => by_cases own : other = session <;> simp [sessionEffect, own]
  | bindReturn | acceptReturn | acceptError | recvError | ack => rfl

def pending (sock : AcceptedSocket) : List Nat :=
  if sock.receivingLength = 0 then [] else [sock.receivingLength.toNat]

/-- The blocks sent and the bytes gathered are the payloads below `Base`, and every accepted
request but the pending one has got its block. -/
structure Streams (payloads : List (List UInt8)) (effects : List SessionEffect)
    (sock : AcceptedSocket) : Prop where
  base : sock.base.toNat ≤ payloads.length
  stored : Carries payloads sock.packages
  size : sock.recvBufferSize ≤ sock.receivingLength
  delivered : (blocks effects).flatten ++ buffered sock =
    (payloads.take sock.base.toNat).flatten
  answered : requests effects = (blocks effects).map List.length ++ pending sock

structure Streaming (payloads : List (List UInt8)) (effects : List SessionEffect)
    (current : SessionView) : Prop where
  absent : current.sock? = none → blocks effects = [] ∧ requests effects = []
  streams : ∀ sock, current.sock? = some sock → Streams payloads effects sock

/-- No package in order goes beyond the end of the pending request. -/
def Unsplit (session : UInt32) (state : Receiver) : Prop :=
  ∀ sock, view session state = .accepted sock → sock.receivingLength ≠ 0 →
    ¬ Straddles sock.base (missing sock) sock.packages

variable {payloads : List (List UInt8)} {effects : List SessionEffect}

theorem streams_stored {sock : AcceptedSocket} (streams : Streams payloads effects sock)
    {now : TrollMessage} (carries : Carries payloads [now]) :
    Streams payloads effects (storePackage sock now) := by
  obtain ⟨packages, stored, members⟩ := storePackage_eq sock now
  rw [stored]
  constructor
  · exact streams.base
  · intro tmp member
    rcases members tmp member with same | old
    · exact carries tmp (by simp [same])
    · exact streams.stored tmp old
  · exact streams.size
  · exact streams.delivered
  · exact streams.answered

theorem streaming_arrived {current : SessionView} (streaming : Streaming payloads effects current)
    (session : UInt32) (sockfd : Int32) {now : TrollMessage} (malloc : AcceptedSocket)
    (carries : Carries payloads [now]) :
    Streaming payloads effects (arrived current session sockfd now malloc) := by
  have stored (old : AcceptedSocket) (streams : Streams payloads effects old) (sock : AcceptedSocket)
      (same : some (storePackage old now) = some sock) : Streams payloads effects sock := by
    cases same
    exact streams_stored streams carries
  cases current with
  | absent =>
    obtain ⟨noBlocks, noRequests⟩ := streaming.absent rfl
    refine ⟨by simp [arrived, SessionView.sock?], stored _ ?_⟩
    constructor
    · exact Nat.zero_le _
    · intro tmp member
      cases member
    · exact UInt64.le_refl 0
    · simp [noBlocks, buffered, newSocket]
    · simp [noBlocks, noRequests, pending, newSocket]
  | waiting old | accepted old =>
    exact ⟨by simp [arrived, SessionView.sock?], stored old (streaming.streams old rfl)⟩

theorem streams_requested {sock : AcceptedSocket} (streams : Streams payloads effects sock)
    (front : SockAddr) {len : UInt64} (positive : len ≠ 0) (idle : sock.receivingLength = 0) :
    Streams payloads (effects ++ [.requested len])
      { sock with receivingLength := len, receivingAddr := front } := by
  have empty : sock.recvBufferSize = 0 := by
    have size := streams.size
    rw [idle, UInt64.le_iff_toNat_le] at size
    exact UInt64.toNat_inj.mp (Nat.le_zero.mp size)
  constructor
  · exact streams.base
  · exact streams.stored
  · rw [empty]
    exact UInt64.zero_le
  · simpa [blocks, buffered] using streams.delivered
  · have answered := streams.answered
    simp only [pending, idle, if_true, List.append_nil] at answered
    have request : requests [SessionEffect.requested len] = [len.toNat] := rfl
    have noBlock : blocks [SessionEffect.requested len] = [] := rfl
    rw [requests_append, blocks_append, answered, request, noBlock]
    simp [pending, positive]

theorem streams_solved (few : payloads.length < 2 ^ 32) {session : UInt32}
    {sock final : AcceptedSocket} {emitted : List ReceiverEffect}
    (streams : Streams payloads effects sock)
    (unsplit : sock.receivingLength ≠ 0 → ¬ Straddles sock.base (missing sock) sock.packages)
    (ran : solveRecvSocket session sock = .ok (final, emitted)) :
    Streams payloads (effects ++ emitted.filterMap (sessionEffect session)) final := by
  obtain ⟨taken, solved⟩ := solveRecvSocket_solved ran
  obtain ⟨taken', split, bytes⟩ := solveRecvSocket_appends streams.size
    (fun now member => (streams.stored now member).2) unsplit ran
  -- Both lemmas speak of the same packages.
  obtain rfl : taken = taken' := List.append_cancel_right (solved.packages.symm.trans split)
  have inside : ∀ now, now ∈ taken ∨ now ∈ final.packages → now ∈ sock.packages := by
    intro now member
    rw [solved.packages]
    exact List.mem_append.mpr member
  obtain ⟨bound, prefixes⟩ := inOrder_payloads few solved.order
    (streams.stored.subset fun now member => inside now (.inl member)) streams.base taken.length
    le_rfl
  have base := toNat_base solved (by omega)
  constructor
  · omega
  · exact streams.stored.subset fun now member => inside now (.inr member)
  · exact solved.size streams.size
  · rw [base, prefixes, List.take_length, List.flatten_append, ← streams.delivered, blocks_append,
      blocks_effects, List.flatten_append, List.append_assoc, List.append_assoc, bytes]
  · rw [requests_append, requests_effects, List.append_nil, blocks_append, List.map_append,
      streams.answered, blocks_effects, List.append_assoc]
    congr 1
    obtain ⟨freed, _, ⟨same, rfl⟩ | ⟨positive, zero, _, data, length, rfl⟩⟩ := solved.answer
    · simp [List.filterMap_map, Function.comp_def, blockOf, pending, same]
    · have nonzero : sock.receivingLength ≠ 0 := fun none => by
        rw [none] at positive
        exact UInt64.lt_irrefl 0 positive
      simp [List.filterMap_map, Function.comp_def, blockOf, pending, nonzero, zero, length]

theorem streaming_move (few : payloads.length < 2 ^ 32) {session : UInt32}
    {current next : SessionView} {event : SessionEvent} {emitted : List SessionEffect}
    (streaming : Streaming payloads effects current) (carries : Carries payloads (arrivals [event]))
    (unsplit : event = .solve → ∀ sock, current = .accepted sock → sock.receivingLength ≠ 0 →
      ¬ Straddles sock.base (missing sock) sock.packages)
    (move : SessionMove session current event next emitted) :
    Streaming payloads (effects ++ emitted) next := by
  cases move with
  | arrive sockfd message malloc =>
    rw [List.append_nil]
    exact streaming_arrived streaming session sockfd malloc carries
  | accept sock waiting =>
    subst waiting
    rw [List.append_nil]
    exact ⟨by simp [SessionView.sock?], fun _ same => streaming.streams _ same⟩
  | request sock front len accepted positive idle =>
    subst accepted
    refine ⟨by simp [SessionView.sock?], ?_⟩
    intro _ same
    cases same
    exact streams_requested (streaming.streams sock rfl) front positive idle
  | solve sock final emitted accepted ran =>
    subst accepted
    refine ⟨by simp [SessionView.sock?], ?_⟩
    intro _ same
    cases same
    exact streams_solved few (streaming.streams sock rfl) (unsplit rfl sock rfl) ran
  | idle event quiet =>
    rw [List.append_nil]
    exact streaming

theorem step_streaming {order : IterOrder UInt32} {state state' : Receiver} {event : ReceiverEvent}
    {emitted : List ReceiverEffect} {session : UInt32} (consistent : Consistent state)
    (taken : Receiver.step order state event = .ok (state', emitted))
    (few : payloads.length < 2 ^ 32) (carries : Carries payloads (received session [(event, emitted)]))
    (unsplit : event = .solveRecv → Unsplit session state)
    (streaming : Streaming payloads effects (view session state)) :
    Streaming payloads (effects ++ ownEffects session (event, emitted)) (view session state') := by
  rw [← received_own] at carries
  rcases step_session taken consistent session with
    ⟨_, same, silent⟩ | ⟨own, found, stepped⟩
  · rw [same, silent, List.append_nil]
    exact streaming
  · refine streaming_move few streaming ?_ ?_ (sessionStep_move stepped)
    · simpa [found] using carries
    · intro solve sock accepted
      subst solve
      have event : event = .solveRecv := by
        cases event <;> simp [ownEvent] at found ⊢
      exact unsplit event sock accepted

theorem run_streaming {order : IterOrder UInt32} {state : Receiver}
    {history : Machine.History ReceiverEvent ReceiverEffect} {session : UInt32}
    (run : Machine.Run (Receiver.step order) .initial history state)
    (few : payloads.length < 2 ^ 32) (carries : Carries payloads (received session history))
    (unsplit : Machine.Guarded (Receiver.step order) .initial
      (fun state event => event = .solveRecv → Unsplit session state) history) :
    Streaming payloads (history.flatMap (ownEffects session)) (view session state) := by
  induction run with
  | start => exact ⟨fun _ => ⟨rfl, rfl⟩, by simp [view, lookup, Receiver.initial, SessionView.sock?]⟩
  | next event state' emitted before taken ih =>
    rw [received_append] at carries
    have streaming := ih (carries.subset fun _ member => List.mem_append_left _ member)
      unsplit.before
    rw [List.flatMap_append, List.flatMap_singleton]
    exact step_streaming (run_consistent before) taken few
      (carries.subset fun _ member => List.mem_append_right _ member) (unsplit.last before) streaming

def sent (session : UInt32) (history : Machine.History ReceiverEvent ReceiverEffect) :
    List (List UInt8) :=
  blocks (history.flatMap (ownEffects session))

def requested (session : UInt32) (history : Machine.History ReceiverEvent ReceiverEffect) :
    List Nat :=
  requests (history.flatMap (ownEffects session))

end Streams

section Delivery

-- The first branch of the copy loop alone delivers the stream; the second one loses bytes.
theorem stream_delivered {order : IterOrder UInt32} {state : Receiver}
    {history : Machine.History ReceiverEvent ReceiverEffect} {session : UInt32}
    {payloads : List (List UInt8)} (few : payloads.length < 2 ^ 32)
    (run : Machine.Run (Receiver.step order) .initial history state)
    (carries : Carries payloads (received session history))
    (unsplit : Machine.Guarded (Receiver.step order) .initial
      (fun state event => event = .solveRecv → Unsplit session state) history) :
    (sent session history).flatten <+: payloads.flatten ∧
      requested session history = (sent session history).map List.length ++
        ((view session state).sock?.map pending).getD [] := by
  have streaming := run_streaming run few carries unsplit
  cases record : (view session state).sock? with
  | none =>
    obtain ⟨noBlocks, noRequests⟩ := streaming.absent record
    simp [sent, requested, noBlocks, noRequests]
  | some sock =>
    have streams := streaming.streams sock record
    constructor
    · apply List.IsPrefix.trans (List.prefix_append _ (buffered sock))
      unfold sent
      rw [streams.delivered]
      exact List.IsPrefix.flatten (List.take_prefix _ _)
    · exact streams.answered

-- The frames come in the wrong order and repeatedly, and the second RECV waits for the third one.
theorem stream_delivered_reordered :
    ∃ history state, Machine.Run (Receiver.step (.insertion UInt32)) .initial history state ∧
      received 7 history = [frame 7 1 [5, 6, 7], frame 7 0 [1, 2, 3, 4], frame 7 1 [5, 6, 7],
        frame 7 0 [1, 2, 3, 4], frame 7 3 [10], frame 7 2 [8, 9]] ∧
      sent 7 history = [[1, 2, 3, 4, 5, 6, 7], [8, 9, 10]] ∧
      (sent 7 history).flatten <+: [[1, 2, 3, 4], [5, 6, 7], [8, 9], [10]].flatten ∧
      requested 7 history = (sent 7 history).map List.length ++
        ((view 7 state).sock?.map pending).getD [] := by
  have fresh : Machine.Run (Receiver.step (.insertion UInt32)) .initial [] .initial := .start
  have bound := fresh.next (.bind default 3 true) _ _ rfl
  have second := bound.next _ _ _ (step_data 3 rfl (frame_intact 7 1 [5, 6, 7]) default default)
  have first := second.next _ _ _
    (step_data 3 rfl (frame_intact 7 0 [1, 2, 3, 4]) default default)
  have again := first.next _ _ _ (step_data 3 rfl (frame_intact 7 1 [5, 6, 7]) default default)
  have accepting := again.next (.accept default 3) _ _ rfl
  have accepted := accepting.next .solveAccept _ _ rfl
  have requesting := accepted.next (.recv default 7 7) _ _ rfl
  have answered := requesting.next .solveRecv _ _ rfl
  have late := answered.next _ _ _
    (step_data 3 rfl (frame_intact 7 0 [1, 2, 3, 4]) default default)
  have fourth := late.next _ _ _ (step_data 3 rfl (frame_intact 7 3 [10]) default default)
  have waiting := fourth.next (.recv default 7 3) _ _ rfl
  have blocked := waiting.next .solveRecv _ _ rfl
  have third := blocked.next _ _ _ (step_data 3 rfl (frame_intact 7 2 [8, 9]) default default)
  have run := third.next .solveRecv _ _ rfl
  obtain ⟨history, state, run, frames, answers, unsplit⟩ : ∃ history state,
      Machine.Run (Receiver.step (.insertion UInt32)) .initial history state ∧
      received 7 history = [frame 7 1 [5, 6, 7], frame 7 0 [1, 2, 3, 4], frame 7 1 [5, 6, 7],
        frame 7 0 [1, 2, 3, 4], frame 7 3 [10], frame 7 2 [8, 9]] ∧
      sent 7 history = [[1, 2, 3, 4, 5, 6, 7], [8, 9, 10]] ∧
      Machine.Guarded (Receiver.step (.insertion UInt32)) .initial
        (fun state event => event = .solveRecv → Unsplit 7 state) history := by
    refine ⟨_, _, run, ?_, rfl, ?_⟩
    · simp only [received, List.nil_append, List.cons_append, Machine.events_cons,
        Machine.events_nil]
      simp [frame_intact]
    · refine .next ?_ third ?_
      · refine .next (.next ?_ waiting ?_) blocked (by rintro ⟨⟩)
        · refine .next (.next (.next (.next ?_ requesting ?_) answered (by rintro ⟨⟩)) late
            (by rintro ⟨⟩)) fourth (by rintro ⟨⟩)
          · refine .next (.next (.next ?_ again (by rintro ⟨⟩)) accepting (by rintro ⟨⟩)) accepted
              (by rintro ⟨⟩)
            refine .next (.next (.next ?_ bound (by rintro ⟨⟩)) second (by rintro ⟨⟩)) first
              (by rintro ⟨⟩)
            exact .next (.start _ _ _) fresh (by rintro ⟨⟩)
          · intro _ sock record
            cases record
            decide
        · intro _ sock record
          cases record
          decide
      · intro _ sock record
        cases record
        decide
  refine ⟨history, state, run, frames, answers, stream_delivered (by simp) run ?_ unsplit⟩
  rw [frames]
  simp [Carries]
  decide

-- A RECV of two bytes ends inside the frame, and its first two bytes are lost.
theorem stream_not_delivered_split :
    ∃ history state, Machine.Run (Receiver.step (.insertion UInt32)) .initial history state ∧
      Carries [[1, 2, 3, 4]] (received 7 history) ∧ requested 7 history = [2] ∧
      sent 7 history = [[3, 4]] ∧ ¬ (sent 7 history).flatten <+: [[1, 2, 3, 4]].flatten := by
  have run : Machine.Run (Receiver.step (.insertion UInt32)) .initial [] .initial := .start
  have run := run.next (.bind default 3 true) _ _ rfl
  have run := run.next _ _ _ (step_data 3 rfl (frame_intact 7 0 [1, 2, 3, 4]) default default)
  have run := run.next (.accept default 3) _ _ rfl
  have run := run.next .solveAccept _ _ rfl
  have run := run.next (.recv default 7 2) _ _ rfl
  have run := run.next .solveRecv _ _ rfl
  refine ⟨_, _, run, ?_, rfl, rfl, ?_⟩
  · simp [Carries, received, Machine.events, frame_intact]
    decide
  · change ¬ [[3, 4]].flatten <+: [[1, 2, 3, 4]].flatten
    decide

end Delivery

end NetworkProj.Reception
