import NetworkProj.Sender.Window

set_option autoImplicit false

namespace NetworkProj.Sending

section Ledger

def owned (state : Sender) : List TrollMessage :=
  state.connectedSockets.gather unacked

def accepts (state : Sender) : SenderEvent → List TrollMessage
  | .send _ sockfd len buf malloc =>
    match state.connectedSockets.find sockfd, buf.bcopy 0 malloc.body 0 len.toNat with
    | some sock, some body => [wrapPackage sock len body malloc]
    | _, _ => []
  | _ => []

def freed (effects : List SenderEffect) : List TrollMessage :=
  effects.filterMap fun
    | .free message => some message
    | _ => none

def overwrites (state : Sender) : SenderEvent → List TrollMessage
  | .connect _ sockfd _ _ => (state.connectedSockets.find sockfd).elim [] unacked
  | _ => []

variable {order : IterOrder Int32} {history : Machine.History SenderEvent SenderEffect}
  {state state' : Sender} {event : SenderEvent} {emitted : List SenderEffect}

def accepted (order : IterOrder Int32) (history : Machine.History SenderEvent SenderEffect) :
    List TrollMessage :=
  Machine.collect (Sender.step order) accepts .initial (Machine.events history)

def overwritten (order : IterOrder Int32) (history : Machine.History SenderEvent SenderEffect) :
    List TrollMessage :=
  Machine.collect (Sender.step order) overwrites .initial (Machine.events history)

@[simp] theorem unacked_new (sockfd : Int32) (addr : SockAddr) (rand : UInt32) :
    unacked (newSock sockfd addr rand) = [] := rfl

theorem owned_solve {clock : Nat → TimeVal}
    (ran : solveSendCallback order state clock = .ok (state', emitted)) :
    (owned state).Perm (owned state') := by
  simp only [owned, Table.gather, solveSend_keys ran]
  apply List.Perm.flatMap_left
  intro sockfd _
  rw [solveSend_find ran]
  cases state.connectedSockets.find sockfd with
  | none => exact .refl _
  | some sock => exact (unacked_transmitted sock).symm

theorem freed_solve {clock : Nat → TimeVal}
    (ran : solveSendCallback order state clock = .ok (state', emitted)) : freed emitted = [] := by
  apply List.filterMap_eq_nil_iff.mpr
  intro effect member
  obtain ⟨_, _, _, now, _, rfl | ⟨seconds, rfl⟩⟩ := solveSend_effect ran member <;> rfl

theorem step_ledger (move : SenderMove order state event state' emitted) :
    (owned state ++ accepts state event).Perm
      (owned state' ++ (freed emitted ++ overwrites state event)) := by
  cases move with
  | connect front sockfd addr rand ready =>
    cases found : state.connectedSockets.find sockfd with
    | none =>
      have added := state.connectedSockets.gather_insert_new unacked sockfd
        (newSock sockfd addr rand) found
      rw [unacked_new, List.append_nil] at added
      simp [owned, accepts, freed, overwrites, tcpdConnect, found, added]
    | some sock =>
      -- The packages of the replaced record are in no list any more.
      have moved := state.connectedSockets.gather_insert_old unacked sockfd sock
        (newSock sockfd addr rand) found
      simpa [owned, accepts, freed, overwrites, tcpdConnect, found] using moved
  | send front sockfd len buf malloc sock body ready short found copied =>
    simp only [owned, accepts, found, copied]
    apply state.connectedSockets.gather_insert unacked sockfd found
    simp [freed, overwrites, unacked]
  | garbled | unmatched | stale => simp [owned, accepts, freed, overwrites]
  | acked sockfd ack now estimator sock before message after intact found split session seqNum =>
    simp only [owned]
    apply state.connectedSockets.gather_insert unacked sockfd found
    -- The package leaves the record and is freed.
    have taken : (before ++ message :: after ++ sock.pendingPackages).Perm
        (message :: (before ++ after ++ sock.pendingPackages)) := by
      simp
    simpa [accepts, freed, overwrites, unacked, split] using
      taken.trans (List.perm_append_singleton message _).symm
  | expire expired sockfd sock before message after found session split own seqNum =>
    simp only [owned]
    apply state.connectedSockets.gather_insert unacked sockfd found
    simpa [accepts, freed, overwrites, unacked] using (unacked_expire split).symm
  | solve clock state' effects ran =>
    simpa [accepts, freed_solve ran, overwrites] using owned_solve ran

@[simp] theorem freed_append (left right : List SenderEffect) :
    freed (left ++ right) = freed left ++ freed right :=
  List.filterMap_append

theorem run_ledger (run : Machine.Run (Sender.step order) .initial history state) :
    (accepted order history).Perm
      (owned state ++ (freed (Machine.outputs history) ++ overwritten order history)) := by
  induction run with
  | start => exact .refl _
  | @next history previous event state' emitted before taken ih =>
    have step := step_ledger (step_move taken)
    simp only [accepted, overwritten] at ih ⊢
    rw [before.collect accepts, before.collect overwrites, Machine.outputs_append, freed_append]
    classical
    rw [List.perm_iff_count] at ih step ⊢
    intro message
    have earlier := ih message
    have last := step message
    simp only [Machine.outputs_cons, Machine.outputs_nil, List.append_nil, List.count_append]
      at earlier last ⊢
    omega

theorem step_counter (move : SenderMove order state event state' emitted) :
    state'.inBufferPackages =
      state.inBufferPackages + (accepts state event).length - (freed emitted).length := by
  cases move with
  | connect | garbled | unmatched | stale | expire => simp [accepts, freed, tcpdConnect]
  | send front sockfd len buf malloc sock body ready short found copied =>
    simp [accepts, freed, found, copied]
  | acked => simp [accepts, freed]
  | solve clock state' effects ran =>
    simp [accepts, freed_solve ran, solveSend_inBufferPackages ran]

theorem run_overwritten (run : Machine.Run (Sender.step order) .initial history state) :
    state.inBufferPackages = (owned state).length + (overwritten order history).length := by
  induction run with
  | start => rfl
  | @next history previous event state' emitted before taken ih =>
    have counter := step_counter (step_move taken)
    have ledger := (step_ledger (step_move taken)).length_eq
    simp only [List.length_append] at ledger
    rw [overwritten, before.collect overwrites, List.length_append]
    rw [overwritten] at ih
    dsimp only
    omega

theorem run_freed (run : Machine.Run (Sender.step order) .initial history state)
    {message : TrollMessage} (member : message ∈ freed (Machine.outputs history)) :
    ∃ sockfd ack now, SenderEvent.ack sockfd ack now ∈ Machine.events history ∧ ack.Intact ∧
      ack.session = message.session ∧ ack.seqNum = message.seqNum := by
  induction run with
  | start => cases member
  | @next history previous event state' emitted before taken ih =>
    rw [Machine.outputs_append, freed_append, List.mem_append] at member
    rw [Machine.events_append]
    rcases member with earlier | last
    · obtain ⟨sockfd, ack, now, received, named⟩ := ih earlier
      exact ⟨sockfd, ack, now, List.mem_append_left _ received, named⟩
    · rw [Machine.outputs_cons, Machine.outputs_nil, List.append_nil] at last
      cases step_move taken with
      | acked sockfd ack now estimator sock before found after intact _ _ session seqNum =>
        obtain rfl : message = found := by simpa [freed] using last
        exact ⟨sockfd, ack, now, by simp, intact, session.symm, seqNum.symm⟩
      | connect | send | garbled | unmatched | stale | expire => simp [freed] at last
      | solve clock state' effects ran =>
        rw [freed_solve ran] at last
        cases last

end Ledger

section Sessions

variable {order : IterOrder Int32} {history : Machine.History SenderEvent SenderEffect}
  {state state' : Sender} {event : SenderEvent} {emitted : List SenderEffect}

def Notifies (expired : TimerExpired) (message : TrollMessage) : Prop :=
  expired.session.toUInt32 = message.session ∧ expired.seqNum.toUInt32 = message.seqNum

/-- A package of the session has gone out, so a timer may still notify about it. -/
def Transmitted (history : Machine.History SenderEvent SenderEffect) (session : UInt32) : Prop :=
  ∃ sockfd message, SenderEffect.data sockfd message ∈ Machine.outputs history ∧
    message.session = session

def Registered (sockets : Table Int32 ConnectedSocket) (session : UInt32) : Prop :=
  ∃ sockfd sock, sockets.find sockfd = some sock ∧ sock.session = session

theorem recvTimer_ok_iff (expired : TimerExpired) :
    (∃ result, recvTimer order state expired = .ok result) ↔
      Registered state.connectedSockets expired.session.toUInt32 := by
  constructor
  · rintro ⟨result, answered⟩
    cases found : findSession order state expired.session.toUInt32 with
    | none => simp [recvTimer, found] at answered
    | some entry =>
      obtain ⟨sockfd, sock⟩ := entry
      obtain ⟨present, session⟩ := findSession_some found
      exact ⟨sockfd, sock, present, session⟩
  · rintro ⟨sockfd, sock, present, session⟩
    cases found : findSession order state expired.session.toUInt32 with
    | none => exact absurd session (findSession_none found present)
    | some entry =>
      simp only [recvTimer, found]
      split
      next => exact ⟨_, rfl⟩
      next => exact ⟨_, rfl⟩

theorem Registered.insert {sockets : Table Int32 ConnectedSocket} {session : UInt32}
    (registered : Registered sockets session) {sockfd : Int32} {sock sock' : ConnectedSocket}
    (found : sockets.find sockfd = some sock) (same : sock'.session = sock.session) :
    Registered (sockets.insert sockfd sock') session := by
  obtain ⟨other, now, present, own⟩ := registered
  by_cases here : other = sockfd
  next =>
    subst here
    obtain rfl : sock = now := Option.some.inj (found.symm.trans present)
    exact ⟨other, sock', Table.find_insert _ _ _, same.trans own⟩
  next => exact ⟨other, now, (Table.find_insert_of_ne _ _ _ _ here).trans present, own⟩

theorem step_registered (move : SenderMove order state event state' emitted)
    (connects : ∀ front sockfd addr rand, event ≠ .connect front sockfd addr rand)
    {session : UInt32} (registered : Registered state.connectedSockets session) :
    Registered state'.connectedSockets session := by
  cases move with
  | connect front sockfd addr rand ready => exact absurd rfl (connects front sockfd addr rand)
  | send front sockfd len buf malloc sock body ready short found copied =>
    exact registered.insert found rfl
  | garbled | unmatched | stale => exact registered
  | acked sockfd ack now estimator sock before message after intact found split session seqNum =>
    exact registered.insert found rfl
  | expire expired sockfd sock before message after found session split own seqNum =>
    exact registered.insert found rfl
  | solve clock state' effects ran =>
    obtain ⟨sockfd, sock, present, own⟩ := registered
    exact ⟨sockfd, transmitted sock, by rw [solveSend_find ran, present, Option.map_some], own⟩

/-- What a CONNECT may do to the record of its fd: nothing is owned there, and no notification can
still come for its session unless another record answers to it. -/
def Harmless (history : Machine.History SenderEvent SenderEffect) (state : Sender)
    (sockfd : Int32) (rand : UInt32) : Prop :=
  ∀ sock, state.connectedSockets.find sockfd = some sock →
    unacked sock = [] ∧
      (sock.session = rand ∨
        (∃ other sock', other ≠ sockfd ∧ state.connectedSockets.find other = some sock' ∧
          sock'.session = sock.session) ∨
        ¬ Transmitted history sock.session)

def HarmlessConnects (order : IterOrder Int32)
    (history : Machine.History SenderEvent SenderEffect) : Prop :=
  ∀ before front sockfd addr rand emitted after state,
    history = before ++ (.connect front sockfd addr rand, emitted) :: after →
    Machine.Run (Sender.step order) .initial before state → Harmless before state sockfd rand

/-- Records, counter and timer agree about the packages. -/
structure Reconciled (order : IterOrder Int32)
    (history : Machine.History SenderEvent SenderEffect) (state : Sender) : Prop where
  kept : (accepted order history).Perm (owned state ++ freed (Machine.outputs history))
  acked : ∀ message ∈ freed (Machine.outputs history), ∃ sockfd ack now,
    SenderEvent.ack sockfd ack now ∈ Machine.events history ∧ ack.Intact ∧
      ack.session = message.session ∧ ack.seqNum = message.seqNum
  counted : state.inBufferPackages = (owned state).length
  answered : ∀ sockfd message, SenderEffect.data sockfd message ∈ Machine.outputs history →
    ∀ expired, Notifies expired message → ∃ result, recvTimer order state expired = .ok result

theorem connect_registered {sockets : Table Int32 ConnectedSocket} {sockfd : Int32}
    {addr : SockAddr} {rand session : UInt32} (registered : Registered sockets session) :
    Registered (sockets.insert sockfd (newSock sockfd addr rand)) session ↔
      ∀ sock, sockets.find sockfd = some sock → sock.session = session → sock.session = rand ∨
        ∃ other sock', other ≠ sockfd ∧ sockets.find other = some sock' ∧
          sock'.session = sock.session := by
  constructor
  · rintro ⟨other, now, present, own⟩ sock found same
    rcases Table.find_insert_some present with ⟨_, rfl⟩ | ⟨apart, elsewhere⟩
    · exact .inl (same.trans own.symm)
    · exact .inr ⟨other, now, apart, elsewhere, own.trans same.symm⟩
  · intro replaced
    obtain ⟨sockfd', sock, present, own⟩ := registered
    by_cases here : sockfd' = sockfd
    next =>
      subst here
      rcases replaced sock present own with reused | ⟨other, sock', apart, elsewhere, same⟩
      · exact ⟨sockfd', _, Table.find_insert _ _ _, reused.symm.trans own⟩
      · exact ⟨other, sock', (Table.find_insert_of_ne _ _ _ _ apart).trans elsewhere,
          same.trans own⟩
    next =>
      exact ⟨sockfd', sock, (Table.find_insert_of_ne _ _ _ _ here).trans present, own⟩

theorem HarmlessConnects.before {entry : SenderEvent × List SenderEffect}
    (harmless : HarmlessConnects order (history ++ [entry])) : HarmlessConnects order history := by
  intro before front sockfd addr rand emitted after state split
  exact harmless before front sockfd addr rand emitted (after ++ [entry]) state (by simp [split])

theorem HarmlessConnects.next (harmless : HarmlessConnects order history)
    (run : Machine.Run (Sender.step order) .initial history state)
    (last : ∀ front sockfd addr rand, event = .connect front sockfd addr rand →
      Harmless history state sockfd rand) :
    HarmlessConnects order (history ++ [(event, emitted)]) := by
  intro before front sockfd addr rand emitted' after state' split ran
  rcases Machine.split_snoc split with ⟨rfl, same, _⟩ | ⟨rest, _, split⟩
  · cases same
    rw [← run.deterministic ran]
    exact last front sockfd addr rand rfl
  · exact harmless before front sockfd addr rand emitted' rest state' split ran

theorem run_registered (run : Machine.Run (Sender.step order) .initial history state)
    (harmless : HarmlessConnects order history) {session : UInt32}
    (sent : Transmitted history session) : Registered state.connectedSockets session := by
  induction run with
  | start =>
    obtain ⟨_, _, member, _⟩ := sent
    cases member
  | @next history previous event state' emitted before taken ih =>
    have move := step_move taken
    obtain ⟨sockfd, message, member, own⟩ := sent
    rw [Machine.outputs_append, List.mem_append] at member
    cases event with
    | connect front opened addr rand =>
      have earlier : Transmitted history session := by
        rcases member with old | new
        · exact ⟨sockfd, message, old, own⟩
        · cases move
          simp at new
      have replaced := harmless history front opened addr rand emitted [] previous rfl before
      cases move
      apply (connect_registered (ih harmless.before earlier)).mpr
      intro sock found same
      rcases (replaced sock found).2 with reused | elsewhere | silent
      · exact .inl reused
      · exact .inr elsewhere
      · exact absurd (same ▸ earlier) silent
    | send | ack | expired | solveSend =>
      apply step_registered move (by simp)
      rcases member with old | new
      · exact ih harmless.before ⟨sockfd, message, old, own⟩
      · obtain ⟨sock, found, _, session, _⟩ := data_record before taken (by simpa using new)
        exact ⟨sockfd, sock, found, session.symm.trans own⟩

theorem run_overwrites_none (run : Machine.Run (Sender.step order) .initial history state)
    (harmless : HarmlessConnects order history) : overwritten order history = [] := by
  induction run with
  | start => rfl
  | @next history previous event state' emitted before taken ih =>
    have none : overwrites previous event = [] := by
      cases event with
      | connect front sockfd addr rand =>
        cases found : previous.connectedSockets.find sockfd with
        | none => simp [overwrites, found]
        | some sock =>
          have replaced := harmless history front sockfd addr rand emitted [] previous rfl before
          simp [overwrites, found, (replaced sock found).1]
      | send | ack | expired | solveSend => rfl
    have earlier := ih harmless.before
    rw [overwritten] at earlier ⊢
    rw [before.collect overwrites, earlier, none, List.append_nil]

theorem reconciled_of_harmless (run : Machine.Run (Sender.step order) .initial history state)
    (harmless : HarmlessConnects order history) : Reconciled order history state where
  kept := by simpa [run_overwrites_none run harmless] using run_ledger run
  acked := fun message member => run_freed run member
  counted := by simpa [run_overwrites_none run harmless] using run_overwritten run
  answered := by
    intro sockfd message sent expired notifies
    rw [recvTimer_ok_iff, notifies.1]
    exact run_registered run harmless ⟨sockfd, message, sent, rfl⟩

theorem harmless_of_reconciled {front addr : SockAddr} {sockfd : Int32} {rand : UInt32}
    (before : Reconciled order history state)
    (taken : Sender.step order state (.connect front sockfd addr rand) = .ok (state', emitted))
    (after : Reconciled order (history ++ [(.connect front sockfd addr rand, emitted)]) state') :
    Harmless history state sockfd rand := by
  intro sock found
  have move := step_move taken
  constructor
  · have ledger := (step_ledger move).length_eq
    have counter := step_counter move
    have first := before.counted
    have last := after.counted
    simp only [List.length_append, overwrites, found, Option.elim_some] at ledger
    apply List.eq_nil_of_length_eq_zero
    omega
  · by_contra dangling
    obtain ⟨fresh, alone, sent⟩ : sock.session ≠ rand ∧ (¬ ∃ other sock', other ≠ sockfd ∧
        state.connectedSockets.find other = some sock' ∧ sock'.session = sock.session) ∧
        Transmitted history sock.session := by
      simpa [not_or] using dangling
    obtain ⟨other, message, member, own⟩ := sent
    -- The notification for a package of the lost session.
    have answered := after.answered other message
      (by rw [Machine.outputs_append]; exact List.mem_append_left _ member)
      ⟨message.session.toInt32, message.seqNum.toInt32⟩ ⟨rfl, rfl⟩
    rw [recvTimer_ok_iff] at answered
    cases move
    have kept := (connect_registered ⟨sockfd, sock, found, rfl⟩).mp (own ▸ answered) sock found rfl
    exact kept.elim fresh alone

theorem connect_reconciled_iff (run : Machine.Run (Sender.step order) .initial history state) :
    (∀ before after reached, history = before ++ after →
      Machine.Run (Sender.step order) .initial before reached →
      Reconciled order before reached) ↔ HarmlessConnects order history := by
  constructor
  · intro reconciled before front sockfd addr rand emitted after reached split ran
    rw [split] at run
    obtain ⟨previous, next, ran', taken⟩ := run.split
    obtain rfl := ran.deterministic ran'
    exact harmless_of_reconciled (reconciled before _ reached split ran) taken
      (reconciled _ after next (by simp [split]) (ran.next _ _ _ taken))
  · intro harmless before after reached split ran
    apply reconciled_of_harmless ran
    intro earlier front sockfd addr rand emitted rest reached' split'
    exact harmless earlier front sockfd addr rand emitted (rest ++ after) reached'
      (by simp [split, split'])

theorem connect_reconciled_other :
    ∃ history state, Machine.Run (Sender.step (.insertion Int32)) .initial history state ∧
      state.inBufferPackages = 1 ∧ Reconciled (.insertion Int32) history state := by
  have begun : Machine.Run (Sender.step (.insertion Int32)) .initial [] .initial := .start
  have opened := begun.next (.connect default 5 default 7) _ _ rfl
  have sent := opened.next (.send default 5 3 (.pad bufLen [5, 6, 7]) default) _ _ rfl
  have solved := sent.next (.solveSend fun _ => default) _ _ rfl
  have run := solved.next (.connect default 6 default 8) _ _ rfl
  have none : HarmlessConnects (.insertion Int32) [] := by
    intro before _ _ _ _ _ _ _ split
    simp at split
  have reconciled := (connect_reconciled_iff run).mpr
    ((((none.next begun (by rintro _ _ _ _ ⟨⟩ sock ⟨⟩)).next opened (by rintro _ _ _ _ ⟨⟩)).next
      sent (by rintro _ _ _ _ ⟨⟩)).next solved (by rintro _ _ _ _ ⟨⟩ sock ⟨⟩))
  exact ⟨_, _, run, rfl, reconciled _ [] _ (List.append_nil _).symm run⟩

-- The second CONNECT loses the package in flight: the counter stays up, and the timer's
-- notification ends the daemon.
theorem connect_loses_package :
    ∃ history state message, Machine.Run (Sender.step (.insertion Int32)) .initial history state ∧
      accepted (.insertion Int32) history = [message] ∧ freed (Machine.outputs history) = [] ∧
      owned state = [] ∧ state.inBufferPackages = 1 ∧
      SenderEffect.data 5 message ∈ Machine.outputs history ∧ Notifies ⟨7, 0⟩ message ∧
      recvTimer (.insertion Int32) state ⟨7, 0⟩ = .error (.exit 5) := by
  have begun : Machine.Run (Sender.step (.insertion Int32)) .initial [] .initial := .start
  have opened := begun.next (.connect default 5 default 7) _ _ rfl
  have sent := opened.next (.send default 5 3 (.pad bufLen [5, 6, 7]) default) _ _ rfl
  have solved := sent.next (.solveSend fun _ => default) _ _ rfl
  have run := solved.next (.connect default 5 default 8) _ _ rfl
  exact ⟨_, _, _, run, rfl, rfl, rfl, rfl, by simp [newSock], ⟨rfl, rfl⟩, rfl⟩

end Sessions

end NetworkProj.Sending
