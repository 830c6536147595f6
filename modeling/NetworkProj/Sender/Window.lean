import Mathlib.Data.List.MinMax
import NetworkProj.Sender.Bookkeeping

set_option autoImplicit false

namespace NetworkProj.Sending

section Sockets

/-- The record is that of some run, whatever was acked and sent on it. -/
def Sound (sock : ConnectedSocket) : Prop :=
  ∃ acks sends, Booked acks sends sock

theorem Sound.below {sock : ConnectedSocket} (sound : Sound sock) {now : TrollMessage}
    (member : now ∈ unacked sock) : now.seqNum.toNat < sock.base.toNat := by
  obtain ⟨acks, sends, booked⟩ := sound
  rw [← booked.count]
  exact (booked.genuine now member).below

theorem sound_move {event : SenderEvent} {sock sock' : ConnectedSocket}
    (few : (unacked sock).length ≤ maxBufferPackages) (move : SockMove event sock sock')
    (sound : Sound sock) : Sound sock' := by
  obtain ⟨acks, sends, booked⟩ := sound
  cases move with
  | keep => exact ⟨acks, sends, booked⟩
  | send front sockfd len buf malloc _ body short copied =>
    have bounded := base_bounded booked
    rw [unacked, List.length_append] at few
    have unwrapped : sock.base.toNat + 1 < 2 ^ 32 := by
      unfold farthest at bounded
      unfold maxBufferPackages at few bounded
      omega
    exact ⟨acks, _, booked_send booked short copied unwrapped⟩
  | acked sockfd ack now _ before message after intact split session seqNum =>
    exact ⟨_, sends, booked_acked booked split session seqNum⟩
  | expire expired _ before message after split => exact ⟨acks, sends, booked_expire booked split⟩
  | solve clock _ => exact ⟨acks, sends, booked_transmitted booked⟩

/-- The oldest unacknowledged package is in `Packages`, or the numbers in use span no more than the
window. `MinSeq` starts at 100000000, so older packages than that are never left out of it. -/
def Steady (sock : ConnectedSocket) : Prop :=
  ∀ old ∈ sock.pendingPackages, (∀ now ∈ unacked sock, old.seqNum ≤ now.seqNum) →
    sock.base.toNat ≤ old.seqNum.toNat + maxBufferPackages ∨ 100000000 ≤ old.seqNum.toNat

/-- Everything the callback sends lies in the window that starts at each unacknowledged package. -/
def InWindow (sock : ConnectedSocket) (messages : List TrollMessage) : Prop :=
  ∀ now ∈ messages, ∀ old ∈ unacked sock, now.seqNum.toNat < old.seqNum.toNat + maxBufferPackages

theorem exists_oldest {packages : List TrollMessage} {now : TrollMessage}
    (member : now ∈ packages) :
    ∃ old ∈ packages, ∀ other ∈ packages, old.seqNum ≤ other.seqNum := by
  cases oldest : packages.argmin fun other => other.seqNum.toNat with
  | none =>
    rw [List.argmin_eq_none.mp oldest] at member
    cases member
  | some old =>
    refine ⟨old, List.argmin_mem oldest, ?_⟩
    intro other among
    have least := List.le_of_mem_argmin among (Option.mem_def.mpr oldest)
    exact UInt32.le_iff_toNat_le.mpr least

theorem inWindow_of_steady {sock : ConnectedSocket} (sound : Sound sock) (steady : Steady sock) :
    InWindow sock (transmits sock) := by
  intro now sent old member
  obtain ⟨pending, inside⟩ := List.mem_filter.mp sent
  rw [decide_eq_true_eq, UInt32.lt_iff_toNat_lt, limitOf_toNat] at inside
  have bound := minSeqOf_le sock.packages
  obtain ⟨oldest, among, least⟩ := exists_oldest member
  have order := UInt32.le_iff_toNat_le.mp (least old member)
  have below := sound.below (List.mem_append_right sock.packages pending)
  rcases List.mem_append.mp among with stored | waiting
  · have first := UInt32.le_iff_toNat_le.mp (minSeqOf_least stored)
    omega
  · rcases steady oldest waiting least with narrow | late
    · omega
    · omega

/-- The numbers beyond the window of an unacknowledged package are all still pending. -/
def Trailing (sock : ConnectedSocket) : Prop :=
  ∀ seqNum : UInt32, seqNum < sock.base → ∀ old ∈ unacked sock,
    old.seqNum.toNat + maxBufferPackages ≤ seqNum.toNat →
    ∃ now ∈ sock.pendingPackages, now.seqNum = seqNum

theorem trailing_move {event : SenderEvent} {sock sock' : ConnectedSocket}
    (move : SockMove event sock sock')
    (window : ∀ clock, event = .solveSend clock → InWindow sock (transmits sock))
    (trailing : Trailing sock) : Trailing sock' := by
  cases move with
  | keep => exact trailing
  | send front sockfd len buf malloc _ body short copied =>
    intro seqNum below old member far
    have next : sock.base + 1 = 0 ∨ (sock.base + 1).toNat = sock.base.toNat + 1 := by
      by_cases last : sock.base.toNat + 1 < 2 ^ 32
      · exact .inr (toNat_succ last)
      · have bound := sock.base.toNat_lt
        refine .inl (UInt32.toNat_inj.mp ?_)
        rw [UInt32.toNat_add]
        change (sock.base.toNat + 1) % 2 ^ 32 = 0
        omega
    have below : seqNum.toNat ≤ sock.base.toNat := by
      change seqNum < sock.base + 1 at below
      rcases next with wrapped | next
      · rw [wrapped] at below
        exact absurd below (UInt32.not_lt_zero)
      · rw [UInt32.lt_iff_toNat_lt, next] at below
        omega
    have known : old ∈ unacked sock ∨ old = wrapPackage sock len body malloc := by
      simpa [unacked, or_assoc] using member
    by_cases new : seqNum = sock.base
    · exact ⟨wrapPackage sock len body malloc, by simp, new.symm⟩
    · have different : seqNum.toNat ≠ sock.base.toNat := fun same => new (UInt32.toNat_inj.mp same)
      rcases known with earlier | rfl
      · obtain ⟨now, pending, same⟩ := trailing seqNum
          (UInt32.lt_iff_toNat_lt.mpr (by omega)) old earlier far
        exact ⟨now, List.mem_append_left _ pending, same⟩
      · change sock.base.toNat + maxBufferPackages ≤ seqNum.toNat at far
        omega
  | acked sockfd ack now _ before message after intact split session seqNum =>
    intro seqNum below old member far
    apply trailing seqNum below old _ far
    rw [unacked, split]
    rcases List.mem_append.mp member with stored | pending
    · exact List.mem_append_left _
        (List.mem_append.mpr ((List.mem_append.mp stored).imp id (List.mem_cons_of_mem _)))
    · exact List.mem_append_right _ pending
  | expire expired _ before message after split =>
    intro seqNum below old member far
    have known := (unacked_expire split).mem_iff.mp member
    obtain ⟨now, pending, same⟩ := trailing seqNum below old known far
    exact ⟨now, List.mem_append_left _ pending, same⟩
  | solve clock _ =>
    intro seqNum below old member far
    have known := (unacked_transmitted sock).mem_iff.mp member
    obtain ⟨now, pending, same⟩ := trailing seqNum below old known far
    refine ⟨now, List.mem_filter.mpr ⟨pending, ?_⟩, same⟩
    rw [decide_eq_true_eq]
    intro inside
    have near := window clock rfl now
      (List.mem_filter.mpr ⟨pending, decide_eq_true inside⟩) old known
    rw [same] at near
    omega

theorem steady_of_inWindow {sock : ConnectedSocket} (sound : Sound sock)
    (trailing : Trailing sock) (window : InWindow sock (transmits sock)) : Steady sock := by
  intro old waiting least
  by_contra unsteady
  obtain ⟨wide, early⟩ := not_or.mp unsteady
  have member : old ∈ unacked sock := List.mem_append_right _ waiting
  have small : old.seqNum.toNat + maxBufferPackages < 2 ^ 32 := by
    have bound := sock.base.toNat_lt
    omega
  -- The first number past the window is pending, and `MinSeq` has left the oldest package out.
  obtain ⟨now, pending, same⟩ := trailing (UInt32.ofNat (old.seqNum.toNat + maxBufferPackages))
    (by rw [UInt32.lt_iff_toNat_lt, UInt32.toNat_ofNat_of_lt' small]; omega) old member
    (by rw [UInt32.toNat_ofNat_of_lt' small])
  have number : now.seqNum.toNat = old.seqNum.toNat + maxBufferPackages := by
    rw [same, UInt32.toNat_ofNat_of_lt' small]
  have skipped : old.seqNum.toNat < (minSeqOf sock.packages).toNat := by
    rcases minSeqOf_found sock.packages with default | ⟨first, stored, found⟩
    · rw [default]
      change old.seqNum.toNat < 100000000
      omega
    · have order := UInt32.le_iff_toNat_le.mp (least first (List.mem_append_left _ stored))
      have different : first.seqNum ≠ old.seqNum := by
        obtain ⟨acks, sends, booked⟩ := sound
        have apart := booked.numbers
        rw [unacked, List.map_append] at apart
        exact (List.nodup_append.mp apart).2.2 _ (List.mem_map_of_mem stored) _
          (List.mem_map_of_mem waiting)
      have unequal : first.seqNum.toNat ≠ old.seqNum.toNat := fun equal =>
        different (UInt32.toNat_inj.mp equal)
      rw [← found]
      omega
  have sent : now ∈ transmits sock := by
    refine List.mem_filter.mpr ⟨pending, ?_⟩
    rw [decide_eq_true_eq, UInt32.lt_iff_toNat_lt, limitOf_toNat]
    omega
  have near := window now sent old member
  omega

end Sockets

section Runs

variable {order : IterOrder Int32} {history : Machine.History SenderEvent SenderEffect}
  {state : Sender}

theorem run_sound (run : Machine.Run (Sender.step order) .initial history state) {sockfd : Int32}
    {sock : ConnectedSocket} (found : state.connectedSockets.find sockfd = some sock) :
    sock.socketFD = sockfd ∧ Sound sock := by
  induction run generalizing sock with
  | start => cases found
  | @next history previous event state' emitted before taken ih =>
    rcases step_sock (step_move taken) found with ⟨front, addr, rand, rfl, rfl⟩ | ⟨old, present, move⟩
    · exact ⟨rfl, [], [], booked_new sockfd rand addr⟩
    · obtain ⟨keyed, sound⟩ := ih present
      refine ⟨move.socketFD.trans keyed, sound_move ?_ move sound⟩
      have limits := run_held before
      have weight := Table.weight_le_total
        (fun sock => sock.packages.length + sock.pendingPackages.length) present
      rw [unacked, List.length_append]
      unfold held at limits
      omega

theorem run_sends (run : Machine.Run (Sender.step order) .initial history state)
    {clock : Nat → TimeVal} {state' : Sender} {emitted : List SenderEffect}
    (taken : Sender.step order state (.solveSend clock) = .ok (state', emitted)) {sockfd : Int32}
    {sock : ConnectedSocket} (found : state.connectedSockets.find sockfd = some sock) :
    emitted.filterMap (dataOn sockfd) = transmits sock := by
  rw [solveSend_data taken (fun other now present => (run_sound run present).1) sockfd, found]
  rfl

theorem data_record (run : Machine.Run (Sender.step order) .initial history state)
    {event : SenderEvent} {state' : Sender} {emitted : List SenderEffect}
    (taken : Sender.step order state event = .ok (state', emitted)) {sockfd : Int32}
    {message : TrollMessage} (member : SenderEffect.data sockfd message ∈ emitted) :
    ∃ sock, state.connectedSockets.find sockfd = some sock ∧ message ∈ unacked sock ∧
      message.session = sock.session ∧ message.seqNum.toNat < farthest + maxBufferPackages := by
  cases step_move taken with
  | connect | send | garbled | unmatched | stale | acked | expire => simp at member
  | solve clock state' effects ran =>
    obtain ⟨other, sock, found, now, pending, same | ⟨_, timer⟩⟩ := solveSend_effect ran member
    · cases same
      obtain ⟨keyed, acks, sends, booked⟩ := run_sound run found
      have owned : message ∈ unacked sock :=
        List.mem_append_right _ (List.mem_of_mem_filter pending)
      have genuine := booked.genuine message owned
      have below := genuine.below
      have count := booked.count
      have bounded := base_bounded booked
      have limits := run_held run
      have weight := Table.weight_le_total
        (fun sock => sock.packages.length + sock.pendingPackages.length) found
      unfold held at limits
      refine ⟨sock, by rw [keyed, found], owned, genuine.session, ?_⟩
      omega
    · cases timer

/-- No callback of the run sends a package beyond the window of its connection. -/
def Windowed (order : IterOrder Int32) (history : Machine.History SenderEvent SenderEffect) : Prop :=
  ∀ before clock emitted after state sockfd sock,
    history = before ++ (.solveSend clock, emitted) :: after →
    Machine.Run (Sender.step order) .initial before state →
    state.connectedSockets.find sockfd = some sock →
    InWindow sock (emitted.filterMap (dataOn sockfd))

theorem Windowed.before {entry : SenderEvent × List SenderEffect}
    {after : Machine.History SenderEvent SenderEffect}
    (windowed : Windowed order (history ++ entry :: after)) : Windowed order history := by
  intro before clock emitted rest state sockfd sock split
  exact windowed before clock emitted (rest ++ entry :: after) state sockfd sock (by simp [split])

theorem run_trailing (run : Machine.Run (Sender.step order) .initial history state)
    (windowed : Windowed order history) {sockfd : Int32} {sock : ConnectedSocket}
    (found : state.connectedSockets.find sockfd = some sock) : Trailing sock := by
  induction run generalizing sock with
  | start => cases found
  | @next history previous event state' emitted before taken ih =>
    rcases step_sock (step_move taken) found with ⟨front, addr, rand, rfl, rfl⟩ | ⟨old, present, move⟩
    · intro seqNum below
      exact absurd below UInt32.not_lt_zero
    · apply trailing_move move _ (ih windowed.before present)
      rintro clock rfl
      rw [← run_sends before taken present]
      exact windowed history clock emitted [] previous sockfd old rfl before present

def SteadySend (state : Sender) : SenderEvent → Prop
  | .solveSend _ => ∀ sockfd sock, state.connectedSockets.find sockfd = some sock → Steady sock
  | _ => True

theorem window_kept_iff (run : Machine.Run (Sender.step order) .initial history state) :
    Windowed order history ↔ Machine.Guarded (Sender.step order) .initial SteadySend history := by
  constructor
  · intro windowed before event emitted after reached split ran
    cases event with
    | solveSend clock =>
      intro sockfd sock found
      rw [split] at run
      obtain ⟨_, next, ran', taken⟩ := run.split
      obtain rfl := ran.deterministic ran'
      apply steady_of_inWindow (run_sound ran found).2
      · rw [split] at windowed
        exact run_trailing ran windowed.before found
      · rw [← run_sends ran taken found]
        exact windowed before clock emitted after reached sockfd sock split ran found
    | connect | send | ack | expired => trivial
  · intro guarded before clock emitted after reached sockfd sock split ran found
    have steady := guarded before (.solveSend clock) emitted after reached split ran sockfd sock found
    rw [split] at run
    obtain ⟨_, next, ran', taken⟩ := run.split
    obtain rfl := ran.deterministic ran'
    rw [run_sends ran taken found]
    exact inWindow_of_steady (run_sound ran found).2 steady

-- Three packages go out, the acks come back last first, and the first package is sent once more.
theorem window_kept_retransmission :
    ∃ history state, Machine.Run (Sender.step (.insertion Int32)) .initial history state ∧
      Machine.events history = [.connect default 5 default 7, .send default 5 1 default default,
        .send default 5 1 default default, .send default 5 1 default default,
        .solveSend fun _ => default, .ack 5 (TrollAck.sealed ⟨default, 0, 7, 2⟩) default,
        .ack 5 (TrollAck.sealed ⟨default, 0, 7, 1⟩) default, .expired ⟨7, 0⟩,
        .solveSend fun _ => default] ∧
      (((Machine.outputs history).filterMap (dataOn 5)).map TrollMessage.seqNum) = [0, 1, 2, 0] ∧
      Windowed (.insertion Int32) history := by
  have fresh : Machine.Run (Sender.step (.insertion Int32)) .initial [] .initial := .start
  have opened := fresh.next (.connect default 5 default 7) _ _ rfl
  have first := opened.next (.send default 5 1 default default) _ _ rfl
  have second := first.next (.send default 5 1 default default) _ _ rfl
  have third := second.next (.send default 5 1 default default) _ _ rfl
  have flying := third.next (.solveSend fun _ => default) _ _ rfl
  have last := flying.next _ _ _ (step_ack 5 rfl (TrollAck.sealed_intact ⟨default, 0, 7, 2⟩) default)
  have middle := last.next _ _ _ (step_ack 5 rfl (TrollAck.sealed_intact ⟨default, 0, 7, 1⟩) default)
  have late := middle.next (.expired ⟨7, 0⟩) _ _ rfl
  have run := late.next (.solveSend fun _ => default) _ _ rfl
  have steady {history : Machine.History SenderEvent SenderEffect} {state : Sender}
      (run : Machine.Run (Sender.step (.insertion Int32)) .initial history state)
      (opens : Sending.opened (Machine.events history) = [(5, 7)])
      (base : (state.connectedSockets.find 5).map ConnectedSocket.base = some 3) :
      SteadySend state (.solveSend fun _ => default) := by
    intro sockfd sock found old _ _
    have known := run_opened run found
    rw [opens] at known
    obtain ⟨rfl, _⟩ := Prod.mk.inj (List.mem_singleton.mp known)
    rw [found] at base
    left
    rw [show sock.base = 3 from Option.some.inj base]
    exact Nat.le_trans (by decide) (Nat.le_add_left 64 _)
  refine ⟨_, _, run, rfl, rfl, (window_kept_iff run).mpr ?_⟩
  refine .next (.next (.next (.next (.next ?_ third (steady third rfl rfl)) flying trivial) last
    trivial) middle trivial) late (steady late rfl rfl)
  exact .next (.next (.next (.next (.start _ _ _) fresh trivial) opened trivial) first trivial) second
    trivial

end Runs

section Stalled

/-- The first package gets lost, the second is acked, and the 65th is sent when the first one times
out: it has left `Packages` for `PendingPackages`. Each call is one round of the main loop. -/
def stalledCalls : List SenderEvent :=
  [.connect default 5 default 7] ++ List.replicate 64 (.send default 5 1 default default) ++
    [.ack 5 (TrollAck.sealed ⟨default, 0, 7, 1⟩) default, .send default 5 1 default default]

def stalled : List SenderEvent :=
  stalledCalls.flatMap (fun event => [event, .solveSend fun _ => default]) ++ [.expired ⟨7, 0⟩]

def overruns (sockfd : Int32) (state : Sender) : Bool :=
  match state.connectedSockets.find sockfd with
  | none => false
  | some sock => (transmits sock).any fun now => (unacked sock).any fun old =>
      old.seqNum.toNat + maxBufferPackages ≤ now.seqNum.toNat

theorem window_overrun :
    ∃ history state, Machine.Run (Sender.step (.insertion Int32)) .initial history state ∧
      Machine.events history = stalled ++ [.solveSend fun _ => default] ∧
      ¬ Windowed (.insertion Int32) history := by
  have overrun : (match Machine.exec (Sender.step (.insertion Int32)) .initial stalled with
      | .ok (state, _) => overruns 5 state
      | .error _ => false) = true := by decide +kernel
  cases executed : Machine.exec (Sender.step (.insertion Int32)) .initial stalled with
  | error stop => simp [executed] at overrun
  | ok reached =>
    obtain ⟨state, history⟩ := reached
    rw [executed] at overrun
    have run := Machine.run_of_exec executed
    let last := SenderEvent.solveSend fun _ => default
    obtain ⟨state', emitted, taken⟩ :
        ∃ state' emitted, Sender.step (.insertion Int32) state last = .ok (state', emitted) :=
      solveSend_total (.insertion Int32) state _
    refine ⟨_, state', run.next last state' emitted taken, ?_, ?_⟩
    · rw [Machine.events_append, Machine.events_exec executed]
      rfl
    · intro windowed
      simp only [overruns] at overrun
      split at overrun
      · cases overrun
      next sock found =>
        obtain ⟨now, sent, late⟩ := List.any_eq_true.mp overrun
        obtain ⟨old, member, late⟩ := List.any_eq_true.mp late
        have near := windowed history _ emitted [] state 5 sock rfl run found
        rw [run_sends run taken found] at near
        have near := near now sent old member
        rw [decide_eq_true_eq] at late
        omega

end Stalled

end NetworkProj.Sending
