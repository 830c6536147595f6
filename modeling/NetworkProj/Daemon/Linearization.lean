import NetworkProj.Shared.Interleaving
import NetworkProj.Model.TcpdMsgSocket

set_option autoImplicit false

namespace NetworkProj.Daemon

section Serial

structure Issue where
  front : SockAddr
  call : Call

def Issue.request (issue : Issue) : List Datagram :=
  issue.call.request.map (Datagram.mk issue.front)

def Issue.datagrams (issue : Issue) : List Datagram :=
  issue.call.datagrams.map (Datagram.mk issue.front)

/-- A SEND that is longer than the buffer ends the daemon before its data is read. -/
def Issue.Oversized (issue : Issue) : Prop :=
  match issue.call with
  | .send _ len _ => bufLen < len.toNat
  | _ => False

structure Front where
  addr : SockAddr
  calls : List Call

def Front.issues (front : Front) : List Issue :=
  front.calls.map (Issue.mk front.addr)

def Front.datagrams (front : Front) : List Datagram :=
  front.issues.flatMap Issue.datagrams

def Issue.served (env : FrontEnv) (issue : Issue) : FrontCall :=
  match issue.call with
  | .socket => .socket issue.front env.retSock
  | .bind sockfd addr _ => .bind issue.front sockfd (env.granted sockfd addr)
  | .accept sockfd => .accept issue.front sockfd
  | .recv sockfd len => .recv issue.front sockfd len
  | .connect sockfd addr _ => .connect issue.front sockfd addr env.rand
  | .send sockfd len buffer => .send issue.front sockfd len (.pad bufLen buffer.bytes) env.malloc

/-- The daemon of the specification: it is given whole calls, and no socket brings it one as an
ack. -/
structure SerialTcpd where
  tcpd : Tcpd
  socketFD : Int32
  calls : List Issue

def SerialTcpd.step (order : TcpdOrder) :
    Machine.Step SerialTcpd FrontEvent TcpdEffect FrontStop := fun state event =>
  match event with
  | .background event =>
    match Tcpd.background order state.socketFD state.tcpd event with
    | .error stop => .error stop
    | .ok (tcpd, emitted) => .ok ({ state with tcpd }, emitted)
  | .recvAck .. => .error (.tcpd .blocked)
  | .front env =>
    if state.tcpd.sender.Ready then
      match state.calls with
      | [] => .error (.tcpd .blocked)
      | issue :: calls =>
        match Tcpd.act order state.tcpd (issue.served env).event with
        | .error stop => .error stop
        | .ok (tcpd, emitted) => .ok ({ state with tcpd, calls }, emitted)
    else
      .error (.tcpd .blocked)

def answersTo (addr : SockAddr) (history : Machine.History FrontEvent TcpdEffect) :
    List (List UInt8) :=
  (Machine.outputs history).filterMap (TcpdEffect.datagram? addr)

/-- Same state of the daemon and same answers to both processes. A daemon that has read its whole
queue is compared with one that has executed all calls. -/
inductive SameOutcome (left right : Front) :
    Except FrontStop (FrontTcpd × Machine.History FrontEvent TcpdEffect) →
      Except FrontStop (SerialTcpd × Machine.History FrontEvent TcpdEffect) → Prop where
  | stopped (stop : FrontStop) : SameOutcome left right (.error stop) (.error stop)
  | ran (final : FrontTcpd) (serial : SerialTcpd)
      (history history' : Machine.History FrontEvent TcpdEffect)
      (tcpd : final.tcpd = serial.tcpd)
      (done : final.socket.queue = [] ↔ serial.calls = [])
      (answered : ∀ front ∈ [left, right], answersTo front.addr history = answersTo front.addr history') :
      SameOutcome left right (.ok (final, history)) (.ok (serial, history'))

/-- On these events the daemon ends as if it had executed the calls in some order. -/
def LinearizedOn (order : TcpdOrder) (left right : Front) (state : FrontTcpd)
    (events : List FrontEvent) : Prop :=
  ∃ calls serial, Interleaving left.issues right.issues calls ∧
    serial.filterMap FrontEvent.background? = events.filterMap FrontEvent.background? ∧
    SameOutcome left right (Machine.exec (FrontTcpd.step order) state events)
      (Machine.exec (SerialTcpd.step order) ⟨state.tcpd, state.socketFD, calls⟩ serial)

def Linearized (order : TcpdOrder) (left right : Front) (state : FrontTcpd) : Prop :=
  ∀ events, LinearizedOn order left right state events

end Serial

section Mixing

-- The datagrams behind the name that a handler reads, the data of a SEND apart.
def arguments : CallName → Nat
  | .socket => 0
  | .accept => 1
  | .bind | .recv | .connect | .send => 2

def announcedLen : List Datagram → UInt64
  | _ :: len :: _ => ofBytes64 (Block.pad 8 len.bytes).bytes
  | _ => 0

def reads (env : FrontEnv) : List Datagram → Nat
  | [] => 0
  | name :: queue =>
    match dispatch (env.tcpdMsg.receive name.bytes) with
    | none => 1
    | some call =>
      if call = .send ∧ (announcedLen queue).toNat ≤ bufLen then arguments call + 2
      else arguments call + 1

def OwnReads (env : FrontEnv) (queue : List Datagram) : Prop :=
  ∀ name ∈ queue.head?, ∀ datagram ∈ queue.take (reads env queue), datagram.sender = name.sender

instance (env : FrontEnv) (queue : List Datagram) : Decidable (OwnReads env queue) :=
  match queue with
  | [] => isTrue (by simp [OwnReads])
  | name :: rest =>
    decidable_of_iff (∀ datagram ∈ (name :: rest).take (reads env (name :: rest)),
      datagram.sender = name.sender) (by simp [OwnReads])

/-- No datagram of a call is taken for an argument of another one, or for an ack. -/
def Unmixed (state : FrontTcpd) : FrontEvent → Prop
  | .front env => OwnReads env state.socket.queue
  | .recvAck .. => state.socketFD ∉ state.tcpd.sender.connectedSockets.keys
  | .background _ => True

instance (state : FrontTcpd) (event : FrontEvent) : Decidable (Unmixed state event) :=
  match event with
  | .front env => inferInstanceAs (Decidable (OwnReads env state.socket.queue))
  | .recvAck .. => inferInstanceAs (Decidable (_ ∉ _))
  | .background _ => isTrue trivial

end Mixing

section Reading

theorem fetch_bind {α β : Type} {first : Fetch α} {rest : α → Fetch β} {socket next : TcpdMsgSocket}
    {value : α} (fetched : first socket = .ok (value, next)) :
    (first >>= rest) socket = rest value next := by
  simp only [bind, StateT.bind, fetched, Except.bind]

variable (buf : Block bufLen) (front : SockAddr) (queue : List Datagram)

theorem recvBuf_next {count : Nat} {bytes : List UInt8} (sized : bytes.length = count) :
    recvBuf count ⟨buf, ⟨front, bytes⟩ :: queue⟩ = .ok (front, ⟨buf.receive bytes, queue⟩) := by
  simp [recvBuf, List.take_of_length_le sized.le]

theorem recvArgument_next {α : Type} {count : Nat} (decode : List UInt8 → α) {bytes : List UInt8}
    (sized : bytes.length = count) (short : count ≤ bufLen) :
    ∃ buf', recvArgument count decode ⟨buf, ⟨front, bytes⟩ :: queue⟩ =
      .ok ((front, decode bytes), ⟨buf', queue⟩) := by
  let cleared := buf.receive (List.replicate count 0)
  have bzeroed : bzero count ⟨buf, ⟨front, bytes⟩ :: queue⟩ =
      .ok ((), ⟨cleared, ⟨front, bytes⟩ :: queue⟩) := rfl
  have read : (cleared.receive bytes).take count = bytes := by
    subst sized
    exact Block.receive_take cleared short
  refine ⟨cleared.receive bytes, ?_⟩
  rw [recvArgument, fetch_bind bzeroed, fetch_bind (recvBuf_next cleared front queue sized)]
  change Except.ok ((front, decode ((cleared.receive bytes).take count)), _) = _
  rw [read]

theorem recvInt_next (value : Int32) :
    ∃ buf', recvInt ⟨buf, ⟨front, bytes32 value.toUInt32⟩ :: queue⟩ =
      .ok ((front, value), ⟨buf', queue⟩) := by
  have sized : (bytes32 value.toUInt32).length = 4 := rfl
  simpa [recvInt] using recvArgument_next buf front queue (fun bytes => (ofBytes32 bytes).toInt32) sized
    (by decide)

theorem recvSize_next (value : UInt64) :
    ∃ buf', recvSize ⟨buf, ⟨front, bytes64 value⟩ :: queue⟩ = .ok ((front, value), ⟨buf', queue⟩) := by
  have sized : (bytes64 value).length = 8 := rfl
  simpa [recvSize] using recvArgument_next buf front queue ofBytes64 sized (by decide)

theorem recvSockAddr_next (addr : SockAddr) (sinZero : Block 8) :
    ∃ buf', recvSockAddr ⟨buf, ⟨front, addr.bytes sinZero⟩ :: queue⟩ =
      .ok ((front, addr), ⟨buf', queue⟩) := by
  simpa [recvSockAddr] using recvArgument_next buf front queue SockAddr.ofBytes (addr.length_bytes sinZero)
    (by decide)

@[simp] theorem dispatch_tcpdMsg (name : CallName) : dispatch name.tcpdMsg = some name := by
  cases name <;> rfl

theorem fetchCall_name (env : FrontEnv) (name : CallName) :
    fetchCall env ⟨buf, ⟨front, name.tcpdMsg.bytes⟩ :: queue⟩ =
      (handler env front name ⟨buf, queue⟩).map (Prod.map some id) := by
  simp only [fetchCall, Block.receive_whole, dispatch_tcpdMsg]

theorem fetchCall_handled {env : FrontEnv} {name : CallName} {call : FrontCall}
    {queue : List Datagram} {socket : TcpdMsgSocket}
    (handled : handler env front name ⟨buf, queue⟩ = .ok (call, socket)) :
    fetchCall env ⟨buf, ⟨front, name.tcpdMsg.bytes⟩ :: queue⟩ = .ok (some call, socket) := by
  rw [fetchCall_name, handled]
  rfl

theorem fetchCall_oversized (env : FrontEnv) {issue : Issue} (long : issue.Oversized) :
    fetchCall env ⟨buf, issue.request ++ queue⟩ = .error (.tcpd (.exit 5)) := by
  obtain ⟨front, call⟩ := issue
  cases call with
  | send sockfd len buffer =>
    have long : bufLen < len.toNat := long
    obtain ⟨buf', first⟩ := recvInt_next buf front (⟨front, bytes64 len⟩ :: queue) sockfd
    obtain ⟨buf'', second⟩ := recvSize_next buf' front queue len
    have handled : handler env front .send
        ⟨buf, ⟨front, bytes32 sockfd.toUInt32⟩ :: ⟨front, bytes64 len⟩ :: queue⟩ =
          .error (.tcpd (.exit 5)) := by
      simp only [handler, fetch_bind first, fetch_bind second, long, if_true]
      rfl
    exact (fetchCall_name buf front _ env .send).trans (congrArg _ handled)
  | socket | bind | accept | recv | connect => cases long

theorem send_same (order : TcpdOrder) (state : Tcpd) (sockfd : Int32) {len : UInt64}
    {left right : Block bufLen} (malloc : TrollMessage)
    (same : left.take len.toNat = right.take len.toNat) :
    Tcpd.act order state (FrontCall.send front sockfd len left malloc).event =
      Tcpd.act order state (FrontCall.send front sockfd len right malloc).event := by
  have copied : left.bcopy 0 malloc.body 0 len.toNat = right.bcopy 0 malloc.body 0 len.toNat := by
    simp only [Block.bcopy, List.drop_zero]
    congr! 3
  simp only [Tcpd.act, FrontCall.event, Tcpd.step, Sender.step, tcpdSend, copied]

theorem fetchCall_issue (env : FrontEnv) (issue : Issue)
    (short : ¬ issue.Oversized) :
    ∃ buf' call, fetchCall env ⟨buf, issue.datagrams ++ queue⟩ = .ok (some call, ⟨buf', queue⟩) ∧
      ∀ order state, Tcpd.act order state call.event = Tcpd.act order state (issue.served env).event := by
  obtain ⟨front, call⟩ := issue
  cases call with
  | socket => exact ⟨buf, _, fetchCall_handled buf front rfl, fun _ _ => rfl⟩
  | accept sockfd =>
    obtain ⟨buf', first⟩ := recvInt_next buf front queue sockfd
    refine ⟨buf', .accept front sockfd, fetchCall_handled buf front ?_, fun _ _ => rfl⟩
    exact fetch_bind first
  | bind sockfd addr sinZero =>
    obtain ⟨buf', first⟩ := recvInt_next buf front (⟨front, addr.bytes sinZero⟩ :: queue) sockfd
    obtain ⟨buf'', second⟩ := recvSockAddr_next buf' front queue addr sinZero
    refine ⟨buf'', .bind front sockfd (env.granted sockfd addr), fetchCall_handled buf front ?_,
      fun _ _ => rfl⟩
    exact (fetch_bind first).trans (fetch_bind second)
  | recv sockfd len =>
    obtain ⟨buf', first⟩ := recvInt_next buf front (⟨front, bytes64 len⟩ :: queue) sockfd
    obtain ⟨buf'', second⟩ := recvSize_next buf' front queue len
    refine ⟨buf'', .recv front sockfd len, fetchCall_handled buf front ?_, fun _ _ => rfl⟩
    exact (fetch_bind first).trans (fetch_bind second)
  | connect sockfd addr sinZero =>
    obtain ⟨buf', first⟩ := recvInt_next buf front (⟨front, addr.bytes sinZero⟩ :: queue) sockfd
    obtain ⟨buf'', second⟩ := recvSockAddr_next buf' front queue addr sinZero
    refine ⟨buf'', .connect front sockfd addr env.rand, fetchCall_handled buf front ?_,
      fun _ _ => rfl⟩
    exact (fetch_bind first).trans (fetch_bind second)
  | send sockfd len buffer =>
    have fits : len.toNat ≤ bufLen := Nat.not_lt.mp short
    have sized := buffer.sized
    obtain ⟨buf', first⟩ := recvInt_next buf front
      (⟨front, bytes64 len⟩ :: ⟨front, buffer.bytes⟩ :: queue) sockfd
    obtain ⟨buf'', second⟩ := recvSize_next buf' front (⟨front, buffer.bytes⟩ :: queue) len
    have third := recvBuf_next buf'' front queue sized
    refine ⟨buf''.receive buffer.bytes,
      .send front sockfd len (buf''.receive buffer.bytes) env.malloc, fetchCall_handled buf front ?_,
      fun order state => send_same front order state sockfd env.malloc ?_⟩
    · refine (fetch_bind first).trans ((fetch_bind second).trans ?_)
      simp only [if_neg (Nat.not_lt.mpr fits)]
      exact fetch_bind third
    · have fits : buffer.bytes.length ≤ bufLen := by omega
      have sent := Block.receive_take buf'' fits
      have given := Block.pad_take fits
      rw [sized] at sent given
      exact sent.trans given.symm

end Reading

section Own

variable {env : FrontEnv} {front : SockAddr} {first second queue : List Datagram}

theorem reads_pos (env : FrontEnv) (some : queue ≠ []) : 1 ≤ reads env queue := by
  cases queue with
  | nil => exact absurd rfl some
  | cons name queue =>
    rw [reads]
    split
    · exact Nat.le_refl 1
    · split <;> omega

theorem reads_name (env : FrontEnv) (front : SockAddr) (name : CallName) (queue : List Datagram) :
    reads env (⟨front, name.tcpdMsg.bytes⟩ :: queue) =
      if name = .send ∧ (announcedLen queue).toNat ≤ bufLen then arguments name + 2
      else arguments name + 1 := by
  simp only [reads, Block.receive_whole, dispatch_tcpdMsg]

theorem arguments_lt_reads (env : FrontEnv) (front : SockAddr) (name : CallName)
    (queue : List Datagram) : arguments name + 1 ≤ reads env (⟨front, name.tcpdMsg.bytes⟩ :: queue) := by
  rw [reads_name]
  split <;> omega

theorem split_own {prior : List Datagram} {count : Nat}
    (merged : Interleaving (prior ++ first) second queue) (within : prior.length ≤ count)
    (own : ∀ datagram ∈ queue.take count, datagram.sender = front)
    (foreign : ∀ datagram ∈ second, datagram.sender ≠ front) :
    ∃ rest, queue = prior ++ rest ∧ Interleaving first second rest :=
  merged.split_left (fun datagram member => own datagram (List.take_subset_take_left _ within member))
    foreign

theorem own_request {name : CallName} {behind : List Datagram}
    (merged : Interleaving (⟨front, name.tcpdMsg.bytes⟩ :: behind ++ first) second queue)
    (count : behind.length = arguments name) (some : queue ≠ [])
    (own : ∀ datagram ∈ queue.take (reads env queue), datagram.sender = front)
    (foreign : ∀ datagram ∈ second, datagram.sender ≠ front) :
    ∃ rest, queue = ⟨front, name.tcpdMsg.bytes⟩ :: behind ++ rest ∧ Interleaving first second rest := by
  have named : Interleaving ([⟨front, name.tcpdMsg.bytes⟩] ++ (behind ++ first)) second queue := merged
  obtain ⟨tail, rfl, _⟩ := split_own named (reads_pos env some) own foreign
  refine split_own merged ?_ own foreign
  rw [List.length_cons, count]
  exact arguments_lt_reads env front name tail

theorem own_call (issue : Issue) (merged : Interleaving (issue.datagrams ++ first) second queue) (some : queue ≠ [])
    (own : ∀ datagram ∈ queue.take (reads env queue), datagram.sender = issue.front)
    (foreign : ∀ datagram ∈ second, datagram.sender ≠ issue.front) :
    (issue.Oversized ∧ ∃ rest, queue = issue.request ++ rest) ∨
      ∃ rest, queue = issue.datagrams ++ rest ∧ Interleaving first second rest := by
  obtain ⟨front, call⟩ := issue
  cases call with
  | socket | bind | accept | recv | connect => exact .inr (own_request merged rfl some own foreign)
  | send sockfd len buffer =>
    have request : Interleaving ((Issue.mk front (.send sockfd len buffer)).request ++
        (⟨front, buffer.bytes⟩ :: first)) second queue := by
      simpa [Issue.datagrams, Issue.request, Call.datagrams] using merged
    obtain ⟨rest, rfl, _⟩ := own_request request rfl some own foreign
    by_cases long : bufLen < len.toNat
    · exact .inl ⟨long, rest, rfl⟩
    · refine .inr (split_own merged ?_ own foreign)
      have announced : announcedLen (⟨front, bytes32 sockfd.toUInt32⟩ :: ⟨front, bytes64 len⟩ :: rest) =
          len := by
        have whole : (Block.pad 8 (bytes64 len)).bytes = bytes64 len := rfl
        rw [announcedLen, whole, ofBytes64_bytes64]
      change 4 ≤ reads env (⟨front, CallName.send.tcpdMsg.bytes⟩ ::
        ⟨front, bytes32 sockfd.toUInt32⟩ :: ⟨front, bytes64 len⟩ :: rest)
      rw [reads_name, announced, if_pos ⟨rfl, Nat.not_lt.mp long⟩]
      exact Nat.le_refl 4

end Own

section Executed

variable {order : TcpdOrder} {left right : Front} {state state' : FrontTcpd}
  {event : FrontEvent} {events : List FrontEvent} {emitted : List TcpdEffect} {calls : List Issue}

theorem act_oversized {state : Tcpd} (ready : state.sender.Ready) (env : FrontEnv) {issue : Issue}
    (long : issue.Oversized) :
    Tcpd.act order state (issue.served env).event = .error (.tcpd (.exit 5)) := by
  obtain ⟨front, call⟩ := issue
  cases call with
  | send sockfd len buffer =>
    have long : bufLen < len.toNat := long
    simp only [Tcpd.act, Issue.served, FrontCall.event, Tcpd.step, Sender.step, ready, if_true,
      tcpdSend, long]
  | socket | bind | accept | recv | connect => cases long

theorem datagrams_request (issue : Issue) : ∃ data, issue.datagrams = issue.request ++ data := by
  obtain ⟨front, call⟩ := issue
  cases call with
  | send sockfd len buffer => exact ⟨[⟨front, buffer.bytes⟩], rfl⟩
  | socket | bind | accept | recv | connect => exact ⟨[], (List.append_nil _).symm⟩

theorem linearized_stop (stop : FrontStop) (merged : Interleaving left.issues right.issues calls)
    (taken : FrontTcpd.step order state event = .error stop)
    (served : SerialTcpd.step order ⟨state.tcpd, state.socketFD, calls⟩ event = .error stop) :
    LinearizedOn order left right state (event :: events) := by
  refine ⟨calls, event :: events, merged, rfl, ?_⟩
  simp only [Machine.exec, taken, served]
  exact .stopped stop

theorem linearized_next (prior : List Issue) (left' right' : Front)
    (addr : left'.addr = left.addr ∧ right'.addr = right.addr)
    (merges : ∀ calls, Interleaving left'.issues right'.issues calls →
      Interleaving left.issues right.issues (prior ++ calls))
    (taken : FrontTcpd.step order state event = .ok (state', emitted))
    (served : ∀ calls, SerialTcpd.step order ⟨state.tcpd, state.socketFD, prior ++ calls⟩ event =
      .ok (⟨state'.tcpd, state'.socketFD, calls⟩, emitted))
    (later : LinearizedOn order left' right' state' events) :
    LinearizedOn order left right state (event :: events) := by
  obtain ⟨calls, serial, merged, fronts, outcome⟩ := later
  refine ⟨prior ++ calls, event :: serial, merges calls merged, ?_, ?_⟩
  · rw [List.filterMap_cons, List.filterMap_cons, fronts]
  · simp only [Machine.exec, taken, served]
    generalize Machine.exec (FrontTcpd.step order) state' events = result at outcome ⊢
    generalize Machine.exec (SerialTcpd.step order) _ serial = result' at outcome ⊢
    cases outcome with
    | stopped stop => exact .stopped stop
    | ran final serial history history' tcpd done answered =>
      refine .ran final serial _ _ tcpd done ?_
      simp only [List.mem_cons, List.not_mem_nil, or_false, forall_eq_or_imp, forall_eq, addr,
        answersTo, Machine.outputs_cons, List.filterMap_append] at answered ⊢
      exact ⟨by rw [answered.1], by rw [answered.2]⟩

theorem LinearizedOn.symm (linearized : LinearizedOn order left right state events) :
    LinearizedOn order right left state events := by
  obtain ⟨calls, serial, merged, fronts, outcome⟩ := linearized
  refine ⟨calls, serial, merged.symm, fronts, ?_⟩
  generalize Machine.exec (FrontTcpd.step order) state events = result at outcome ⊢
  generalize Machine.exec (SerialTcpd.step order) _ serial = result' at outcome ⊢
  cases outcome with
  | stopped stop => exact .stopped stop
  | ran final serial history history' tcpd done answered =>
    refine .ran final serial history history' tcpd done ?_
    intro front member
    exact answered front (by simpa [or_comm] using member)

theorem sender_datagrams (front : Front) : ∀ datagram ∈ front.datagrams, datagram.sender = front.addr := by
  intro datagram member
  obtain ⟨issue, issued, inside⟩ := List.mem_flatMap.mp member
  obtain ⟨call, _, rfl⟩ := List.mem_map.mp issued
  obtain ⟨bytes, _, rfl⟩ := List.mem_map.mp inside
  rfl

theorem linearized_front {tcpd : Tcpd} {socketFD : Int32} {buf : Block bufLen} {queue : List Datagram}
    (ready : tcpd.sender.Ready) (env : FrontEnv) (apart : left.addr ≠ right.addr)
    (merged : Interleaving left.datagrams right.datagrams queue) {name : Datagram}
    (head : queue.head? = some name) (caller : name.sender = left.addr) (own : OwnReads env queue)
    (later : ∀ calls buf' rest tcpd' emitted,
      FrontTcpd.step order ⟨tcpd, socketFD, buf, queue⟩ (.front env) =
        .ok (⟨tcpd', socketFD, buf', rest⟩, emitted) →
      Interleaving (Front.datagrams ⟨left.addr, calls⟩) right.datagrams rest →
      LinearizedOn order ⟨left.addr, calls⟩ right ⟨tcpd', socketFD, buf', rest⟩ events) :
    LinearizedOn order left right ⟨tcpd, socketFD, buf, queue⟩ (.front env :: events) := by
  obtain ⟨addr, calls⟩ := left
  have some : queue ≠ [] := by
    intro none
    rw [none] at head
    cases head
  have foreign : ∀ datagram ∈ right.datagrams, datagram.sender ≠ addr := by
    intro datagram member same
    exact apart (same.symm.trans (sender_datagrams right datagram member))
  cases calls with
  | nil =>
    -- Then the queue has only datagrams of the other process.
    have member := merged.mem_iff.mp (List.mem_of_head? head)
    exact absurd caller (foreign name (member.resolve_left List.not_mem_nil))
  | cons call calls =>
    let issue : Issue := ⟨addr, call⟩
    have exits (rest : List Datagram) (long : issue.Oversized) (queued : queue = issue.request ++ rest) :
        LinearizedOn order ⟨addr, call :: calls⟩ right ⟨tcpd, socketFD, buf, queue⟩
          (.front env :: events) := by
      refine linearized_stop (.tcpd (.exit 5)) (.append _ _) ?_ ?_
      · simp only [FrontTcpd.step, ready, if_true, queued, fetchCall_oversized buf rest env long]
      · change SerialTcpd.step order ⟨tcpd, socketFD, issue :: (Front.issues ⟨addr, calls⟩ ++ _)⟩ _ = _
        simp only [SerialTcpd.step, ready, if_true, act_oversized ready env long]
    have reads := own name head
    rw [caller] at reads
    rcases own_call issue merged some reads foreign with
      ⟨long, rest, queued⟩ | ⟨rest, queued, merged⟩
    · exact exits rest long queued
    · by_cases long : issue.Oversized
      · obtain ⟨data, datagrams⟩ := datagrams_request issue
        rw [datagrams, List.append_assoc] at queued
        exact exits _ long queued
      · obtain ⟨buf', read, fetched, same⟩ := fetchCall_issue buf rest env issue long
        cases acted : Tcpd.act order tcpd (issue.served env).event with
        | error stop =>
          refine linearized_stop stop (.append _ _) ?_ ?_
          · simp only [FrontTcpd.step, ready, if_true, queued, fetched, same, acted]
          · change SerialTcpd.step order ⟨tcpd, socketFD, issue :: (Front.issues ⟨addr, calls⟩ ++ _)⟩ _ = _
            simp only [SerialTcpd.step, ready, if_true, acted]
        | ok result =>
          obtain ⟨tcpd', emitted⟩ := result
          have taken : FrontTcpd.step order ⟨tcpd, socketFD, buf, queue⟩ (.front env) =
              .ok (⟨tcpd', socketFD, buf', rest⟩, emitted) := by
            simp only [FrontTcpd.step, ready, if_true, queued, fetched, same, acted]
          refine linearized_next [issue] ⟨addr, calls⟩ right ⟨rfl, rfl⟩ ?_ taken ?_
            (later calls buf' rest tcpd' emitted taken merged)
          · intro calls' merges
            exact .left issue merges
          · intro calls'
            simp only [List.singleton_append, SerialTcpd.step, ready, if_true, acted]

theorem datagrams_nil {front : Front} (none : front.datagrams = []) : front.issues = [] := by
  obtain ⟨addr, calls⟩ := front
  cases calls with
  | nil => rfl
  | cons call calls => cases call <;> cases none

def callerFront : Front :=
  ⟨⟨2, 1, 0⟩, [.connect 5 ⟨2, 9, 0⟩ default, .send 5 2 ⟨[7, 8], rfl⟩, .accept 3]⟩

def otherFront : Front :=
  ⟨⟨2, 2, 0⟩, [.accept 4, .send 9 1 ⟨[6], rfl⟩, .accept 4]⟩

def firstFront : Front := ⟨⟨2, 1, 0⟩, [.accept 3]⟩

def secondFront : Front := ⟨⟨2, 2, 0⟩, [.accept 4]⟩

theorem serial_accept (socketFD : Int32) (front : SockAddr) (sockfd : Int32) (calls : List Issue)
    (env : FrontEnv) :
    SerialTcpd.step order ⟨.initial, socketFD, ⟨front, .accept sockfd⟩ :: calls⟩ (.front env) =
      .ok (⟨.initial, socketFD, calls⟩, [.receiver (.acceptError sockfd front (-1))]) := rfl

theorem serial_accepts_answered {socketFD : Int32} {calls : List Issue} {serial : List FrontEvent}
    {final : SerialTcpd} {history : Machine.History FrontEvent TcpdEffect}
    (accepts : ∀ issue ∈ calls, ∃ sockfd, issue.call = .accept sockfd)
    (fronts : serial.filterMap FrontEvent.background? = [])
    (ran : Machine.exec (SerialTcpd.step order) ⟨.initial, socketFD, calls⟩ serial = .ok (final, history))
    (done : final.calls = []) {issue : Issue} (member : issue ∈ calls) :
    answersTo issue.front history ≠ [] := by
  induction serial generalizing calls history with
  | nil =>
    cases ran
    have none : calls = [] := done
    simp [none] at member
  | cons event rest ih =>
    -- Each event takes the next call, and only the last leaves none.
    obtain ⟨next, emitted, later, taken, continued, rfl⟩ := Machine.exec_cons_ok ran
    cases event with
    | background event => simp [FrontEvent.background?] at fronts
    | recvAck malloc now => cases taken
    | front env =>
      cases calls with
      | nil => cases member
      | cons head tail =>
        obtain ⟨sockfd, called⟩ := accepts head (List.mem_cons_self ..)
        obtain ⟨front, call⟩ := head
        obtain rfl : call = .accept sockfd := called
        rw [serial_accept] at taken
        cases taken
        rcases List.mem_cons.mp member with rfl | behind
        · simp [answersTo, TcpdEffect.datagram?, ReceiverEffect.datagram?]
        · have answered := ih (fun issue inside => accepts issue (List.mem_cons_of_mem _ inside))
            fronts continued behind
          intro none
          simp only [answersTo, Machine.outputs_cons, List.filterMap_append, List.append_eq_nil_iff]
            at none
          exact answered none.2

end Executed

end NetworkProj.Daemon
