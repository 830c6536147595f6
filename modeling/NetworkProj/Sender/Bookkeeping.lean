import Mathlib.Data.List.Perm.Subperm
import NetworkProj.Sender.Moves

set_option autoImplicit false

namespace NetworkProj.Sending

section Window

theorem minSeqOf_fold (packages : List TrollMessage) (start : UInt32) :
    let least := packages.foldl
      (fun minSeq tmp => if tmp.seqNum < minSeq then tmp.seqNum else minSeq) start
    least ≤ start ∧ (∀ now ∈ packages, least ≤ now.seqNum) ∧
      (least = start ∨ ∃ now ∈ packages, now.seqNum = least) := by
  induction packages generalizing start with
  | nil => exact ⟨UInt32.le_refl start, by simp, .inl rfl⟩
  | cons head rest ih =>
    simp only [List.foldl_cons]
    by_cases smaller : head.seqNum < start
    · rw [if_pos smaller]
      obtain ⟨below, least, found⟩ := ih head.seqNum
      refine ⟨UInt32.le_trans below (UInt32.le_of_lt smaller), ?_, ?_⟩
      · intro now member
        rcases List.mem_cons.mp member with rfl | inside
        · exact below
        · exact least now inside
      · rcases found with same | ⟨now, inside, same⟩
        · exact .inr ⟨head, by simp, same.symm⟩
        · exact .inr ⟨now, by simp [inside], same⟩
    · rw [if_neg smaller]
      obtain ⟨below, least, found⟩ := ih start
      refine ⟨below, ?_, ?_⟩
      · intro now member
        rcases List.mem_cons.mp member with rfl | inside
        · exact UInt32.le_trans below (UInt32.not_lt.mp smaller)
        · exact least now inside
      · rcases found with same | ⟨now, inside, same⟩
        · exact .inl same
        · exact .inr ⟨now, by simp [inside], same⟩

theorem minSeqOf_le (packages : List TrollMessage) : (minSeqOf packages).toNat ≤ 100000000 :=
  UInt32.le_iff_toNat_le.mp (minSeqOf_fold packages 100000000).1

theorem minSeqOf_least {packages : List TrollMessage} {now : TrollMessage}
    (member : now ∈ packages) : minSeqOf packages ≤ now.seqNum :=
  (minSeqOf_fold packages 100000000).2.1 now member

theorem minSeqOf_found (packages : List TrollMessage) :
    minSeqOf packages = 100000000 ∨ ∃ now ∈ packages, now.seqNum = minSeqOf packages :=
  (minSeqOf_fold packages 100000000).2.2

theorem limitOf_toNat (sock : ConnectedSocket) :
    (limitOf sock).toNat = (minSeqOf sock.packages).toNat + maxBufferPackages := by
  have bound := minSeqOf_le sock.packages
  have small : maxBufferPackages < 2 ^ 32 := by decide
  rw [limitOf, UInt32.toNat_add, UInt32.toNat_ofNat_of_lt' small]
  unfold maxBufferPackages
  omega

/-- No package is sent from this number on: `MinSeq` never exceeds its initial value. -/
def farthest : Nat := 100000000 + maxBufferPackages

theorem limitOf_le (sock : ConnectedSocket) : (limitOf sock).toNat ≤ farthest := by
  have bound := minSeqOf_le sock.packages
  rw [limitOf_toNat]
  unfold farthest
  omega

end Window

section Sockets

def unacked (sock : ConnectedSocket) : List TrollMessage :=
  sock.packages ++ sock.pendingPackages

/-- A package of one session that carries what the SEND of its number was given. -/
structure Genuine (session : UInt32) (sends : List (List UInt8)) (now : TrollMessage) : Prop where
  session : now.session = session
  intact : now.Intact
  fits : now.len.toNat ≤ bufLen
  payload : sends[now.seqNum.toNat]? = some now.payload

theorem Genuine.below {session : UInt32} {sends : List (List UInt8)} {now : TrollMessage}
    (genuine : Genuine session sends now) : now.seqNum.toNat < sends.length :=
  (List.getElem?_eq_some_iff.mp genuine.payload).1

theorem Genuine.more {session : UInt32} {sends : List (List UInt8)} {now : TrollMessage}
    (genuine : Genuine session sends now) (later : List (List UInt8)) :
    Genuine session (sends ++ later) now :=
  { genuine with payload := by rw [List.getElem?_append_left genuine.below, genuine.payload] }

/-- The books of one socket, given the valid acks that came in on it and the payloads sent on it. -/
structure Booked (acks : List TrollAck) (sends : List (List UInt8)) (sock : ConnectedSocket) :
    Prop where
  numbers : ((unacked sock).map TrollMessage.seqNum).Nodup
  genuine : ∀ now ∈ unacked sock, Genuine sock.session sends now
  count : sends.length = sock.base.toNat
  windowed : ∀ now ∈ sock.packages, now.seqNum.toNat < farthest
  unsent : ∀ seqNum : UInt32, farthest ≤ seqNum.toNat → seqNum < sock.base →
    ∃ now ∈ sock.pendingPackages, now.seqNum = seqNum
  acked : ∀ seqNum : UInt32, seqNum < sock.base → (∀ now ∈ unacked sock, now.seqNum ≠ seqNum) →
    ∃ ack ∈ acks, ack.session = sock.session ∧ ack.seqNum = seqNum

variable {acks : List TrollAck} {sends : List (List UInt8)} {sock : ConnectedSocket}

-- Packages from `farthest` on fill the buffer, so `Base` stays far below its wrap.
theorem base_bounded (booked : Booked acks sends sock) :
    sock.base.toNat ≤ farthest + sock.pendingPackages.length := by
  by_contra beyond
  have listed : List.range' farthest (sock.base.toNat - farthest) ⊆
      sock.pendingPackages.map fun now => now.seqNum.toNat := by
    intro number member
    rw [List.mem_range'_1] at member
    have small : number < 2 ^ 32 := by
      have bound := sock.base.toNat_lt
      omega
    obtain ⟨now, inside, same⟩ := booked.unsent (UInt32.ofNat number)
      (by rw [UInt32.toNat_ofNat_of_lt' small]; omega)
      (by rw [UInt32.lt_iff_toNat_lt, UInt32.toNat_ofNat_of_lt' small]; omega)
    refine List.mem_map.mpr ⟨now, inside, ?_⟩
    rw [same, UInt32.toNat_ofNat_of_lt' small]
  have length := (List.Nodup.subperm List.nodup_range' listed).length_le
  rw [List.length_range', List.length_map] at length
  omega

theorem booked_new (sockfd : Int32) (session : UInt32) (addr : SockAddr) :
    Booked acks [] (newSock sockfd addr session) where
  numbers := .nil
  genuine := by simp [unacked, newSock]
  count := rfl
  windowed := by simp [newSock]
  unsent := by simp [newSock]
  acked := by simp [newSock]

theorem Booked.acks_mono {more : List TrollAck} (booked : Booked acks sends sock)
    (inside : acks ⊆ more) : Booked more sends sock :=
  { booked with
    acked := by
      intro seqNum below missing
      obtain ⟨ack, member, same⟩ := booked.acked seqNum below missing
      exact ⟨ack, inside member, same⟩ }

theorem wrapPackage_payload {len : UInt64} {buf body : Block bufLen} {malloc : TrollMessage}
    (sock : ConnectedSocket) (copied : buf.bcopy 0 malloc.body 0 len.toNat = some body) :
    (wrapPackage sock len body malloc).payload = buf.take len.toNat := by
  have appended := Block.bcopy_appends buf malloc.body copied
  simpa [TrollMessage.payload, wrapPackage, TrollMessage.sealed] using appended

theorem booked_send (booked : Booked acks sends sock) {len : UInt64} {buf body : Block bufLen}
    {malloc : TrollMessage} (short : len.toNat ≤ bufLen)
    (copied : buf.bcopy 0 malloc.body 0 len.toNat = some body)
    (unwrapped : sock.base.toNat + 1 < 2 ^ 32) :
    Booked acks (sends ++ [buf.take len.toNat])
      { sock with
        base := sock.base + 1
        pendingPackages := sock.pendingPackages ++ [wrapPackage sock len body malloc] } := by
  have base := toNat_succ unwrapped
  have members (now : TrollMessage) :
      now ∈ sock.packages ++ (sock.pendingPackages ++ [wrapPackage sock len body malloc]) ↔
        now ∈ unacked sock ∨ now = wrapPackage sock len body malloc := by
    rw [← List.append_assoc, List.mem_append, List.mem_singleton]
    rfl
  have count := booked.count
  constructor
  · simp only [unacked, ← List.append_assoc, List.map_append]
    rw [← List.map_append]
    apply List.Nodup.append booked.numbers (by simp)
    intro seqNum old new
    obtain ⟨now, member, same⟩ := List.mem_map.mp old
    have below := (booked.genuine now member).below
    rw [List.map_singleton, List.mem_singleton] at new
    rw [same, new, count] at below
    exact Nat.lt_irrefl sock.base.toNat below
  · intro now member
    rcases (members now).mp member with old | rfl
    · exact (booked.genuine now old).more _
    · refine ⟨rfl, TrollMessage.sealed_intact _, short, ?_⟩
      rw [wrapPackage_payload sock copied]
      change (sends ++ [buf.take len.toNat])[sock.base.toNat]? = _
      rw [← count]
      simp
  · change (sends ++ [buf.take len.toNat]).length = (sock.base + 1).toNat
    rw [List.length_append, List.length_singleton, count, base]
  · exact booked.windowed
  · intro seqNum far below
    rw [UInt32.lt_iff_toNat_lt, base] at below
    by_cases old : seqNum.toNat < sock.base.toNat
    · obtain ⟨now, member, same⟩ := booked.unsent seqNum far (UInt32.lt_iff_toNat_lt.mpr old)
      exact ⟨now, List.mem_append_left _ member, same⟩
    · refine ⟨wrapPackage sock len body malloc, by simp, UInt32.toNat_inj.mp ?_⟩
      change sock.base.toNat = _
      omega
  · intro seqNum below missing
    rw [UInt32.lt_iff_toNat_lt, base] at below
    by_cases old : seqNum.toNat < sock.base.toNat
    · exact booked.acked seqNum (UInt32.lt_iff_toNat_lt.mpr old) fun now member =>
        missing now ((members now).mpr (.inl member))
    · refine absurd (UInt32.toNat_inj.mp ?_) (missing _ ((members _).mpr (.inr rfl)))
      change sock.base.toNat = _
      omega

theorem booked_acked (booked : Booked acks sends sock) {before after : List TrollMessage}
    {message : TrollMessage} (split : sock.packages = before ++ message :: after) {ack : TrollAck}
    (session : message.session = ack.session) (seqNum : message.seqNum = ack.seqNum) :
    Booked (acks ++ [ack]) sends { sock with packages := before ++ after } := by
  have perm : (unacked sock).Perm (message :: (before ++ after ++ sock.pendingPackages)) := by
    rw [unacked, split, List.append_assoc, List.append_assoc]
    exact List.perm_middle
  have members (now : TrollMessage) (member : now ∈ before ++ after ++ sock.pendingPackages) :
      now ∈ unacked sock :=
    perm.mem_iff.mpr (List.mem_cons_of_mem _ member)
  constructor
  · exact (List.nodup_cons.mp ((perm.map _).nodup_iff.mp booked.numbers)).2
  · exact fun now member => booked.genuine now (members now member)
  · exact booked.count
  · intro now member
    apply booked.windowed
    rw [split]
    exact List.mem_append.mpr ((List.mem_append.mp member).imp id (List.mem_cons_of_mem _))
  · exact booked.unsent
  · intro number below missing
    by_cases removed : message.seqNum = number
    · refine ⟨ack, by simp, ?_, seqNum.symm.trans removed⟩
      rw [← session]
      exact (booked.genuine message (perm.mem_iff.mpr (by simp))).session
    · obtain ⟨old, member, same⟩ := booked.acked number below (by
        intro now member
        rcases List.mem_cons.mp (perm.mem_iff.mp member) with rfl | kept
        · exact removed
        · exact missing now kept)
      exact ⟨old, List.mem_append_left _ member, same⟩

theorem Booked.moved (booked : Booked acks sends sock) {packages pending : List TrollMessage}
    {minSeq : UInt32} (perm : (packages ++ pending).Perm (unacked sock))
    (windowed : ∀ now ∈ packages, now.seqNum.toNat < farthest)
    (unsent : ∀ seqNum : UInt32, farthest ≤ seqNum.toNat → seqNum < sock.base →
      ∃ now ∈ pending, now.seqNum = seqNum) :
    Booked acks sends { sock with minSeq, packages, pendingPackages := pending } where
  numbers := (perm.map _).nodup_iff.mpr booked.numbers
  genuine := fun now member => booked.genuine now (perm.mem_iff.mp member)
  count := booked.count
  windowed := windowed
  unsent := unsent
  acked := fun seqNum below missing => booked.acked seqNum below fun now member =>
    missing now (perm.mem_iff.mpr member)

theorem unacked_expire {before after : List TrollMessage} {message : TrollMessage}
    (split : sock.packages = before ++ message :: after) :
    ((before ++ after) ++ (sock.pendingPackages ++ [message])).Perm (unacked sock) := by
  rw [unacked, split, ← List.append_assoc, List.append_assoc before]
  apply (List.perm_append_singleton message _).trans
  rw [List.append_assoc]
  exact List.perm_middle.symm

theorem booked_expire (booked : Booked acks sends sock) {before after : List TrollMessage}
    {message : TrollMessage} (split : sock.packages = before ++ message :: after) :
    Booked acks sends { sock with
      packages := before ++ after
      pendingPackages := sock.pendingPackages ++ [message] } := by
  apply booked.moved (unacked_expire split)
  · intro now member
    apply booked.windowed
    rw [split]
    exact List.mem_append.mpr ((List.mem_append.mp member).imp id (List.mem_cons_of_mem _))
  · intro seqNum far below
    obtain ⟨now, member, same⟩ := booked.unsent seqNum far below
    exact ⟨now, List.mem_append_left _ member, same⟩

theorem unacked_transmitted (sock : ConnectedSocket) :
    ((sock.packages ++ transmits sock) ++ withholds sock).Perm (unacked sock) := by
  have withheld : withholds sock =
      sock.pendingPackages.filter fun now => !decide (now.seqNum < limitOf sock) := by
    simp only [withholds, decide_not]
  rw [List.append_assoc, unacked, withheld, transmits]
  apply List.Perm.append_left
  exact List.filter_append_perm (fun now : TrollMessage => decide (now.seqNum < limitOf sock)) _

theorem booked_transmitted (booked : Booked acks sends sock) :
    Booked acks sends (transmitted sock) := by
  have limit := limitOf_le sock
  apply booked.moved (unacked_transmitted sock)
  · intro now member
    rcases List.mem_append.mp member with old | new
    · exact booked.windowed now old
    · have inside := (List.mem_filter.mp new).2
      rw [decide_eq_true_eq, UInt32.lt_iff_toNat_lt] at inside
      omega
  · intro seqNum far below
    obtain ⟨now, member, same⟩ := booked.unsent seqNum far below
    refine ⟨now, List.mem_filter.mpr ⟨member, ?_⟩, same⟩
    rw [decide_eq_true_eq, UInt32.lt_iff_toNat_lt, same]
    omega

end Sockets

section Counter

variable {order : IterOrder Int32} {history : Machine.History SenderEvent SenderEffect}
  {state state' : Sender} {event : SenderEvent} {emitted : List SenderEffect}

def connected (events : List SenderEvent) : List Int32 :=
  events.filterMap fun
    | .connect _ sockfd _ _ => some sockfd
    | _ => none

@[simp] theorem connected_append (left right : List SenderEvent) :
    connected (left ++ right) = connected left ++ connected right :=
  List.filterMap_append

def opened (events : List SenderEvent) : List (Int32 × UInt32) :=
  events.filterMap fun
    | .connect _ sockfd _ rand => some (sockfd, rand)
    | _ => none

def sessions (events : List SenderEvent) : List UInt32 :=
  (opened events).map Prod.snd

@[simp] theorem opened_append (left right : List SenderEvent) :
    opened (left ++ right) = opened left ++ opened right :=
  List.filterMap_append

@[simp] theorem sessions_append (left right : List SenderEvent) :
    sessions (left ++ right) = sessions left ++ sessions right := by
  simp [sessions]

theorem opened_sockets (events : List SenderEvent) :
    (opened events).map Prod.fst = connected events := by
  rw [opened, List.map_filterMap, connected]
  congr 1
  funext event
  cases event <;> rfl

theorem run_opened (run : Machine.Run (Sender.step order) .initial history state) {sockfd : Int32}
    {sock : ConnectedSocket} (found : state.connectedSockets.find sockfd = some sock) :
    (sockfd, sock.session) ∈ opened (Machine.events history) := by
  induction run generalizing sock with
  | start => cases found
  | next event state' emitted before taken ih =>
    rw [Machine.events_append, opened_append, List.mem_append]
    rcases step_sock (step_move taken) found with
      ⟨front, addr, rand, rfl, rfl⟩ | ⟨old, present, move⟩
    · exact .inr (by simp [opened, newSock])
    · rw [move.session]
      exact .inl (ih present)

theorem run_known (run : Machine.Run (Sender.step order) .initial history state) {sockfd : Int32}
    {sock : ConnectedSocket} (found : state.connectedSockets.find sockfd = some sock) :
    sockfd ∈ connected (Machine.events history) := by
  rw [← opened_sockets]
  exact List.mem_map_of_mem (run_opened run found)

theorem session_unique (run : Machine.Run (Sender.step order) .initial history state)
    (distinct : (sessions (Machine.events history)).Nodup) {sockfd sockfd' : Int32}
    {sock sock' : ConnectedSocket} (found : state.connectedSockets.find sockfd = some sock)
    (found' : state.connectedSockets.find sockfd' = some sock')
    (same : sock.session = sock'.session) : sockfd = sockfd' :=
  congrArg Prod.fst (List.inj_on_of_nodup_map distinct (run_opened run found)
    (run_opened run found') same)

theorem connect_fresh (run : Machine.Run (Sender.step order) .initial history state)
    {front addr : SockAddr} {sockfd : Int32} {rand : UInt32}
    (once : (connected (Machine.events history ++ [.connect front sockfd addr rand])).Nodup) :
    state.connectedSockets.find sockfd = none := by
  by_contra present
  obtain ⟨sock, found⟩ := Option.ne_none_iff_exists'.mp present
  rw [connected_append, List.nodup_append] at once
  exact once.2.2 sockfd (run_known run found) sockfd (by simp [connected]) rfl

theorem session_fresh (run : Machine.Run (Sender.step order) .initial history state)
    {front addr : SockAddr} {sockfd : Int32} {rand : UInt32}
    (distinct : (sessions (Machine.events history ++ [.connect front sockfd addr rand])).Nodup)
    {other : Int32} {sock : ConnectedSocket}
    (found : state.connectedSockets.find other = some sock) : sock.session ≠ rand := by
  rw [sessions_append, List.nodup_append] at distinct
  exact distinct.2.2 _ (List.mem_map_of_mem (run_opened run found)) rand
    (by simp [sessions, opened])

def held (state : Sender) : Nat :=
  state.connectedSockets.total fun sock => sock.packages.length + sock.pendingPackages.length

theorem step_held (move : SenderMove order state event state' emitted) :
    (state'.inBufferPackages - held state' = state.inBufferPackages - held state ∨
      ∃ front sockfd addr rand sock, event = .connect front sockfd addr rand ∧
        state.connectedSockets.find sockfd = some sock ∧
        state'.inBufferPackages = state.inBufferPackages ∧ held state' ≤ held state) ∧
      (state.inBufferPackages ≤ maxBufferPackages → state'.inBufferPackages ≤ maxBufferPackages) := by
  let weight (sock : ConnectedSocket) := sock.packages.length + sock.pendingPackages.length
  cases move with
  | connect front sockfd addr rand ready =>
    refine ⟨?_, id⟩
    cases found : state.connectedSockets.find sockfd with
    | none =>
      have total := state.connectedSockets.total_insert_new weight sockfd
        (newSock sockfd addr rand) found
      exact .inl (congrArg (fun sum : Nat => state.inBufferPackages - sum) total)
    | some sock =>
      have total := state.connectedSockets.total_insert_old weight sockfd sock
        (newSock sockfd addr rand) found
      exact .inr ⟨front, sockfd, addr, rand, sock, rfl, found, rfl, (Nat.le_add_right _ _).trans total.le⟩
  | send front sockfd len buf malloc sock body ready short found copied =>
    have total := state.connectedSockets.total_insert_old weight sockfd sock
      { sock with
        base := sock.base + 1
        pendingPackages := sock.pendingPackages ++ [wrapPackage sock len body malloc] } found
    unfold Sender.Ready at ready
    simp only [weight, List.length_append, List.length_singleton] at total
    simp only [held]
    exact ⟨.inl (by omega), fun _ => by omega⟩
  | garbled | unmatched | stale => exact ⟨.inl rfl, id⟩
  | acked sockfd ack now estimator sock before message after intact found split session seqNum =>
    have total := state.connectedSockets.total_insert_old weight sockfd sock
      { sock with packages := before ++ after } found
    simp only [weight, split, List.length_append, List.length_cons] at total
    simp only [held]
    exact ⟨.inl (by omega), fun _ => by omega⟩
  | expire expired sockfd sock before message after found session split own seqNum =>
    have total := state.connectedSockets.total_insert_old weight sockfd sock
      { sock with
        packages := before ++ after
        pendingPackages := sock.pendingPackages ++ [message] } found
    simp only [weight, split, List.length_append, List.length_cons, List.length_nil] at total
    simp only [held]
    exact ⟨.inl (by omega), id⟩
  | solve clock state' effects ran =>
    have total : held state' = held state := by
      apply Table.total_congr _ (solveSend_keys ran)
      intro sockfd
      rw [solveSend_find ran]
      cases state.connectedSockets.find sockfd with
      | none => rfl
      | some sock =>
        have length := (unacked_transmitted sock).length_eq
        simp only [unacked, List.length_append] at length
        simp only [transmitted, Option.map_some, Option.elim_some, List.length_append]
        omega
    rw [total, solveSend_inBufferPackages ran]
    exact ⟨.inl rfl, id⟩

theorem run_held (run : Machine.Run (Sender.step order) .initial history state) :
    held state ≤ state.inBufferPackages ∧ state.inBufferPackages ≤ maxBufferPackages := by
  induction run with
  | start => exact ⟨Int.le_refl 0, by decide⟩
  | next event state' emitted before taken ih =>
    obtain ⟨follows, capped⟩ := step_held (step_move taken)
    refine ⟨?_, capped ih.2⟩
    rcases follows with same | ⟨_, _, _, _, _, _, _, same, fewer⟩
    · omega
    · omega

theorem run_counted (run : Machine.Run (Sender.step order) .initial history state)
    (once : (connected (Machine.events history)).Nodup) : state.inBufferPackages = held state := by
  induction run with
  | start => rfl
  | next event state' emitted before taken ih =>
    rw [Machine.events_append] at once
    rcases (step_held (step_move taken)).1 with same | ⟨_, _, _, _, _, rfl, found, _⟩
    · rw [connected_append] at once
      have counted := ih once.of_append_left
      omega
    · cases (connect_fresh before once).symm.trans found

end Counter

section Books

variable {order : IterOrder Int32} {history : Machine.History SenderEvent SenderEffect}
  {state state' : Sender} {event : SenderEvent} {emitted : List SenderEffect}
  {sockets : Table Int32 ConnectedSocket}

def sends (sockfd : Int32) (events : List SenderEvent) : List (List UInt8) :=
  events.filterMap fun
    | .send _ other len buf _ => if other = sockfd then some (buf.take len.toNat) else none
    | _ => none

def validAcks (sockfd : Int32) (events : List SenderEvent) : List TrollAck :=
  events.filterMap fun
    | .ack other ack _ => if other = sockfd ∧ ack.Intact then some ack else none
    | _ => none

@[simp] theorem sends_append (sockfd : Int32) (left right : List SenderEvent) :
    sends sockfd (left ++ right) = sends sockfd left ++ sends sockfd right :=
  List.filterMap_append

@[simp] theorem validAcks_append (sockfd : Int32) (left right : List SenderEvent) :
    validAcks sockfd (left ++ right) = validAcks sockfd left ++ validAcks sockfd right :=
  List.filterMap_append

structure Books (history : Machine.History SenderEvent SenderEffect)
    (sockets : Table Int32 ConnectedSocket) : Prop where
  quiet : ∀ sockfd, sockets.find sockfd = none → sends sockfd (Machine.events history) = []
  keyed : ∀ sockfd sock, sockets.find sockfd = some sock → sock.socketFD = sockfd
  booked : ∀ sockfd sock, sockets.find sockfd = some sock →
    Booked (validAcks sockfd (Machine.events history)) (sends sockfd (Machine.events history)) sock
  sent : ∀ sockfd message, .data sockfd message ∈ Machine.outputs history →
    ∃ sock, sockets.find sockfd = some sock ∧
      Genuine sock.session (sends sockfd (Machine.events history)) message

theorem Books.update (books : Books history sockets) {sockfd : Int32} {sock sock' : ConnectedSocket}
    (found : sockets.find sockfd = some sock) (socketFD : sock'.socketFD = sock.socketFD)
    (session : sock'.session = sock.session)
    (booked : Booked (validAcks sockfd (Machine.events history ++ [event]))
      (sends sockfd (Machine.events history ++ [event])) sock')
    (elsewhere : ∀ other, other ≠ sockfd → sends other [event] = [])
    (silent : ∀ other message, .data other message ∉ emitted) :
    Books (history ++ [(event, emitted)]) (sockets.insert sockfd sock') := by
  constructor
  · intro other absent
    by_cases same : other = sockfd
    · rw [same, Table.find_insert] at absent
      cases absent
    · rw [Table.find_insert_of_ne _ _ _ _ same] at absent
      simpa [elsewhere other same] using books.quiet other absent
  · intro other now present
    rcases Table.find_insert_some present with ⟨rfl, rfl⟩ | ⟨_, present⟩
    · rw [socketFD]
      exact books.keyed other sock found
    · exact books.keyed other now present
  · intro other now present
    rcases Table.find_insert_some present with ⟨rfl, rfl⟩ | ⟨different, present⟩
    · simpa using booked
    · have kept := (books.booked other now present).acks_mono
        (List.subset_append_left _ (validAcks other [event]))
      simpa [elsewhere other different] using kept
  · intro other message member
    have earlier : SenderEffect.data other message ∈ Machine.outputs history := by
      simpa [silent other message] using member
    obtain ⟨now, present, genuine⟩ := books.sent other message earlier
    have genuine := genuine.more (sends other [event])
    rw [Machine.events_append, sends_append]
    by_cases same : other = sockfd
    · subst same
      obtain rfl := Option.some.inj (found.symm.trans present)
      refine ⟨sock', Table.find_insert _ _ _, ?_⟩
      rw [session]
      exact genuine
    · exact ⟨now, by rw [Table.find_insert_of_ne _ _ _ _ same, present], genuine⟩

theorem Books.idle (books : Books history sockets) (elsewhere : ∀ other, sends other [event] = [])
    (silent : ∀ other message, .data other message ∉ emitted) :
    Books (history ++ [(event, emitted)]) sockets := by
  constructor
  · intro other absent
    simpa [elsewhere other] using books.quiet other absent
  · exact books.keyed
  · intro other now present
    have kept := (books.booked other now present).acks_mono
      (List.subset_append_left _ (validAcks other [event]))
    simpa [elsewhere other] using kept
  · intro other message member
    have earlier : SenderEffect.data other message ∈ Machine.outputs history := by
      simpa [silent other message] using member
    simpa [elsewhere other] using books.sent other message earlier

theorem books_connect (books : Books history sockets) {front addr : SockAddr} {sockfd : Int32}
    {rand : UInt32} (fresh : sockets.find sockfd = none) :
    Books (history ++ [(.connect front sockfd addr rand, [.connectReturn front 0])])
      (sockets.insert sockfd (newSock sockfd addr rand)) := by
  have elsewhere (other : Int32) : sends other [.connect front sockfd addr rand] = [] := rfl
  constructor
  · intro other absent
    by_cases same : other = sockfd
    · rw [same, Table.find_insert] at absent
      cases absent
    · rw [Table.find_insert_of_ne _ _ _ _ same] at absent
      simpa [elsewhere other] using books.quiet other absent
  · intro other now present
    by_cases same : other = sockfd
    · rw [same, Table.find_insert] at present
      cases present
      exact same.symm
    · rw [Table.find_insert_of_ne _ _ _ _ same] at present
      exact books.keyed other now present
  · intro other now present
    rw [Machine.events_append, sends_append, validAcks_append]
    by_cases same : other = sockfd
    · rw [same, Table.find_insert] at present
      cases present
      rw [same, books.quiet sockfd fresh]
      exact booked_new sockfd rand addr
    · rw [Table.find_insert_of_ne _ _ _ _ same] at present
      simpa [elsewhere other, validAcks] using books.booked other now present
  · intro other message member
    have earlier : SenderEffect.data other message ∈ Machine.outputs history := by
      simpa using member
    obtain ⟨now, present, genuine⟩ := books.sent other message earlier
    have different : other ≠ sockfd := by
      rintro rfl
      cases fresh.symm.trans present
    rw [Machine.events_append, sends_append]
    exact ⟨now, by rw [Table.find_insert_of_ne _ _ _ _ different, present], genuine.more _⟩

theorem books_solve (books : Books history state.connectedSockets) {clock : Nat → TimeVal}
    (ran : solveSendCallback order state clock = .ok (state', emitted)) :
    Books (history ++ [(.solveSend clock, emitted)]) state'.connectedSockets := by
  have elsewhere (other : Int32) : sends other [.solveSend clock] = [] := rfl
  constructor
  · intro other absent
    rw [solveSend_find ran, Option.map_eq_none_iff] at absent
    simpa [elsewhere other] using books.quiet other absent
  · intro other now present
    rw [solveSend_find ran] at present
    obtain ⟨sock, found, rfl⟩ := Option.map_eq_some_iff.mp present
    exact books.keyed other sock found
  · intro other now present
    rw [solveSend_find ran] at present
    obtain ⟨sock, found, rfl⟩ := Option.map_eq_some_iff.mp present
    simpa [elsewhere other, validAcks] using booked_transmitted (books.booked other sock found)
  · intro other message member
    rw [Machine.outputs_append, List.mem_append] at member
    have same : sends other (Machine.events (history ++ [(.solveSend clock, emitted)])) =
        sends other (Machine.events history) := by simp [elsewhere other]
    rw [same, solveSend_find ran]
    rcases member with old | new
    · obtain ⟨now, present, genuine⟩ := books.sent other message old
      exact ⟨transmitted now, by rw [present, Option.map_some], genuine⟩
    · have own : message ∈ emitted.filterMap (dataOn other) :=
        List.mem_filterMap.mpr ⟨_, by simpa using new, by simp [dataOn]⟩
      rw [solveSend_data ran books.keyed other] at own
      cases found : state.connectedSockets.find other with
      | none => simp [found] at own
      | some sock =>
        rw [found, Option.map_some, Option.getD_some] at own
        refine ⟨transmitted sock, rfl, ?_⟩
        exact (books.booked other sock found).genuine message
          (List.mem_append_right _ (List.mem_of_mem_filter own))

theorem step_books (move : SenderMove order state event state' emitted)
    (fresh : ∀ front sockfd addr rand, event = .connect front sockfd addr rand →
      state.connectedSockets.find sockfd = none)
    (few : held state ≤ maxBufferPackages) (books : Books history state.connectedSockets) :
    Books (history ++ [(event, emitted)]) state'.connectedSockets := by
  cases move with
  | connect front sockfd addr rand ready =>
    exact books_connect books (fresh front sockfd addr rand rfl)
  | send front sockfd len buf malloc sock body ready short found copied =>
    have booked := books.booked sockfd sock found
    have bounded := base_bounded booked
    have weight := Table.weight_le_total
      (fun sock => sock.packages.length + sock.pendingPackages.length) found
    apply books.update found
    · rfl
    · rfl
    · have next := booked_send booked short copied (by
        simp only [held, maxBufferPackages, farthest] at few bounded
        omega)
      simpa [sends, validAcks] using next
    · intro other different
      simp [sends, Ne.symm different]
    · simp
  | garbled sockfd ack now estimator damaged => exact books.idle (fun _ => rfl) (by simp)
  | unmatched sockfd ack now estimator sock intact found absent =>
    exact books.idle (fun _ => rfl) (by simp)
  | acked sockfd ack now estimator sock before message after intact found split session seqNum =>
    apply books.update found
    · rfl
    · rfl
    · have next := booked_acked (books.booked sockfd sock found) split session seqNum
      simpa [sends, validAcks, intact] using next
    · exact fun _ _ => rfl
    · simp
  | stale expired sockfd sock found session absent => exact books.idle (fun _ => rfl) (by simp)
  | expire expired sockfd sock before message after found session split own seqNum =>
    apply books.update found
    · rfl
    · rfl
    · have next := booked_expire (books.booked sockfd sock found) split
      simpa [sends, validAcks] using next
    · exact fun _ _ => rfl
    · simp
  | solve clock state' effects ran => exact books_solve books ran

theorem run_books (run : Machine.Run (Sender.step order) .initial history state)
    (once : (connected (Machine.events history)).Nodup) : Books history state.connectedSockets := by
  induction run with
  | start => exact ⟨fun _ _ => rfl, by simp [Sender.initial], by simp [Sender.initial], by simp⟩
  | next event state' emitted before taken ih =>
    have earlier := once
    rw [Machine.events_append] at once
    rw [Machine.events_append, connected_append] at earlier
    have limits := run_held before
    apply step_books (step_move taken)
    · rintro front sockfd addr rand rfl
      exact connect_fresh before once
    · omega
    · exact ih earlier.of_append_left

theorem base_few (run : Machine.Run (Sender.step order) .initial history state)
    (once : (connected (Machine.events history)).Nodup) {sockfd : Int32} {sock : ConnectedSocket}
    (found : state.connectedSockets.find sockfd = some sock) :
    sock.base.toNat ≤ farthest + maxBufferPackages := by
  have bounded := base_bounded ((run_books run once).booked sockfd sock found)
  have limits := run_held run
  have weight := Table.weight_le_total
    (fun sock : ConnectedSocket => sock.packages.length + sock.pendingPackages.length) found
  simp only [held] at limits
  omega

end Books

end NetworkProj.Sending
