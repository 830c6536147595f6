import NetworkProj.Sender.Window

set_option autoImplicit false

namespace NetworkProj.Sending

def Earliest (sock : ConnectedSocket) (first : TrollMessage) : Prop :=
  first ∈ sock.packages ∧ ∀ other ∈ sock.packages, first.seqNum ≤ other.seqNum

/-- What `SolveSendCallback` is to make of a connection. -/
structure Progresses (sock sock' : ConnectedSocket) : Prop where
  timed : sock'.pendingPackages ≠ [] → sock'.packages ≠ []
  spaced : ∀ now ∈ sock'.pendingPackages, ∀ first, Earliest sock first →
    maxBufferPackages + first.seqNum.toNat ≤ now.seqNum.toNat
  once : ∀ message ∈ unacked sock,
    Xor (message ∈ sock'.packages) (message ∈ sock'.pendingPackages)

/-- With nothing in flight, a pending package lies below the number that `MinSeq` then allows; else
none lies between that number and the end of the window. -/
structure Reaches (sock : ConnectedSocket) : Prop where
  idle : sock.packages = [] → sock.pendingPackages = [] ∨
    ∃ now ∈ sock.pendingPackages, now.seqNum.toNat < farthest
  busy : ∀ first, Earliest sock first → ∀ now ∈ sock.pendingPackages,
    now.seqNum.toNat < farthest ∨ maxBufferPackages + first.seqNum.toNat ≤ now.seqNum.toNat

theorem mem_transmits {sock : ConnectedSocket} {now : TrollMessage} :
    now ∈ transmits sock ↔
      now ∈ sock.pendingPackages ∧ now.seqNum.toNat < (limitOf sock).toNat := by
  simp [transmits, UInt32.lt_iff_toNat_lt]

theorem mem_withholds {sock : ConnectedSocket} {now : TrollMessage} :
    now ∈ withholds sock ↔
      now ∈ sock.pendingPackages ∧ (limitOf sock).toNat ≤ now.seqNum.toNat := by
  simp [withholds, UInt32.le_iff_toNat_le]

theorem limitOf_idle {sock : ConnectedSocket} (none : sock.packages = []) :
    (limitOf sock).toNat = farthest := by
  rw [limitOf_toNat, none]
  rfl

-- `MinSeq` is the smallest number in flight unless its initial value is smaller.
theorem limitOf_busy {sock : ConnectedSocket} {first : TrollMessage} (earliest : Earliest sock first) :
    (limitOf sock).toNat = min farthest (maxBufferPackages + first.seqNum.toNat) := by
  obtain ⟨member, least⟩ := earliest
  have below := UInt32.le_iff_toNat_le.mp (minSeqOf_least member)
  have bound := minSeqOf_le sock.packages
  rw [limitOf_toNat, farthest]
  rcases minSeqOf_found sock.packages with initial | ⟨found, stored, same⟩
  · rw [initial] at below ⊢
    change 100000000 ≤ first.seqNum.toNat at below
    change 100000000 + maxBufferPackages = _
    omega
  · have order := UInt32.le_iff_toNat_le.mp (least found stored)
    rw [← same] at below bound ⊢
    omega

theorem once_transmitted {sock : ConnectedSocket}
    (distinct : ((unacked sock).map TrollMessage.seqNum).Nodup) {message : TrollMessage}
    (member : message ∈ unacked sock) :
    Xor (message ∈ (transmitted sock).packages) (message ∈ (transmitted sock).pendingPackages) := by
  have apart : ∀ other ∈ sock.pendingPackages, other ∉ sock.packages := by
    intro other pending stored
    rw [unacked, List.map_append] at distinct
    exact (List.nodup_append.mp distinct).2.2 _ (List.mem_map_of_mem stored) _
      (List.mem_map_of_mem pending) rfl
  change Xor (message ∈ sock.packages ++ transmits sock) (message ∈ withholds sock)
  rw [List.mem_append, mem_transmits, mem_withholds]
  rcases List.mem_append.mp member with stored | pending
  · exact .inl ⟨.inl stored, fun held => apart message held.1 stored⟩
  · by_cases inside : message.seqNum.toNat < (limitOf sock).toNat
    · exact .inl ⟨.inr ⟨pending, inside⟩, fun held => by omega⟩
    · refine .inr ⟨⟨pending, by omega⟩, ?_⟩
      rintro (stored | ⟨_, sent⟩)
      · exact apart message pending stored
      · exact inside sent

theorem progresses_of_reaches {sock : ConnectedSocket}
    (distinct : ((unacked sock).map TrollMessage.seqNum).Nodup) (reaches : Reaches sock) :
    Progresses sock (transmitted sock) where
  timed := by
    intro left empty
    obtain ⟨idle, silent⟩ := List.append_eq_nil_iff.mp empty
    rcases reaches.idle idle with nothing | ⟨now, pending, low⟩
    · apply left
      change withholds sock = []
      rw [withholds, nothing]
      rfl
    · have sent : now ∈ transmits sock := mem_transmits.mpr ⟨pending, by rwa [limitOf_idle idle]⟩
      rw [silent] at sent
      cases sent
  spaced := by
    intro now held first earliest
    obtain ⟨pending, beyond⟩ := mem_withholds.mp held
    rw [limitOf_busy earliest] at beyond
    rcases reaches.busy first earliest now pending with low | far
    · omega
    · exact far
  once := fun _ member => once_transmitted distinct member

theorem reaches_of_progresses {sock : ConnectedSocket}
    (progresses : Progresses sock (transmitted sock)) : Reaches sock where
  idle := by
    intro idle
    by_cases nothing : sock.pendingPackages = []
    · exact .inl nothing
    · right
      by_contra high
      push Not at high
      -- Then every pending package is held back, and nothing is sent.
      obtain ⟨now, pending⟩ := List.exists_mem_of_ne_nil _ nothing
      have held : now ∈ withholds sock :=
        mem_withholds.mpr ⟨pending, by rw [limitOf_idle idle]; exact high now pending⟩
      have running := progresses.timed (List.ne_nil_of_mem held)
      obtain ⟨sent, member⟩ := List.exists_mem_of_ne_nil _ running
      rcases List.mem_append.mp member with stored | sending
      · rw [idle] at stored
        cases stored
      · obtain ⟨waiting, low⟩ := mem_transmits.mp sending
        rw [limitOf_idle idle] at low
        exact absurd low (Nat.not_lt.mpr (high sent waiting))
  busy := by
    intro first earliest now pending
    by_cases low : now.seqNum.toNat < farthest
    · exact .inl low
    · have limit := limitOf_busy earliest
      have held : now ∈ withholds sock := mem_withholds.mpr ⟨pending, by omega⟩
      exact .inr (progresses.spaced now held first earliest)

theorem progress_iff {order : IterOrder Int32} {state state' : Sender} {clock : Nat → TimeVal}
    {effects : List SenderEffect}
    (ran : solveSendCallback order state clock = .ok (state', effects)) {sockfd : Int32}
    {sock : ConnectedSocket} (found : state.connectedSockets.find sockfd = some sock)
    (distinct : ((sock.packages ++ sock.pendingPackages).map TrollMessage.seqNum).Nodup) :
    ∃ sock', state'.connectedSockets.find sockfd = some sock' ∧
      (Progresses sock sock' ↔ Reaches sock) := by
  refine ⟨transmitted sock, ?_, reaches_of_progresses, progresses_of_reaches distinct⟩
  rw [solveSend_find ran, found]
  rfl

def alone (sock : ConnectedSocket) : Sender where
  connectedSockets := Table.empty.insert sock.socketFD sock
  inBufferPackages := (unacked sock).length
  estimator := .initial

def package (seqNum : UInt32) : TrollMessage :=
  { (default : TrollMessage) with session := 7, seqNum }

/-- The third package has not been acked, the first one has timed out, and the last one is at the end
of the window. -/
def halfway : ConnectedSocket :=
  { newSock 5 default 7 with
    base := 68
    packages := [package 3]
    pendingPackages := [package 67, package 1] }

theorem progress_halfway :
    (transmitted halfway).packages = [package 3, package 1] ∧
      (transmitted halfway).pendingPackages = [package 67] ∧
      Progresses halfway (transmitted halfway) := by
  obtain ⟨state', effects, ran⟩ :=
    solveSend_total (.insertion Int32) (alone halfway) fun _ => default
  have found : (alone halfway).connectedSockets.find 5 = some halfway := rfl
  obtain ⟨sock', found', reaches⟩ := progress_iff ran found (by decide)
  rw [solveSend_find ran, found] at found'
  cases found'
  refine ⟨rfl, rfl, reaches.mpr ⟨by rintro ⟨⟩, ?_⟩⟩
  intro first _ now pending
  left
  change now ∈ [package 67, package 1] at pending
  rw [List.mem_pair] at pending
  rcases pending with rfl | rfl
  · decide
  · decide

def pendingOnly (seqNum : UInt32) : ConnectedSocket :=
  { newSock 5 default 7 with
    base := seqNum + 1
    pendingPackages := [package seqNum] }

/-- Nothing is in flight, and the one package left is never sent: its number is past what the
initial value of `MinSeq` allows. -/
theorem connection_silent :
    ∃ state' effects sock',
      solveSendCallback (.insertion Int32) (alone (pendingOnly 100000064)) (fun _ => default) =
        .ok (state', effects) ∧
      state'.connectedSockets.find 5 = some sock' ∧
      ((unacked (pendingOnly 100000064)).map TrollMessage.seqNum).Nodup ∧
      ¬ Progresses (pendingOnly 100000064) sock' := by
  obtain ⟨state', effects, ran⟩ :=
    solveSend_total (.insertion Int32) (alone (pendingOnly 100000064)) fun _ => default
  refine ⟨state', effects, transmitted (pendingOnly 100000064), ran, ?_, by decide, ?_⟩
  · rw [solveSend_find ran]
    rfl
  · intro progresses
    rcases (reaches_of_progresses progresses).idle rfl with nothing | ⟨now, pending, low⟩
    · cases nothing
    · rw [List.mem_singleton.mp pending] at low
      exact absurd low (by decide)

end NetworkProj.Sending
