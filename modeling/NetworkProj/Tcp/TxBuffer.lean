import NetworkProj.Model.TcpSocketBase

set_option autoImplicit false

namespace NetworkProj.Ns3

variable {β : Type} {lib : TcpTxBuffer β} {content : β → List UInt8}

/-- The documented behaviour of `SequenceNumber32` and of a `TcpTxBuffer` with the bytes `content`.
At a distance of half the sequence space the order may be either. -/
structure TcpTxBuffer.Lawful (lib : TcpTxBuffer β) (content : β → List UInt8) : Prop where
  less : ∀ left right, lib.less left right = true ↔
    lib.greater left right = false ∧ left ≠ right
  greater : ∀ left right, (left - right).toNat ≠ 2 ^ 31 →
    (lib.greater left right = true ↔
      0 < (left - right).toNat ∧ (left - right).toNat < 2 ^ 31)
  small : ∀ buffer, (content buffer).length < 2 ^ 31
  size : ∀ buffer, (lib.size buffer).toNat = (content buffer).length
  sizeFromSequence : ∀ buffer seq,
    (seq - lib.headSequence buffer).toNat ≤ (content buffer).length →
    (lib.sizeFromSequence buffer seq).toNat =
      (content buffer).length - (seq - lib.headSequence buffer).toNat
  fits : ∀ buffer maxSize seq, (lib.copyFromSequence buffer maxSize seq).length ≤ maxSize.toNat
  copyFromSequence : ∀ buffer maxSize seq,
    (seq - lib.headSequence buffer).toNat ≤ (content buffer).length →
    lib.copyFromSequence buffer maxSize seq =
      ((content buffer).drop (seq - lib.headSequence buffer).toNat).take maxSize.toNat
  keeps : ∀ buffer seq, lib.greater seq (lib.headSequence buffer) = false →
    lib.discardUpTo buffer seq = buffer
  discardUpTo : ∀ buffer seq, lib.greater seq (lib.headSequence buffer) = true →
    lib.headSequence (lib.discardUpTo buffer seq) = seq ∧
      content (lib.discardUpTo buffer seq) =
        (content buffer).drop (seq - lib.headSequence buffer).toNat
  add : ∀ buffer packet buffer', lib.add buffer packet = some buffer' →
    lib.headSequence buffer' = lib.headSequence buffer ∧
      content buffer' = content buffer ++ packet

/-- The sequence number of a position in the stream. -/
def place (isn : UInt32) (position : Nat) : UInt32 :=
  isn + UInt32.ofNat position

section Places

variable (isn : UInt32)

@[simp] theorem place_zero : place isn 0 = isn := by
  simp [place]

theorem place_add (position count : Nat) :
    place isn position + UInt32.ofNat count = place isn (position + count) := by
  simp [place, UInt32.ofNat_add, UInt32.add_assoc]

theorem place_sub {low high : Nat} (ordered : low ≤ high) (near : high - low < 2 ^ 32) :
    (place isn high - place isn low).toNat = high - low := by
  obtain ⟨distance, rfl⟩ := Nat.exists_eq_add_of_le ordered
  rw [← place_add, UInt32.add_comm, UInt32.add_sub_cancel]
  simp only [UInt32.toNat_ofNat']
  omega

theorem place_sub_back {low high : Nat} (ordered : low < high) (near : high - low < 2 ^ 32) :
    (place isn low - place isn high).toNat = 2 ^ 32 - (high - low) := by
  have forward := place_sub isn (Nat.le_of_lt ordered) near
  have back : place isn low - place isn high = 0 - (place isn high - place isn low) := by
    rw [UInt32.zero_sub, UInt32.neg_sub]
  rw [back, UInt32.toNat_sub, forward]
  simp only [UInt32.toNat_zero]
  omega

theorem greater_place (lawful : lib.Lawful content) {left right : Nat}
    (near : left < right + 2 ^ 31) (near' : right < left + 2 ^ 31) :
    lib.greater (place isn left) (place isn right) = true ↔ right < left := by
  rcases Nat.lt_trichotomy left right with below | rfl | above
  · have distance := place_sub_back isn below (by omega)
    rw [lawful.greater _ _ (by omega), distance]
    omega
  · have distance := place_sub isn (Nat.le_refl left) (by omega)
    rw [lawful.greater _ _ (by omega), distance]
    omega
  · have distance := place_sub isn (Nat.le_of_lt above) (by omega)
    rw [lawful.greater _ _ (by omega), distance]
    omega

theorem maxSequence_place (lawful : lib.Lawful content) {left right : Nat}
    (near : left < right + 2 ^ 31) (near' : right < left + 2 ^ 31) :
    maxSequence lib (place isn left) (place isn right) = place isn (max left right) := by
  unfold maxSequence
  rcases Nat.lt_trichotomy left right with below | rfl | above
  · have smaller : lib.less (place isn left) (place isn right) = true := by
      refine (lawful.less _ _).mpr ⟨?_, ?_⟩
      · rw [Bool.eq_false_iff, Ne, greater_place isn lawful near near']
        omega
      · intro same
        have distance := place_sub isn (Nat.le_of_lt below) (by omega)
        rw [same, UInt32.sub_self, UInt32.toNat_zero] at distance
        omega
    rw [if_pos smaller, Nat.max_eq_right (Nat.le_of_lt below)]
  · simp
  · have larger : ¬ lib.less (place isn left) (place isn right) = true := by
      intro smaller
      have not_greater := ((lawful.less _ _).mp smaller).1
      rw [Bool.eq_false_iff, Ne, greater_place isn lawful near near'] at not_greater
      omega
    rw [if_neg larger, Nat.max_eq_left (Nat.le_of_lt above)]

end Places

section TxBytes

structure TxBytes where
  head : UInt32
  bytes : List UInt8
  small : bytes.length < 2 ^ 31

-- `operator >` of two sequence numbers.
def seqGreater (left right : UInt32) : Bool :=
  (left > right && left - right ≤ 0x7fffffff) || (right > left && right - left > 0x7fffffff)

def txBytes : TcpTxBuffer TxBytes where
  less left right := !seqGreater left right && left != right
  greater := seqGreater
  headSequence buffer := buffer.head
  size buffer := UInt32.ofNat buffer.bytes.length
  sizeFromSequence buffer seq := UInt32.ofNat (buffer.bytes.length - (seq - buffer.head).toNat)
  copyFromSequence buffer maxSize seq :=
    (buffer.bytes.drop (seq - buffer.head).toNat).take maxSize.toNat
  discardUpTo buffer seq :=
    if seqGreater seq buffer.head then
      { head := seq
        bytes := buffer.bytes.drop (seq - buffer.head).toNat
        small := by
          have small := buffer.small
          rw [List.length_drop]
          omega }
    else
      buffer
  add buffer packet :=
    if room : (buffer.bytes ++ packet).length < 2 ^ 31 then
      some { head := buffer.head, bytes := buffer.bytes ++ packet, small := room }
    else
      none

theorem seqGreater_iff {left right : UInt32} (near : (left - right).toNat ≠ 2 ^ 31) :
    seqGreater left right = true ↔
      0 < (left - right).toNat ∧ (left - right).toNat < 2 ^ 31 := by
  have bound := UInt32.toNat_lt left
  have bound' := UInt32.toNat_lt right
  simp only [seqGreater, Bool.or_eq_true, Bool.and_eq_true, decide_eq_true_eq, gt_iff_lt,
    UInt32.lt_iff_toNat_lt, UInt32.le_iff_toNat_le, UInt32.toNat_sub,
    show (0x7fffffff : UInt32).toNat = 2 ^ 31 - 1 from rfl] at near ⊢
  omega

theorem txBytes_lawful : txBytes.Lawful TxBytes.bytes where
  less left right := by simp [txBytes]
  greater left right near := seqGreater_iff near
  small buffer := buffer.small
  size buffer := by
    have small := buffer.small
    simp only [txBytes, UInt32.toNat_ofNat']
    omega
  sizeFromSequence buffer seq inside := by
    have small := buffer.small
    simp only [txBytes, UInt32.toNat_ofNat']
    omega
  fits buffer maxSize seq := by
    simp only [txBytes, List.length_take]
    omega
  copyFromSequence buffer maxSize seq inside := rfl
  keeps buffer seq old := by
    simp only [txBytes] at old ⊢
    rw [if_neg (by simp [old])]
  discardUpTo buffer seq newer := by
    simp only [txBytes] at newer ⊢
    rw [if_pos newer]
    exact ⟨rfl, rfl⟩
  add buffer packet buffer' added := by
    simp only [txBytes] at added
    split at added
    · cases added
      exact ⟨rfl, rfl⟩
    · cases added

end TxBytes

section Example

def exampleBuffer : TxBytes where
  head := 0xfffffffe
  bytes := [1, 2, 3, 4, 5]
  small := by decide

def exampleTcb : TcpSocketState where
  cWnd := 0
  ssThresh := 0
  initialCWnd := 2
  initialSsThresh := 65535
  segmentSize := 2
  congState := .open

def exampleAttributes : TcpAttributes where
  retxThresh := 3
  limitedTx := true
  noDelay := true
  dataRetries := 6

def exampleSegment : TcpSegment where
  sequenceNumber := 0
  ackNumber := 0
  receivedWindow := 9
  fin := false
  packetSize := 0

end Example

end NetworkProj.Ns3
