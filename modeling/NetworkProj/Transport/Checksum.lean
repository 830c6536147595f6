import NetworkProj.Shared.Crc
import NetworkProj.Model.Tcpd
import NetworkProj.Receiver.Reordering

set_option autoImplicit false

namespace NetworkProj.Delivery

open Reception

section Register

def polynomial : BitVec 32 := 0xEDB88320#32

def bitsOf (byte : UInt8) : List Bool :=
  (List.range 8).map byte.toBitVec.getLsbD

def bits (bytes : List UInt8) : List Bool :=
  bytes.flatMap bitsOf

theorem polynomial_top : polynomial.getLsbD (32 - 1) = true := by decide

-- The table holds what eight shifts make of each byte.
theorem crc32Tab_shift : ∀ index < 256, (crc32Tab.getD index 0).toBitVec =
    (Crc.shift polynomial)^[8] (BitVec.ofNat 32 index) := by
  decide +kernel

theorem word_bitsOf (byte : UInt8) : Crc.word 32 (bitsOf byte) = byte.toUInt32.toBitVec := by
  apply BitVec.eq_of_getLsbD_eq
  intro index inside
  rw [Crc.word_bit (by simp [bitsOf])]
  by_cases low : index < 8
  · simp [bitsOf, low, inside]
  · have high : byte.toBitVec.getLsbD index = false := BitVec.getLsbD_of_ge _ _ (by omega)
    simp [bitsOf, low, inside, high]

-- The low byte goes through the table, the others move down.
theorem shift_eight (register : BitVec 32) :
    (Crc.shift polynomial)^[8] register =
      (Crc.shift polynomial)^[8] (register &&& 0xFF#32) ^^^ register >>> 8 := by
  have split : register = (register &&& 0xFF#32) ^^^ (register >>> 8) <<< 8 := by
    apply BitVec.eq_of_getLsbD_eq
    intro index inside
    have mask : ∀ index < 32, (0xFF#32).getLsbD index = decide (index < 8) := by decide
    rw [BitVec.getLsbD_xor, BitVec.getLsbD_and, mask index inside, BitVec.getLsbD_shiftLeft,
      BitVec.getLsbD_ushiftRight]
    by_cases low : index < 8
    · simp [low]
    · simp [low, inside, show 8 + (index - 8) = index by omega]
  have high : (Crc.shift polynomial)^[8] ((register >>> 8) <<< 8) = register >>> 8 := by
    apply Crc.iterate_shiftLeft
    intro index above
    rw [BitVec.getLsbD_ushiftRight]
    exact BitVec.getLsbD_of_ge _ _ (by omega)
  have whole := Crc.iterate_xor polynomial 8 (register &&& 0xFF#32) ((register >>> 8) <<< 8)
  rwa [← split, high] at whole

theorem crc32Step_feed (crc : UInt32) (byte : UInt8) :
    (crc32Step crc byte).toBitVec = Crc.feed polynomial crc.toBitVec (bitsOf byte) := by
  have length : (bitsOf byte).length = 8 := by simp [bitsOf]
  have index : ((crc ^^^ byte.toUInt32) &&& 0xFF).toNat < 256 := by
    rw [UInt32.toNat_and]
    exact Nat.lt_of_le_of_lt Nat.and_le_right (by decide)
  have low : BitVec.ofNat 32 ((crc ^^^ byte.toUInt32) &&& 0xFF).toNat =
      (crc.toBitVec ^^^ byte.toUInt32.toBitVec) &&& 0xFF#32 :=
    BitVec.ofNat_toNat _ _
  have high : crc.toBitVec >>> 8 = (crc.toBitVec ^^^ byte.toUInt32.toBitVec) >>> 8 := by
    apply BitVec.eq_of_getLsbD_eq
    intro index inside
    simp
  rw [Crc.feed_word polynomial (length ▸ by decide), length, word_bitsOf, shift_eight, ← low, ← high,
    ← crc32Tab_shift _ index]
  rfl

theorem crc32_feed (crc : UInt32) (bytes : List UInt8) :
    (bytes.foldl crc32Step crc).toBitVec = Crc.feed polynomial crc.toBitVec (bits bytes) := by
  induction bytes generalizing crc with
  | nil => rfl
  | cons byte rest ih =>
    rw [List.foldl_cons, ih, crc32Step_feed]
    simp only [bits, List.flatMap_cons, Crc.feed, List.foldl_append]

/-- The bytes differ, and only within at most 32 consecutive bits. -/
def Burst (sent received : List UInt8) : Prop :=
  ∃ before old new after, bits sent = before ++ old ++ after ∧
    bits received = before ++ new ++ after ∧ old.length = new.length ∧ old.length ≤ 32 ∧ old ≠ new

theorem crc32_burst {sent received : List UInt8} (burst : Burst sent received) (crc : UInt32) :
    crc32 crc sent ≠ crc32 crc received := by
  obtain ⟨before, old, new, after, whole, whole', length, short, differ⟩ := burst
  intro same
  apply Crc.feed_burst polynomial_top length short differ (crc ^^^ 0xFFFFFFFF).toBitVec before after
  rw [← whole, ← whole', ← crc32_feed, ← crc32_feed]
  exact congrArg UInt32.toBitVec ((UInt32.xor_left_inj _).mp same)

end Register

section Handlers

/-- The checksummed bytes differ in a burst, or only the CheckSum field does. The header is not
covered. -/
def Damaged (sent received : TrollMessage) : Prop :=
  Burst sent.content.bytes received.content.bytes ∧ received.checkSum = sent.checkSum ∨
    received.content = sent.content ∧ received.checkSum ≠ sent.checkSum

def ackBytes (ack : TrollAck) : List UInt8 :=
  bytes32 ack.session ++ bytes32 ack.seqNum

def DamagedAck (sent received : TrollAck) : Prop :=
  Burst (ackBytes sent) (ackBytes received) ∧ received.checkSum = sent.checkSum ∨
    ackBytes received = ackBytes sent ∧ received.checkSum ≠ sent.checkSum

theorem not_intact_of_damaged {sent received : TrollMessage} (intact : sent.Intact)
    (damaged : Damaged sent received) : ¬ received.Intact := by
  intro intact'
  unfold TrollMessage.Intact TrollMessage.checksumAlgorithm at intact intact'
  rcases damaged with ⟨burst, same⟩ | ⟨same, differ⟩
  · rw [same, ← intact] at intact'
    exact crc32_burst burst 0 intact'.symm
  · rw [same, intact] at intact'
    exact differ intact'.symm

theorem not_intact_of_damagedAck {sent received : TrollAck} (intact : sent.Intact)
    (damaged : DamagedAck sent received) : ¬ received.Intact := by
  intro intact'
  unfold TrollAck.Intact TrollAck.checksumAlgorithm at intact intact'
  rcases damaged with ⟨burst, same⟩ | ⟨same, differ⟩
  · rw [same, ← intact] at intact'
    exact crc32_burst burst 0 intact'.symm
  · unfold ackBytes at same
    rw [same, intact] at intact'
    exact differ intact'.symm

/-- A damaged package changes nothing at the receiver, a damaged ack only the clock readings of the
sender. -/
theorem burst_rejected :
    (∀ (sock : ConnectedSocket) (len : UInt64) (body : Block bufLen) (malloc : TrollMessage)
        (received : TrollMessage), Damaged (wrapPackage sock len body malloc) received →
      received.checksumAlgorithm ≠ received.checkSum ∧
        ∀ state sockfd remoteTroll malloc, recvData state sockfd received remoteTroll malloc = (state, [])) ∧
      ∀ (now : TrollMessage) (remoteTroll : SockAddr) (received : TrollAck),
        DamagedAck (ackOf now remoteTroll) received →
        received.checksumAlgorithm ≠ received.checkSum ∧
          ∀ state sockfd sock clock, recvAck state sockfd sock received clock =
            ({ state with estimator := state.estimator.acked clock }, []) := by
  constructor
  · intro sock len body malloc received damaged
    have rejected := not_intact_of_damaged (TrollMessage.sealed_intact _) damaged
    refine ⟨rejected, ?_⟩
    intro state sockfd remoteTroll malloc
    exact if_neg rejected
  · intro now remoteTroll received damaged
    have rejected := not_intact_of_damagedAck (TrollAck.sealed_intact _) damaged
    refine ⟨rejected, ?_⟩
    intro state sockfd sock clock
    exact if_neg rejected

-- The CheckSum field of a package, and the lowest bit of the session of an ack.
theorem burst_rejected_bit :
    (∀ state sockfd, recvData state sockfd
        { wrapPackage (newSock 5 default 7) 0 default default with
          checkSum := (wrapPackage (newSock 5 default 7) 0 default default).checkSum + 1 }
        default default = (state, [])) ∧
      ∀ state sockfd sock clock,
        recvAck state sockfd sock { ackOf (frame 7 0 []) default with session := 6 } clock =
          ({ state with estimator := state.estimator.acked clock }, []) := by
  constructor
  · have damaged (message : TrollMessage) :
        Damaged message { message with checkSum := message.checkSum + 1 } :=
      .inr ⟨rfl, by simp⟩
    intro state sockfd
    exact (burst_rejected.1 _ _ _ _ _ (damaged _)).2 state sockfd default default
  · have damaged : DamagedAck (ackOf (frame 7 0 []) default)
        { ackOf (frame 7 0 []) default with session := 6 } := by
      refine .inl ⟨⟨[], [true], [false], (bits (bytes32 7 ++ bytes32 0)).tail, rfl, rfl, rfl, ?_, ?_⟩,
        rfl⟩
      · decide
      · decide
    exact (burst_rejected.2 _ _ _ damaged).2

end Handlers

end NetworkProj.Delivery
