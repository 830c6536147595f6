import NetworkProj.Lab2.ReceiveLoop
import NetworkProj.Model.Lab2Transfers

set_option autoImplicit false

namespace NetworkProj.Lab2

section Sent

variable {ftpc ftpc' : Ftpc} {bytes data rest : List UInt8}

def sizeBytes (file : List UInt8) : List UInt8 :=
  [(UInt64.ofNat file.length >>> 24).toUInt8, (UInt64.ofNat file.length >>> 16).toUInt8,
    (UInt64.ofNat file.length >>> 8).toUInt8, (UInt64.ofNat file.length).toUInt8]

def nameBytes (fileName : List UInt8) : List UInt8 :=
  (Block.pad roundLen fileName).take 20

@[simp] theorem length_sizeBytes (file : List UInt8) : (sizeBytes file).length = 4 := rfl

@[simp] theorem length_nameBytes (fileName : List UInt8) : (nameBytes fileName).length = 20 :=
  Block.length_take _ _ (by decide)

def header (ftpc : Ftpc) : List UInt8 :=
  sizeBytes ftpc.file ++ nameBytes ftpc.fileName

/-- What the program has written. The last block is filled up with bytes that mean nothing. -/
def Sent (ftpc : Ftpc) (bytes : List UInt8) : Prop :=
  match ftpc.point with
  | .connect | .fileSize => bytes = []
  | .fileName => bytes = sizeBytes ftpc.file
  | .body fileLeft position =>
    bytes = header ftpc ++ ftpc.file.take position ∧
      position < ftpc.file.length ∧ fileLeft.toNat = ftpc.file.length - position
  | .exited code =>
    code = 0 ∧ ∃ padding, bytes = header ftpc ++ ftpc.file ++ padding

theorem write_same (written : ftpc.write = some (data, ftpc')) :
    ftpc'.fileName = ftpc.fileName ∧ ftpc'.file = ftpc.file ∧ ftpc'.point ≠ .connect := by
  have gone (fileLeft : UInt64) (position : Nat) : Ftpc.loop fileLeft position ≠ .connect := by
    unfold Ftpc.loop
    split <;> simp
  unfold Ftpc.write at written
  split at written
  · cases written
    exact ⟨rfl, rfl, by simp⟩
  · cases written
    exact ⟨rfl, rfl, gone _ _⟩
  · cases written
    exact ⟨rfl, rfl, gone _ _⟩
  · cases written
  · cases written

theorem sent_loop {position : Nat} {fileLeft : UInt64} (small : position ≤ ftpc.file.length)
    (left : fileLeft.toNat = ftpc.file.length - position) (buf : Block roundLen) :
    Sent { ftpc with buf, point := Ftpc.loop fileLeft position }
      (header ftpc ++ ftpc.file.take position) := by
  unfold Ftpc.loop
  split
  next done =>
    rw [done] at left
    have whole : ftpc.file.take position = ftpc.file :=
      List.take_of_length_le (Nat.le_of_sub_eq_zero left.symm)
    exact ⟨rfl, [], by rw [whole, List.append_nil]; rfl⟩
  next more =>
    have positive : fileLeft.toNat ≠ 0 := fun zero => more (UInt64.toNat_inj.mp zero)
    have inside : position < ftpc.file.length := by omega
    exact ⟨rfl, inside, left⟩

theorem block_sent {position : Nat} (inside : position < ftpc.file.length) :
    (ftpc.fread position).length = min roundLen (ftpc.file.length - position) ∧
      ((ftpc.fread position).length = roundLen ∧
          (ftpc.buf.receive (ftpc.fread position)).bytes = ftpc.fread position ∨
        (ftpc.fread position).length = ftpc.file.length - position) ∧
      ∃ stale, (ftpc.buf.receive (ftpc.fread position)).bytes = ftpc.fread position ++ stale := by
  have length : (ftpc.fread position).length = min roundLen (ftpc.file.length - position) := by
    simp [Ftpc.fread]
  have stored := Block.receive_bytes ftpc.buf (show (ftpc.fread position).length ≤ roundLen by omega)
  refine ⟨length, ?_, _, stored⟩
  by_cases last : ftpc.file.length - position ≤ roundLen
  · exact .inr (by omega)
  · have full : (ftpc.fread position).length = roundLen := by omega
    refine .inl ⟨full, ?_⟩
    have covered : ftpc.buf.bytes.length ≤ (ftpc.fread position).length :=
      Nat.le_of_eq (ftpc.buf.sized.trans full.symm)
    rw [stored, List.drop_of_length_le covered, List.append_nil]

-- The block counts whole, as the file has no fewer bytes than are left.
theorem body_left {position : Nat} {fileLeft : UInt64} (inside : position < ftpc.file.length)
    (left : fileLeft.toNat = ftpc.file.length - position) :
    (if (ftpc.fread position).length > fileLeft.toNat then fileLeft.toNat
        else (ftpc.fread position).length) = (ftpc.fread position).length ∧
      (fileLeft - UInt64.ofNat (ftpc.fread position).length).toNat =
        ftpc.file.length - (position + (ftpc.fread position).length) := by
  obtain ⟨length, _⟩ := block_sent inside
  have bounded := fileLeft.toNat_lt
  have small : (UInt64.ofNat (ftpc.fread position).length).toNat = (ftpc.fread position).length :=
    UInt64.toNat_ofNat_of_lt' (show (ftpc.fread position).length < 2 ^ 64 by omega)
  constructor
  · rw [if_neg (by omega)]
  · rw [UInt64.toNat_sub_of_le _ _ (UInt64.le_iff_toNat_le.mpr (by omega)), small]
    omega

theorem Sent.write (sent : Sent ftpc bytes) (large : ftpc.file.length < 2 ^ 64)
    (written : ftpc.write = some (data, ftpc')) : Sent ftpc' (bytes ++ data) := by
  cases point : ftpc.point with
  | connect | exited code =>
    simp only [Ftpc.write, point] at written
    cases written
  | fileSize =>
    simp only [Ftpc.write, point] at written
    simp only [Sent, point] at sent
    cases written
    rw [sent, List.nil_append]
    exact Block.receive_take ftpc.buf
      (show (sizeBytes ftpc.file).length ≤ roundLen by rw [length_sizeBytes]; decide)
  | fileName =>
    simp only [Ftpc.write, point] at written
    simp only [Sent, point] at sent
    cases written
    have start := @sent_loop ftpc 0 ftpc.fileSize (Nat.zero_le _)
      (UInt64.toNat_ofNat_of_lt' large) (Block.pad roundLen ftpc.fileName)
    rw [List.take_zero, List.append_nil] at start
    rw [sent]
    exact start
  | body fileLeft position =>
    simp only [Ftpc.write, point] at written
    simp only [Sent, point] at sent
    obtain ⟨whole, inside, left⟩ := sent
    obtain ⟨length, kind, stale, stored⟩ := block_sent inside
    obtain ⟨rVal, step⟩ := body_left inside left
    rw [rVal] at written
    have more : ftpc.file.take position ++ ftpc.fread position =
        ftpc.file.take (position + (ftpc.fread position).length) := by
      rw [List.take_add, Ftpc.fread, List.length_take, List.take_eq_take_min]
      simp
    cases written
    rw [whole, List.append_assoc]
    rcases kind with ⟨_, plain⟩ | last
    · rw [plain, more]
      exact sent_loop (by omega) step _
    · have done : fileLeft - UInt64.ofNat (ftpc.fread position).length = 0 :=
        UInt64.toNat_inj.mp (step.trans (by rw [last]; simp; omega))
      have ends : position + (ftpc.fread position).length = ftpc.file.length := by omega
      rw [done, Ftpc.loop, if_pos rfl, stored, ← List.append_assoc (ftpc.file.take position), more, ends,
        List.take_length, ← List.append_assoc]
      exact ⟨rfl, stale, rfl⟩

theorem Sent.whole (sent : Sent ftpc bytes) :
    ∃ padding, bytes <+: header ftpc ++ ftpc.file ++ padding := by
  cases point : ftpc.point with
  | connect | fileSize =>
    simp only [Sent, point] at sent
    exact ⟨[], sent ▸ List.nil_prefix⟩
  | fileName =>
    simp only [Sent, point] at sent
    refine ⟨[], ?_⟩
    rw [sent, header, List.append_assoc, List.append_assoc]
    exact List.prefix_append _ _
  | body fileLeft position =>
    simp only [Sent, point] at sent
    refine ⟨[], ?_⟩
    rw [sent.1, List.append_nil, List.prefix_append_right_inj]
    exact List.take_prefix _ _
  | exited code =>
    simp only [Sent, point] at sent
    obtain ⟨_, padding, whole⟩ := sent
    exact ⟨padding, whole ▸ List.prefix_rfl⟩

theorem Sent.ended (sent : Sent ftpc bytes) (started : ftpc.point ≠ .connect)
    (ended : ftpc.write = none) : header ftpc ++ ftpc.file <+: bytes := by
  cases point : ftpc.point with
  | connect => exact absurd point started
  | fileSize | fileName | body => simp [Ftpc.write, point] at ended
  | exited code =>
    simp only [Sent, point] at sent
    obtain ⟨_, padding, whole⟩ := sent
    rw [whole]
    exact List.prefix_append _ _

theorem Sent.next {before part more : List UInt8} (sent : Sent ftpc (before ++ bytes))
    (started : ftpc.point ≠ .connect)
    (shape : header ftpc ++ ftpc.file = before ++ (part ++ more))
    (enough : part.length ≤ bytes.length ∨ ftpc.write = none) : ∃ rest, bytes = part ++ rest := by
  obtain ⟨padding, whole⟩ := sent.whole
  rw [shape, List.append_assoc, List.append_assoc, List.prefix_append_right_inj] at whole
  have long : part.length ≤ bytes.length := by
    rcases enough with long | ended
    · exact long
    · have least := sent.ended started ended
      rw [shape, List.prefix_append_right_inj] at least
      exact ((List.prefix_append part more).trans least).length_le
  obtain ⟨rest, same⟩ := List.prefix_of_prefix_length_le (List.prefix_append part _) whole long
  exact ⟨rest, same.symm⟩

end Sent

section Header

variable {fileName : List UInt8}

theorem recvSize_sizeBytes (file : List UInt8) :
    (recvSize (sizeBytes file)).1 = UInt32.ofNat file.length := by
  have large : 4 ≤ bufInLen := by decide
  have decoded := word32_bytes_long (UInt64.ofNat file.length)
  simp only [recvSize, sizeBytes, List.take_succ_cons, List.take_zero, word32_received _ large, decoded,
    UInt64.toUInt32_ofNat']

-- A name of twenty bytes is ended by the zero that `ftps.c` writes, a shorter one by its padding.
theorem recvName_nameBytes (text : 0 ∉ fileName) (bufIn : Block bufInLen) :
    (recvName (nameBytes fileName) bufIn).1 = fileName.take 20 := by
  have length := length_nameBytes fileName
  have stored := Block.receive_bytes bufIn (show (nameBytes fileName).length ≤ bufInLen by
    rw [length]; decide)
  obtain ⟨first, behind, last⟩ : ∃ first behind, bufIn.bytes.drop 20 = first :: behind :=
    List.exists_cons_of_ne_nil (List.ne_nil_of_length_pos (by
      rw [List.length_drop, bufIn.sized]; decide))
  have bytes : (recvName (nameBytes fileName) bufIn).1 =
      (nameBytes fileName ++ 0 :: behind).takeWhile (· ≠ 0) := by
    rw [recvName, List.take_of_length_le (Nat.le_of_eq length), length]
    change ((bufIn.receive (nameBytes fileName)).bytes.set 20 0).takeWhile (· ≠ 0) = _
    rw [stored, length, List.set_append_right _ _ (Nat.le_of_eq length), length, last]
    rfl
  have shape : nameBytes fileName = fileName.take 20 ++ List.replicate (20 - fileName.length) 0 := by
    have within : 20 - fileName.length ≤ roundLen := Nat.le_trans (Nat.sub_le _ _) (by decide)
    rw [nameBytes, Block.take, Block.pad, List.take_take, show min 20 roundLen = 20 from rfl,
      List.take_append, List.take_replicate, Nat.min_eq_left within]
  have keeps : ∀ byte ∈ fileName.take 20, decide (byte ≠ 0) = true := by
    intro byte member
    exact decide_eq_true fun zero => text (zero ▸ List.mem_of_mem_take member)
  rw [bytes, shape, List.append_assoc, List.takeWhile_append_of_pos keeps]
  cases 20 - fileName.length with
  | zero => simp
  | succ zeros => simp [List.replicate_succ]

end Header

end NetworkProj.Lab2
