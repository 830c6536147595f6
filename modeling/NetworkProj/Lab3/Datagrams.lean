import NetworkProj.Model.Lab3Transfers
import NetworkProj.Transfer.Programs

set_option autoImplicit false

namespace NetworkProj.Lab3

open NetworkProj.Transfer (chunks chunks_nil chunks_of_ne)

section Parts

inductive Part where
  | size (fileSize : UInt32)
  | name (fileName : List UInt8)
  | block (data : List UInt8)

-- The bytes behind the zero of a name, and those behind the end of the file, are not looked at.
def Part.CarriedBy (message : TrollMessage) : Part → Prop
  | .size fileSize =>
    word32 (message.body.bytes.getD 0 0) (message.body.bytes.getD 1 0)
      (message.body.bytes.getD 2 0) (message.body.bytes.getD 3 0) = fileSize
  | .name fileName => (message.body.take 20).takeWhile (· ≠ 0) = fileName
  | .block data => message.body.take data.length = data

/-- One datagram for each part, in order. -/
abbrev Carried : List TrollMessage → List Part → Prop :=
  List.Forall₂ fun message part => part.CarriedBy message

def blocks (data : List UInt8) : List Part :=
  (chunks data).map .block

def parts (file : File) : List Part :=
  .size (UInt32.ofNat file.2.length) :: .name file.1 :: blocks file.2

@[simp] theorem blocks_nil : blocks [] = [] := by
  simp [blocks]

theorem blocks_of_ne {data : List UInt8} (some : data ≠ []) :
    blocks data = .block (data.take bufLen) :: blocks (data.drop bufLen) := by
  rw [blocks, chunks_of_ne some, List.map_cons, blocks]

theorem blocks_append {written data : List UInt8} (whole : bufLen ∣ written.length)
    (some : data ≠ []) (short : data.length ≤ bufLen) :
    blocks (written ++ data) = blocks written ++ [.block data] := by
  obtain ⟨count, length⟩ := whole
  induction count generalizing written with
  | zero =>
    obtain rfl := List.eq_nil_of_length_eq_zero length
    rw [List.nil_append, blocks_of_ne some, List.take_of_length_le short,
      List.drop_of_length_le short, blocks_nil, List.nil_append]
  | succ count ih =>
    rw [Nat.mul_succ] at length
    have full : bufLen ≤ written.length := by omega
    have first : written ≠ [] := by
      apply List.ne_nil_of_length_pos
      exact Nat.lt_of_lt_of_le (by decide) full
    have rest := @ih (written.drop bufLen) (by rw [List.length_drop]; omega)
    rw [blocks_of_ne first, blocks_of_ne (List.append_ne_nil_of_left_ne_nil first data),
      List.take_append_of_le_length full, List.drop_append_of_le_length full, rest, List.cons_append]

theorem Carried.snoc {messages : List TrollMessage} {front : List Part} {message : TrollMessage}
    {part : Part} (carried : Carried messages front) (last : part.CarriedBy message) :
    Carried (messages ++ [message]) (front ++ [part]) :=
  List.rel_append carried (.cons last .nil)

end Parts

section Receive

variable {ftps : Ftps}

theorem len_le (point : FtpsPoint) : point.len ≤ bufLen := by
  cases point with
  | fileSize => exact (by decide : 4 ≤ bufLen)
  | fileName fileSize => exact (by decide : 20 ≤ bufLen)
  | body fileName fileLeft written => exact Nat.le_refl _

theorem tcpdRecv_data (point : FtpsPoint) (message : TrollMessage) :
    tcpdRecv point.len message = .ok (message.body.take point.len) := by
  have within := Nat.not_lt.mpr (len_le point)
  have room : trollMessageLen - sockAddrLen = bufLen := rfl
  simp only [tcpdRecv, room, gt_iff_lt, if_neg within]

theorem received_size (message : TrollMessage) (at_ : ftps.point = .fileSize) :
    ∃ fileSize, Part.CarriedBy message (.size fileSize) ∧
      (ftps.received (message.body.take 4)).1.point = .fileName fileSize ∧
      (ftps.received (message.body.take 4)).2 = none := by
  have length := message.body.length_take 4 (by decide)
  have stored := @Block.receive_bytes _ ftps.bufIn (message.body.take 4)
    (by rw [length]; decide)
  have same (index : Nat) (small : index < 4) :
      (ftps.bufIn.receive (message.body.take 4)).bytes.getD index 0 =
        message.body.bytes.getD index 0 := by
    rw [stored, List.getD_eq_getElem?_getD, List.getElem?_append_left (by rw [length]; exact small),
      Block.take, List.getElem?_take_of_lt small, ← List.getD_eq_getElem?_getD]
  refine ⟨_, rfl, ?_, ?_⟩
  · simp only [Ftps.received, at_]
    rw [same 0 (by decide), same 1 (by decide), same 2 (by decide), same 3 (by decide)]
  · simp only [Ftps.received, at_]

theorem takeWhile_ended {data : List UInt8} (length : data.length = 20) (bufIn : Block bufLen) :
    ((bufIn.receive data).set 20 0).bytes.takeWhile (· ≠ 0) = data.takeWhile (· ≠ 0) := by
  have stored := @Block.receive_bytes _ bufIn data (by rw [length]; decide)
  have more : 20 < bufIn.bytes.length := by rw [bufIn.sized]; decide
  change List.takeWhile _ ((bufIn.receive data).bytes.set 20 0) = _
  rw [stored, List.set_append_right _ _ length.le, length, List.drop_eq_getElem_cons more,
    List.set_cons_zero, List.takeWhile_append]
  split
  next whole =>
    rw [List.takeWhile_cons_of_neg (by simp), List.append_nil]
    exact ((List.takeWhile_prefix _).eq_of_length whole).symm
  · rfl

theorem received_name (message : TrollMessage) {fileSize : UInt32} (at_ : ftps.point = .fileName fileSize) :
    ∃ fileName bufIn, Part.CarriedBy message (.name fileName) ∧
      ftps.received (message.body.take 20) = Ftps.loop bufIn fileName fileSize [] := by
  have length := message.body.length_take 20 (by decide)
  refine ⟨_, (ftps.bufIn.receive (message.body.take 20)).set 20 0, rfl, ?_⟩
  simp only [Ftps.received, at_, length]
  rw [takeWhile_ended length]

theorem received_body (message : TrollMessage) {fileName written : List UInt8} {fileLeft : UInt32}
    (at_ : ftps.point = .body fileName fileLeft written) :
    ∃ bufIn, ftps.received (message.body.take bufLen) =
      Ftps.loop bufIn fileName (fileLeft - UInt32.ofNat (min bufLen fileLeft.toNat))
        (written ++ message.body.take (min bufLen fileLeft.toNat)) := by
  have all : message.body.take bufLen = message.body.bytes := by
    rw [Block.take, List.take_of_length_le message.body.sized.le]
  refine ⟨message.body, ?_⟩
  have rVal : (if bufLen > fileLeft.toNat then fileLeft.toNat else bufLen) =
      min bufLen fileLeft.toNat := by
    split <;> omega
  simp only [Ftps.received, at_, all, Block.receive_whole, message.body.sized, rVal]

end Receive

section Booked

variable {ftps : Ftps} {files : List File} {messages : List TrollMessage} {message : TrollMessage}

def begun : FtpsPoint → List Part
  | .fileSize => []
  | .fileName fileSize => [.size fileSize]
  | .body fileName fileLeft written =>
    .size (UInt32.ofNat written.length + fileLeft) :: .name fileName :: blocks written

def Aligned : FtpsPoint → Prop
  | .fileSize | .fileName _ => True
  | .body _ fileLeft written => bufLen ∣ written.length ∧ fileLeft ≠ 0

/-- Every datagram went into a file that is closed, or into the open one. -/
structure Booked (messages : List TrollMessage) (files : List File) (point : FtpsPoint) : Prop where
  carried : Carried messages (files.flatMap parts ++ begun point)
  aligned : Aligned point

theorem Booked.between {point : FtpsPoint} (booked : Booked messages files point)
    (idle : point = .fileSize) : Carried messages (files.flatMap parts) := by
  have carried := booked.carried
  rw [idle, begun, List.append_nil] at carried
  exact carried

theorem booked_loop {fileName written : List UInt8} {fileLeft : UInt32}
    (carried : Carried messages (files.flatMap parts ++ begun (.body fileName fileLeft written)))
    (whole : fileLeft ≠ 0 → bufLen ∣ written.length) (bufIn : Block bufLen) :
    Booked messages (files ++ (Ftps.loop bufIn fileName fileLeft written).2.toList)
      (Ftps.loop bufIn fileName fileLeft written).1.point := by
  unfold Ftps.loop
  split
  next done =>
    rw [begun, done, UInt32.add_zero] at carried
    refine ⟨?_, trivial⟩
    simpa [begun, parts] using carried
  next more => exact ⟨by simpa using carried, whole more, more⟩

theorem Booked.received (booked : Booked messages files ftps.point) :
    Booked (messages ++ [message])
      (files ++ (ftps.received (message.body.take ftps.point.len)).2.toList)
      (ftps.received (message.body.take ftps.point.len)).1.point := by
  have carried := booked.carried
  cases at_ : ftps.point with
  | fileSize =>
    obtain ⟨fileSize, size, point, none⟩ := received_size message at_
    rw [at_] at carried
    simp only [FtpsPoint.len, point, none]
    refine ⟨?_, trivial⟩
    simpa [begun] using carried.snoc size
  | fileName fileSize =>
    obtain ⟨fileName, bufIn, name, received⟩ := received_name message at_
    rw [at_] at carried
    simp only [FtpsPoint.len, received]
    apply booked_loop
    · simpa [begun] using carried.snoc name
    · exact fun _ => dvd_zero _
  | body fileName fileLeft written =>
    obtain ⟨bufIn, received⟩ := received_body message at_
    have aligned := booked.aligned
    rw [at_] at carried aligned
    obtain ⟨whole, more⟩ := aligned
    have positive : 0 < fileLeft.toNat := Nat.pos_of_ne_zero fun zero => more (UInt32.toNat_inj.mp zero)
    have length := message.body.length_take (min bufLen fileLeft.toNat) (Nat.min_le_left _ _)
    have some : message.body.take (min bufLen fileLeft.toNat) ≠ [] := by
      apply List.ne_nil_of_length_pos
      rw [length]
      exact Nat.lt_min.mpr ⟨by decide, positive⟩
    simp only [FtpsPoint.len, received]
    apply booked_loop
    · have block : Part.CarriedBy message (.block (message.body.take (min bufLen fileLeft.toNat))) := by
        rw [Part.CarriedBy, length]
      have size : UInt32.ofNat (written ++ message.body.take (min bufLen fileLeft.toNat)).length +
          (fileLeft - UInt32.ofNat (min bufLen fileLeft.toNat)) =
            UInt32.ofNat written.length + fileLeft := by
        rw [List.length_append, length, UInt32.ofNat_add, UInt32.add_assoc,
          UInt32.add_comm (UInt32.ofNat (min bufLen fileLeft.toNat)), UInt32.sub_add_cancel]
      rw [begun, size, blocks_append whole some (length.le.trans (Nat.min_le_left _ _))]
      simpa [begun] using carried.snoc block
    · intro left
      have full : min bufLen fileLeft.toNat = bufLen := by
        apply Nat.min_eq_left
        by_contra less
        rw [Nat.min_eq_right (Nat.le_of_not_le less), UInt32.ofNat_toNat, UInt32.sub_self] at left
        exact left rfl
      rw [List.length_append, length, full]
      exact Nat.dvd_add whole (Nat.dvd_refl _)

end Booked

section Serves

variable {ftps : Ftps} {file : File} {clients files later : List File} {message : TrollMessage}
  {part : Part} {back : List Part}

inductive Progress (file : File) : FtpsPoint → List Part → Prop where
  | fileName :
      Progress file (.fileName (UInt32.ofNat file.2.length)) (.name file.1 :: blocks file.2)
  | body (written rest : List UInt8) (whole : written ++ rest = file.2) (more : rest ≠ []) :
      Progress file (.body file.1 (UInt32.ofNat rest.length) written) (blocks rest)

/-- With the parts to come the files of the server will be those of the clients. -/
inductive Serves (clients files : List File) : FtpsPoint → List Part → Prop where
  | fileSize (later : List File) (order : files ++ later = clients) :
      Serves clients files .fileSize (later.flatMap parts)
  | opened (file : File) (later : List File) {point : FtpsPoint} {unread : List Part}
      (order : files ++ file :: later = clients) (progress : Progress file point unread) :
      Serves clients files point (unread ++ later.flatMap parts)

theorem Serves.first {point : FtpsPoint} (serves : Serves clients files point back) :
    files <+: clients ∧
      ∀ fileName fileLeft written, point = .body fileName fileLeft written →
        ∃ rest, files ++ [(fileName, written ++ rest)] <+: clients := by
  cases serves with
  | fileSize later order => exact ⟨⟨later, order⟩, by simp⟩
  | opened file later order progress =>
    refine ⟨⟨file :: later, order⟩, ?_⟩
    intro fileName fileLeft written body
    cases progress with
    | fileName => cases body
    | body done rest split more =>
      cases body
      exact ⟨rest, later, by simpa [split] using order⟩

theorem Serves.all {point : FtpsPoint} (serves : Serves clients files point []) :
    files = clients ∧ point = .fileSize := by
  generalize none : [] = back at serves
  cases serves with
  | fileSize later order =>
    cases later with
    | nil => exact ⟨(List.append_nil files).symm.trans order, rfl⟩
    | cons file later => cases none
  | opened file later order progress =>
    cases progress with
    | fileName => cases none
    | body written rest split more =>
      rw [blocks_of_ne more] at none
      cases none

theorem serves_loop (size : file.2.length < UInt32.size) (order : files ++ file :: later = clients)
    {written rest : List UInt8} (whole : written ++ rest = file.2) (bufIn : Block bufLen) :
    Serves clients
      (files ++ (Ftps.loop bufIn file.1 (UInt32.ofNat rest.length) written).2.toList)
      (Ftps.loop bufIn file.1 (UInt32.ofNat rest.length) written).1.point
      (blocks rest ++ later.flatMap parts) := by
  have length : written.length + rest.length = file.2.length := by
    rw [← whole, List.length_append]
  have left : (UInt32.ofNat rest.length).toNat = rest.length :=
    UInt32.toNat_ofNat_of_lt' ((Nat.le_add_left _ _).trans_lt (length ▸ size))
  unfold Ftps.loop
  by_cases more : rest = []
  · subst more
    rw [List.append_nil] at whole
    subst whole
    have none : UInt32.ofNat ([] : List UInt8).length = 0 := rfl
    rw [if_pos none, blocks_nil]
    exact .fileSize later (by rw [← order]; simp)
  · have nonzero : UInt32.ofNat rest.length ≠ 0 := by
      intro zero
      rw [zero] at left
      exact more (List.length_eq_zero_iff.mp left.symm)
    rw [if_neg nonzero]
    exact .opened file later (by rw [← order]; simp) (.body written rest whole more)

theorem Serves.received (sizes : ∀ file ∈ clients, file.2.length < UInt32.size)
    (serves : Serves clients files ftps.point (part :: back)) (carries : part.CarriedBy message) :
    Serves clients (files ++ (ftps.received (message.body.take ftps.point.len)).2.toList)
      (ftps.received (message.body.take ftps.point.len)).1.point back := by
  generalize point : ftps.point = at_ at serves
  generalize whole : part :: back = unread at serves
  cases serves with
  | fileSize later order =>
    cases later with
    | nil => cases whole
    | cons file later =>
      rw [List.flatMap_cons, parts, List.cons_append] at whole
      obtain ⟨rfl, rfl⟩ := List.cons.inj whole
      obtain ⟨fileSize, size, next, none⟩ := received_size message point
      obtain rfl := size.symm.trans carries
      simp only [FtpsPoint.len, next, none]
      exact .opened file later (by rw [← order]; simp) .fileName
  | opened file later order progress =>
    have size := sizes file (by simp [← order])
    cases progress with
    | fileName =>
      obtain ⟨rfl, rfl⟩ := List.cons.inj whole
      obtain ⟨fileName, bufIn, name, received⟩ := received_name message point
      obtain rfl := name.symm.trans carries
      simp only [FtpsPoint.len, received]
      exact serves_loop size order (List.nil_append file.2) bufIn
    | body written rest split more =>
      rw [blocks_of_ne more, List.cons_append] at whole
      obtain ⟨rfl, rfl⟩ := List.cons.inj whole
      obtain ⟨bufIn, received⟩ := received_body message point
      have length : written.length + rest.length = file.2.length := by
        rw [← split, List.length_append]
      have left : (UInt32.ofNat rest.length).toNat = rest.length :=
        UInt32.toNat_ofNat_of_lt' ((Nat.le_add_left _ _).trans_lt (length ▸ size))
      have got : message.body.take (min bufLen rest.length) = rest.take bufLen := by
        rw [← List.length_take]
        exact carries
      have next : UInt32.ofNat rest.length - UInt32.ofNat (min bufLen rest.length) =
          UInt32.ofNat (rest.drop bufLen).length := by
        have behind : rest.length - min bufLen rest.length = (rest.drop bufLen).length := by
          rw [List.length_drop]
          omega
        rw [← UInt32.ofNat_sub (Nat.min_le_right _ _), behind]
      simp only [FtpsPoint.len, received, left, got, next]
      exact serves_loop size order (by rw [List.append_assoc, List.take_append_drop, split]) bufIn

end Serves

end NetworkProj.Lab3
