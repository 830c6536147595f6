import Mathlib.Data.List.Infix
import NetworkProj.Lab2.Streams

set_option autoImplicit false

namespace NetworkProj.Lab2

section Serving

variable {κ : Type} [DecidableEq κ] {state state' : Transfers κ} {client : κ}
  {names contents : κ → List UInt8}

def FtpsPoint.serving : FtpsPoint κ → Option κ
  | .accept => none
  | .fileSize client | .fileName client _ _ | .body client _ _ _ => some client

/-- The connections that `accept` has returned: those closed again, and the one being served. -/
def Transfers.accepted (state : Transfers κ) : List κ :=
  state.files.map Prod.fst ++ state.point.serving.toList

def announced (file : List UInt8) : Nat :=
  file.length % 2 ^ 32

/-- What the server has read from the connection it serves, and what it has made of it. -/
def Serves (names contents : κ → List UInt8) (state : Transfers κ) : Prop :=
  match state.point with
  | .accept => True
  | .fileSize client => Sent (state.ftpcs client) (state.streams client)
  | .fileName client fileSize _ =>
    Sent (state.ftpcs client) (sizeBytes (contents client) ++ state.streams client) ∧
      fileSize.toNat = announced (contents client)
  | .body client fileName ftps written => ∃ received,
    Sent (state.ftpcs client) (sizeBytes (contents client) ++ nameBytes (names client) ++ received ++
        state.streams client) ∧
      fileName = (names client).take 20 ∧
      written = received.take (announced (contents client)) ∧
      ftps.fileLeft.toNat = announced (contents client) - received.length ∧ ftps.fileLeft ≠ 0

structure Sound (names contents : κ → List UInt8) (state : Transfers κ) : Prop where
  own : ∀ client, (state.ftpcs client).fileName = names client ∧
    (state.ftpcs client).file = contents client
  order : (state.accepted ++ state.backlog).Nodup
  known : ∀ client, client ∈ state.accepted ++ state.backlog ↔ (state.ftpcs client).point ≠ .connect
  sent : ∀ client, client ∉ state.accepted → Sent (state.ftpcs client) (state.streams client)
  serves : Serves names contents state
  files : ∀ entry ∈ state.files, entry.2 =
    ((names entry.1).take 20, (contents entry.1).take (announced (contents entry.1)))

omit [DecidableEq κ] in
theorem Serves.elsewhere (serves : Serves names contents state) (point : state'.point = state.point)
    (same : ∀ client ∈ state.point.serving, state'.ftpcs client = state.ftpcs client ∧
      state'.streams client = state.streams client) : Serves names contents state' := by
  cases shape : state.point with
  | accept => simp only [Serves, point.trans shape]
  | fileSize client | fileName client | body client =>
    obtain ⟨ftpc, stream⟩ := same client (by rw [shape]; rfl)
    simp only [Serves, shape] at serves
    simpa only [Serves, point.trans shape, ftpc, stream] using serves

theorem Serves.became (serves : Serves names contents state)
    (apart : state.point.serving ≠ some client) (ftpc : Ftpc) (stream : List UInt8) :
    Serves names contents (state.became client ftpc stream) := by
  have others : ∀ other ∈ state.point.serving,
      (state.became client ftpc stream).ftpcs other = state.ftpcs other ∧
        (state.became client ftpc stream).streams other = state.streams other := by
    intro other serving
    apply state.became_other
    rintro rfl
    exact apart serving
  exact serves.elsewhere rfl others

theorem Sound.connect (sound : Sound names contents state)
    (idle : (state.ftpcs client).point = .connect) :
    Sound names contents { state.became client { state.ftpcs client with point := .fileSize }
      (state.streams client) with backlog := state.backlog ++ [client] } := by
  have fresh : client ∉ state.accepted ++ state.backlog := fun member =>
    (sound.known client).mp member idle
  have unserved : client ∉ state.accepted := fun member => fresh (List.mem_append_left _ member)
  constructor
  · intro other
    by_cases same : other = client
    · subst same
      simpa using sound.own other
    · simpa [state.became_other same] using sound.own other
  · change (state.accepted ++ (state.backlog ++ [client])).Nodup
    rw [← List.append_assoc]
    exact List.nodup_append.mpr ⟨sound.order, by simp, by
      intro other member _ single same
      rw [same, List.mem_singleton.mp single] at member
      exact fresh member⟩
  · intro other
    change other ∈ state.accepted ++ (state.backlog ++ [client]) ↔ _
    rw [← List.append_assoc, List.mem_append, List.mem_singleton, sound.known]
    by_cases same : other = client
    · subst same
      simp
    · simp [same, state.became_other same]
  · intro other outside
    by_cases same : other = client
    · subst same
      have sent := sound.sent other unserved
      simp only [Sent, idle] at sent
      simpa [Sent] using sent
    · simpa [state.became_other same] using sound.sent other outside
  · refine sound.serves.became ?_ _ _
    intro served
    exact unserved (List.mem_append_right _ (Option.mem_toList.mpr served))
  · exact sound.files

theorem Sound.became (sound : Sound names contents state) {ftpc : Ftpc} {stream : List UInt8}
    (own : ftpc.fileName = names client ∧ ftpc.file = contents client)
    (before : (state.ftpcs client).point ≠ .connect) (started : ftpc.point ≠ .connect)
    (sent : client ∉ state.accepted → Sent ftpc stream)
    (serves : Serves names contents (state.became client ftpc stream)) :
    Sound names contents (state.became client ftpc stream) := by
  constructor
  · intro other
    by_cases same : other = client
    · subst same
      simpa using own
    · simpa [state.became_other same] using sound.own other
  · exact sound.order
  · intro other
    refine (sound.known other).trans ?_
    by_cases same : other = client
    · subst same
      simp [before, started]
    · rw [(state.became_other same ftpc stream).1]
  · intro other outside
    by_cases same : other = client
    · subst same
      simpa using sent outside
    · simpa [state.became_other same] using sound.sent other outside
  · exact serves
  · exact sound.files

theorem Serves.write (serves : Serves names contents state)
    (large : (state.ftpcs client).file.length < 2 ^ 64) {data : List UInt8} {ftpc : Ftpc}
    (written : (state.ftpcs client).write = some (data, ftpc)) :
    Serves names contents (state.became client ftpc (state.streams client ++ data)) := by
  by_cases served : state.point.serving = some client
  · cases shape : state.point with
    | accept => simp only [Serves, Transfers.became, shape]
    | fileSize other =>
      obtain rfl : other = client := by simpa [shape, FtpsPoint.serving] using served
      simp only [Serves, Transfers.became, shape, Function.update_self] at serves ⊢
      exact serves.write large written
    | fileName other fileSize bufIn =>
      obtain rfl : other = client := by simpa [shape, FtpsPoint.serving] using served
      simp only [Serves, Transfers.became, shape, Function.update_self] at serves ⊢
      rw [← List.append_assoc]
      exact ⟨serves.1.write large written, serves.2⟩
    | body other fileName ftps done =>
      obtain rfl : other = client := by simpa [shape, FtpsPoint.serving] using served
      simp only [Serves, Transfers.became, shape, Function.update_self] at serves ⊢
      obtain ⟨received, sent, rest⟩ := serves
      refine ⟨received, ?_, rest⟩
      rw [← List.append_assoc]
      exact sent.write large written
  · exact serves.became served _ _

theorem Sound.write (sound : Sound names contents state)
    (large : (contents client).length < 2 ^ 64) {data : List UInt8} {ftpc : Ftpc}
    (written : (state.ftpcs client).write = some (data, ftpc)) :
    Sound names contents (state.became client ftpc (state.streams client ++ data)) := by
  obtain ⟨fileName, file, started⟩ := write_same written
  have own := sound.own client
  have large : (state.ftpcs client).file.length < 2 ^ 64 := by rwa [own.2]
  refine sound.became ⟨fileName.trans own.1, file.trans own.2⟩ ?_ started
    (fun outside => (sound.sent client outside).write large written) (sound.serves.write large written)
  intro idle
  simp [Ftpc.write, idle] at written

omit [DecidableEq κ] in
theorem Sound.unclosed (sound : Sound names contents state)
    (serving : state.point.serving = some client) : client ∉ state.files.map Prod.fst := by
  intro closed
  have order := (List.nodup_append.mp (List.nodup_append.mp sound.order).1).2.2
  exact order client closed client (Option.mem_toList.mpr serving) rfl

theorem Sound.broken (sound : Sound names contents state) (closed : client ∈ state.files.map Prod.fst) :
    Sound names contents (state.became client { state.ftpcs client with point := .exited 1 }
      (state.streams client)) := by
  have served : client ∈ state.accepted := List.mem_append_left _ closed
  refine sound.became (sound.own client)
    ((sound.known client).mp (List.mem_append_left _ served)) (by simp)
    (fun outside => absurd served outside) (sound.serves.became ?_ _ _)
  exact fun serving => sound.unclosed serving closed

omit [DecidableEq κ] in
theorem Sound.accept (sound : Sound names contents state) {rest : List κ}
    (point : state.point = .accept) (backlog : state.backlog = client :: rest) :
    Sound names contents { state with point := .fileSize client, backlog := rest } := by
  have moved : state.files.map Prod.fst ++ [client] ++ rest = state.accepted ++ state.backlog := by
    simp [Transfers.accepted, point, FtpsPoint.serving, backlog]
  constructor
  · exact sound.own
  · change (state.files.map Prod.fst ++ [client] ++ rest).Nodup
    rw [moved]
    exact sound.order
  · intro other
    change other ∈ state.files.map Prod.fst ++ [client] ++ rest ↔ _
    rw [moved]
    exact sound.known other
  · intro other outside
    apply sound.sent
    intro member
    apply outside
    rw [Transfers.accepted, point] at member
    exact List.mem_append_left _ (by simpa [FtpsPoint.serving] using member)
  · refine sound.sent client ?_
    intro member
    have order := (List.nodup_append.mp sound.order).2.2
    exact order client member client (by simp [backlog]) rfl
  · exact sound.files

end Serving

section Reading

variable {κ : Type} {state state' : Transfers κ} {client : κ} {names contents : κ → List UInt8}
  {want count : Nat}

theorem Sound.started (sound : Sound names contents state)
    (serving : state.point.serving = some client) : (state.ftpcs client).point ≠ .connect := by
  apply (sound.known client).mp
  simp [Transfers.accepted, serving]

theorem Sound.shape (sound : Sound names contents state) (client : κ) :
    header (state.ftpcs client) ++ (state.ftpcs client).file =
      sizeBytes (contents client) ++ (nameBytes (names client) ++ contents client) := by
  rw [header, (sound.own client).1, (sound.own client).2, List.append_assoc]

theorem announced_le (file : List UInt8) : announced file ≤ file.length :=
  Nat.mod_le _ _

theorem Sound.received (sound : Sound names contents state) {received rest : List UInt8}
    (sent : Sent (state.ftpcs client) (sizeBytes (contents client) ++ nameBytes (names client) ++
      received ++ rest)) :
    received.take (announced (contents client)) <+:
      (contents client).take (announced (contents client)) := by
  obtain ⟨padding, whole⟩ := sent.whole
  rw [sound.shape, List.append_assoc, List.append_assoc, List.append_assoc, List.append_assoc,
    List.prefix_append_right_inj, List.prefix_append_right_inj] at whole
  have begins := ((List.prefix_append received _).trans whole).take (announced (contents client))
  rwa [List.take_append_of_le_length (announced_le _)] at begins

theorem recvAll_enough (all : state.RecvAll client want count) :
    want ≤ (state.streams client).length ∨ (state.ftpcs client).write = none := by
  obtain ⟨least, whole | ended⟩ := all
  · exact .inl (by omega)
  · exact .inr ended

theorem recvAll_part {part rest : List UInt8} (all : state.RecvAll client part.length count)
    (shape : state.streams client = part ++ rest) :
    (state.streams client).take count = part ∧ (state.streams client).drop count = rest := by
  have whole : count = part.length := by
    rw [all.1, shape, List.length_append]
    omega
  rw [shape, whole]
  exact ⟨List.take_left, List.drop_left⟩

theorem Sound.moved (sound : Sound names contents state)
    (serving : state.point.serving = some client) (accepted : state'.accepted = state.accepted)
    (backlog : state'.backlog = state.backlog) (ftpcs : state'.ftpcs = state.ftpcs)
    (streams : ∀ other, other ≠ client → state'.streams other = state.streams other)
    (serves : Serves names contents state')
    (files : ∀ entry ∈ state'.files, entry.2 =
      ((names entry.1).take 20, (contents entry.1).take (announced (contents entry.1)))) :
    Sound names contents state' := by
  constructor
  · rw [ftpcs]
    exact sound.own
  · rw [accepted, backlog]
    exact sound.order
  · rw [accepted, backlog, ftpcs]
    exact sound.known
  · intro other outside
    rw [accepted] at outside
    have different : other ≠ client := by
      rintro rfl
      exact outside (by simp [Transfers.accepted, serving])
    rw [ftpcs, streams other different]
    exact sound.sent other outside
  · exact serves
  · exact files

variable [DecidableEq κ]

@[simp] theorem Transfers.taken_ftpcs (state : Transfers κ) (client : κ) (count : Nat) :
    (state.taken client count).ftpcs = state.ftpcs :=
  Function.update_eq_self ..

@[simp] theorem Transfers.taken_self (state : Transfers κ) (client : κ) (count : Nat) :
    (state.taken client count).streams client = (state.streams client).drop count :=
  Function.update_self ..

theorem Transfers.taken_other (state : Transfers κ) {client : κ} (count : Nat) (other : κ)
    (different : other ≠ client) :
    (state.taken client count).streams other = state.streams other :=
  Function.update_of_ne different ..

theorem loop_accepted (serving : state.point.serving = some client) (fileName written : List UInt8)
    (ftps : Ftps) :
    ((state.taken client count).loop client fileName ftps written).accepted = state.accepted ∧
      ((state.taken client count).loop client fileName ftps written).backlog = state.backlog ∧
      ((state.taken client count).loop client fileName ftps written).ftpcs = state.ftpcs := by
  unfold Transfers.loop
  split
  · refine ⟨?_, rfl, state.taken_ftpcs client count⟩
    simp only [Transfers.accepted, serving]
    simp [FtpsPoint.serving, Transfers.taken, Transfers.became]
  · refine ⟨?_, rfl, state.taken_ftpcs client count⟩
    simp only [Transfers.accepted, serving]
    rfl

omit [DecidableEq κ] in
theorem read_length (read : state.Read client want count) :
    ((state.streams client).take count).length = count ∧ count ≤ want := by
  rw [List.length_take]
  exact ⟨Nat.min_eq_left (read.1.trans (Nat.min_le_right _ _)), read.1.trans (Nat.min_le_left _ _)⟩

theorem Sound.loop (sound : Sound names contents state)
    (serving : state.point.serving = some client) (received : List UInt8) {written : List UInt8}
    {ftps : Ftps}
    (sent : Sent (state.ftpcs client) (sizeBytes (contents client) ++ nameBytes (names client) ++
      received ++ (state.streams client).drop count))
    (data : written = received.take (announced (contents client)))
    (left : ftps.fileLeft.toNat = announced (contents client) - received.length) :
    Sound names contents ((state.taken client count).loop client ((names client).take 20) ftps
      written) := by
  have accepted := (@loop_accepted _ _ _ count _ serving ((names client).take 20) written ftps).1
  unfold Transfers.loop at accepted ⊢
  split
  next done =>
    rw [if_pos done] at accepted
    refine sound.moved serving accepted rfl (state.taken_ftpcs client count)
      (state.taken_other count) trivial ?_
    · intro entry member
      rcases List.mem_append.mp member with old | new
      · exact sound.files entry old
      · rw [List.mem_singleton.mp new, data]
        rw [done] at left
        have all : announced (contents client) ≤ received.length := Nat.le_of_sub_eq_zero left.symm
        have same := (sound.received sent).eq_of_length (by
          rw [List.length_take, List.length_take, Nat.min_eq_left all,
            Nat.min_eq_left (announced_le _)])
        rw [same]
  next more =>
    rw [if_neg more] at accepted
    refine sound.moved serving accepted rfl (state.taken_ftpcs client count)
      (state.taken_other count) ⟨received, ?_, rfl, data, left, more⟩ sound.files
    simpa using sent

theorem Sound.fileSize (sound : Sound names contents state) (point : state.point = .fileSize client)
    (all : state.RecvAll client 4 count) :
    Sound names contents { state.taken client count with
      point := .fileName client (recvSize ((state.streams client).take count)).1
        (recvSize ((state.streams client).take count)).2 } := by
  have serving : state.point.serving = some client := by rw [point]; rfl
  have sent := sound.serves
  simp only [Serves, point] at sent
  obtain ⟨rest, shape⟩ := @Sent.next _ _ [] (sizeBytes (contents client)) _ sent
    (sound.started serving) (sound.shape client) (recvAll_enough all)
  obtain ⟨taken, behind⟩ := recvAll_part (show state.RecvAll client (sizeBytes _).length count from all) shape
  refine sound.moved serving ?_ rfl (state.taken_ftpcs client count) (state.taken_other count)
    ⟨?_, ?_⟩ sound.files
  · simp only [Transfers.accepted, serving]
    rfl
  · simpa [behind, ← shape] using sent
  · rw [taken, recvSize_sizeBytes]
    exact UInt32.toNat_ofNat

theorem Sound.fileName (sound : Sound names contents state) (text : 0 ∉ names client)
    {fileSize : UInt32} {bufIn : Block bufInLen} (point : state.point = .fileName client fileSize bufIn)
    (all : state.RecvAll client 20 count) :
    Sound names contents ((state.taken client count).loop client
      (recvName ((state.streams client).take count) bufIn).1
      { fileLeft := fileSize
        bufIn := (recvName ((state.streams client).take count) bufIn).2
        count := 0 } []) := by
  have serving : state.point.serving = some client := by rw [point]; rfl
  have serves := sound.serves
  simp only [Serves, point] at serves
  obtain ⟨sent, size⟩ := serves
  rw [← length_nameBytes (names client)] at all
  obtain ⟨rest, shape⟩ := sent.next (sound.started serving) (sound.shape client) (recvAll_enough all)
  obtain ⟨taken, behind⟩ := recvAll_part all shape
  rw [taken, recvName_nameBytes text]
  refine sound.loop serving [] ?_ List.take_nil.symm size
  rw [behind]
  simpa [shape] using sent

theorem Sound.body (sound : Sound names contents state) {fileName written : List UInt8} {ftps : Ftps}
    (point : state.point = .body client fileName ftps written)
    (read : state.Read client bufInLen count) :
    Sound names contents ((state.taken client count).loop client fileName
      (ftps.passed ((state.streams client).take count)).1
      (written ++ (ftps.passed ((state.streams client).take count)).2)) := by
  have serving : state.point.serving = some client := by rw [point]; rfl
  have serves := sound.serves
  simp only [Serves, point] at serves
  obtain ⟨received, sent, rfl, data, left, _⟩ := serves
  obtain ⟨length, short⟩ := read_length read
  obtain ⟨after, bytes⟩ := passed_data ftps (length.le.trans short)
  apply sound.loop serving (received ++ (state.streams client).take count)
  · simpa [List.append_assoc] using sent
  · rw [bytes, data, List.take_append, left]
  · rw [after, left, List.length_append]
    omega

end Reading

end NetworkProj.Lab2
