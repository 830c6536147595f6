import Mathlib.Algebra.Order.BigOperators.Group.Finset
import NetworkProj.Lab2.Transfers

set_option autoImplicit false

namespace NetworkProj.Lab2

section Effort

variable {κ : Type} {state state' : Transfers κ} {client : κ} {names contents : κ → List UInt8}
  {ftpc ftpc' : Ftpc} {bytes data : List UInt8}

def blocks (count : Nat) : Nat :=
  (count + (roundLen - 1)) / roundLen

def ftpcLeft (ftpc : Ftpc) : Nat :=
  match ftpc.point with
  | .connect => 3 + blocks ftpc.file.length
  | .fileSize => 2 + blocks ftpc.file.length
  | .fileName => 1 + blocks ftpc.file.length
  | .body fileLeft _ => blocks fileLeft.toNat
  | .exited _ => 0

def pointLeft (contents : κ → List UInt8) : FtpsPoint κ → Nat
  | .accept => 0
  | .fileSize client => 2 + announced (contents client)
  | .fileName _ fileSize _ => 1 + fileSize.toNat
  | .body _ _ ftps _ => ftps.fileLeft.toNat

theorem loop_left (fileLeft : UInt64) (position : Nat) (buf : Block roundLen) :
    ftpcLeft { ftpc with buf, point := Ftpc.loop fileLeft position } = blocks fileLeft.toNat := by
  unfold Ftpc.loop
  split
  next done =>
    rw [done]
    rfl
  next => rfl

theorem blocks_mono {count count' : Nat} (less : count ≤ count') : blocks count ≤ blocks count' :=
  Nat.div_le_div_right (Nat.add_le_add_right less _)

theorem write_left (sent : Sent ftpc bytes) (written : ftpc.write = some (data, ftpc')) :
    ftpcLeft ftpc' < ftpcLeft ftpc := by
  cases point : ftpc.point with
  | connect | exited code =>
    simp only [Ftpc.write, point] at written
    cases written
  | fileSize =>
    simp only [Ftpc.write, point] at written
    cases written
    simp only [ftpcLeft, point]
    exact Nat.add_lt_add_right (by decide) _
  | fileName =>
    simp only [Ftpc.write, point] at written
    cases written
    rw [loop_left]
    have small : ftpc.fileSize.toNat ≤ ftpc.file.length := Nat.mod_le _ _
    have most := blocks_mono small
    simp only [ftpcLeft, point]
    omega
  | body fileLeft position =>
    simp only [Ftpc.write, point] at written
    simp only [Sent, point] at sent
    obtain ⟨_, inside, left⟩ := sent
    obtain ⟨length, _⟩ := block_sent inside
    obtain ⟨rVal, step⟩ := body_left inside left
    rw [rVal] at written
    cases written
    rw [loop_left, step, length]
    simp only [ftpcLeft, point, blocks, roundLen, left]
    omega

variable [DecidableEq κ]

/-- The calls that the transfer of a client can still take. -/
def left (contents : κ → List UInt8) (state : Transfers κ) (client : κ) : Nat :=
  ftpcLeft (state.ftpcs client) +
    if client ∈ state.files.map Prod.fst then 0
    else if state.point.serving = some client then pointLeft contents state.point
    else 3 + announced (contents client)

/-- A step takes one of a client's calls, and leaves the other clients theirs. -/
def Takes (contents : κ → List UInt8) (state state' : Transfers κ) : Prop :=
  ∃ client, left contents state' client < left contents state client ∧
    ∀ other, other ≠ client → left contents state' other = left contents state other

theorem takes_client (point : state'.point = state.point)
    (files : state'.files = state.files)
    (ftpcs : state'.ftpcs = Function.update state.ftpcs client ftpc)
    (less : ftpcLeft ftpc < ftpcLeft (state.ftpcs client)) : Takes contents state state' := by
  refine ⟨client, ?_, ?_⟩
  · rw [left, left, point, files, ftpcs, Function.update_self]
    exact Nat.add_lt_add_right less _
  · intro other different
    rw [left, left, point, files, ftpcs, Function.update_of_ne different]

theorem takes_point (outside : client ∉ state.files.map Prod.fst)
    (ftpcs : state'.ftpcs = state.ftpcs) (files : state'.files = state.files)
    (serving : state.point.serving = none ∨ state.point.serving = some client)
    (served : state'.point.serving = some client)
    (less : pointLeft contents state'.point < if state.point.serving = some client then
      pointLeft contents state.point else 3 + announced (contents client)) :
    Takes contents state state' := by
  refine ⟨client, ?_, ?_⟩
  · rw [left, left, ftpcs, files, if_neg outside, if_neg outside, if_pos served]
    exact Nat.add_lt_add_left less _
  · intro other different
    have now : state'.point.serving ≠ some other := by
      rw [served]
      exact fun same => different (Option.some.inj same).symm
    have before : state.point.serving ≠ some other := by
      rcases serving with idle | serving
      · rw [idle]
        exact Option.some_ne_none other |>.symm
      · rw [serving]
        exact fun same => different (Option.some.inj same).symm
    rw [left, left, ftpcs, files, if_neg now, if_neg before]

theorem takes_loop (outside : client ∉ state.files.map Prod.fst)
    (serving : state.point.serving = some client) {count : Nat} {fileName written : List UInt8}
    {ftps : Ftps} (less : ftps.fileLeft.toNat < pointLeft contents state.point) :
    Takes contents state ((state.taken client count).loop client fileName ftps written) := by
  unfold Transfers.loop
  split
  next done =>
    refine ⟨client, ?_, ?_⟩
    · simp only [left, state.taken_ftpcs client count]
      rw [if_pos (by simp), if_neg outside, if_pos serving]
      omega
    · intro other different
      have apart : some client ≠ some other := fun same => different (Option.some.inj same).symm
      have closed : other ∈ (state.files ++ [(client, fileName, written)]).map Prod.fst ↔
          other ∈ state.files.map Prod.fst := by
        rw [List.map_append, List.mem_append]
        exact or_iff_left (by simpa using different)
      refine congrArg₂ (· + ·) (by rw [state.taken_ftpcs client count]) (if_congr closed rfl ?_)
      rw [serving, if_neg apart]
      rfl
  next more =>
    refine takes_point outside (state.taken_ftpcs client count) rfl (.inr serving) rfl ?_
    rw [if_pos serving]
    exact less

end Effort

section Finish

variable {κ : Type} [DecidableEq κ] {state state' : Transfers κ} {client : κ}
  {names contents : κ → List UInt8} {buf : κ → Block roundLen}

/-- Also after its connection was closed a client is somewhere in its program. -/
def Going (state : Transfers κ) : Prop :=
  ∀ client, (∃ bytes, Sent (state.ftpcs client) bytes) ∨ state.Ended client

theorem Going.became (going : Going state) {ftpc : Ftpc}
    (ftpcs : state'.ftpcs = Function.update state.ftpcs client ftpc)
    (goes : (∃ bytes, Sent ftpc bytes) ∨ ftpc.write = none) : Going state' := by
  intro other
  rw [Transfers.Ended, ftpcs]
  by_cases same : other = client
  · subst same
    rw [Function.update_self]
    exact goes
  · rw [Function.update_of_ne same]
    exact going other

theorem Going.step {event : TransfersEvent κ} {emitted : List Empty}
    (large : ∀ client, (contents client).length < 2 ^ 64) (sound : Sound names contents state)
    (going : Going state) (taken : state.step event = .ok (state', emitted)) : Going state' := by
  cases step_moves taken with
  | connect client idle => exact going.became rfl (.inl ⟨[], rfl⟩)
  | write client data ftpc written =>
    refine going.became rfl (.inl ?_)
    obtain ⟨bytes, sent⟩ | ended := going client
    · exact ⟨bytes ++ data, sent.write (by rw [(sound.own client).2]; exact large client) written⟩
    · rw [ended] at written
      cases written
  | broken client closed more => exact going.became rfl (.inr rfl)
  | accept client rest point backlog => exact going
  | fileSize client count point all =>
    intro other
    simpa [Transfers.Ended] using going other
  | fileName client fileSize bufIn count point all =>
    intro other
    rw [Transfers.Ended, (loop_accepted (by rw [point]; rfl) _ _ _).2.2]
    exact going other
  | body client fileName written ftps count point read =>
    intro other
    rw [Transfers.Ended, (loop_accepted (by rw [point]; rfl) _ _ _).2.2]
    exact going other

omit [DecidableEq κ] in
theorem Sound.positive (sound : Sound names contents state) {fileName written : List UInt8}
    {ftps : Ftps} {count : Nat} (point : state.point = .body client fileName ftps written)
    (read : state.Read client bufInLen count) : 0 < count ∧ 0 < ftps.fileLeft.toNat := by
  have serves := sound.serves
  simp only [Serves, point] at serves
  obtain ⟨received, sent, _, _, left, more⟩ := serves
  have positive : ftps.fileLeft.toNat ≠ 0 := fun zero => more (UInt32.toNat_inj.mp zero)
  refine ⟨?_, Nat.pos_of_ne_zero positive⟩
  rcases read.2 with some | ⟨empty, ended⟩
  · exact some
  · have least := sent.ended (sound.started (by rw [point]; rfl)) ended
    rw [sound.shape, empty, List.append_nil, List.append_assoc, List.prefix_append_right_inj,
      List.prefix_append_right_inj] at least
    have all := (announced_le (contents client)).trans least.length_le
    omega

theorem Takes.step {event : TransfersEvent κ} {emitted : List Empty}
    (sound : Sound names contents state) (going : Going state)
    (taken : state.step event = .ok (state', emitted)) : Takes contents state state' := by
  cases step_moves taken with
  | connect client idle =>
    refine takes_client rfl rfl rfl ?_
    simp only [ftpcLeft, idle]
    exact Nat.add_lt_add_right (by decide) _
  | write client data ftpc written =>
    obtain ⟨bytes, sent⟩ | ended := going client
    · exact takes_client rfl rfl rfl (write_left sent written)
    · rw [ended] at written
      cases written
  | broken client closed more =>
    refine takes_client rfl rfl rfl ?_
    obtain ⟨bytes, sent⟩ | ended := going client
    · obtain ⟨⟨data, ftpc⟩, written⟩ := Option.ne_none_iff_exists'.mp more
      exact Nat.zero_lt_of_lt (write_left sent written)
    · exact absurd ended more
  | accept client rest point backlog =>
    have unclosed : client ∉ state.files.map Prod.fst := by
      intro closed
      have order := (List.nodup_append.mp sound.order).2.2
      exact order client (List.mem_append_left _ closed) client (by simp [backlog]) rfl
    have idle : state.point.serving = none := by rw [point]; rfl
    refine takes_point unclosed rfl rfl (.inl idle) rfl ?_
    rw [idle, if_neg (Option.some_ne_none client).symm]
    exact Nat.add_lt_add_right (by decide) _
  | fileSize client count point all =>
    have serving : state.point.serving = some client := by rw [point]; rfl
    have size := (sound.fileSize point all).serves.2
    refine takes_point (sound.unclosed serving) (state.taken_ftpcs client count) rfl (.inr serving) rfl ?_
    rw [if_pos serving, point, pointLeft, pointLeft, size]
    exact Nat.add_lt_add_right (by decide) _
  | fileName client fileSize bufIn count point all =>
    have serving : state.point.serving = some client := by rw [point]; rfl
    refine takes_loop (sound.unclosed serving) serving ?_
    rw [point]
    exact Nat.lt_add_of_pos_left Nat.one_pos
  | body client fileName written ftps count point read =>
    have serving : state.point.serving = some client := by rw [point]; rfl
    obtain ⟨some, positive⟩ := sound.positive point read
    obtain ⟨length, short⟩ := read_length read
    have after := (passed_data ftps (length.le.trans short)).1
    refine takes_loop (sound.unclosed serving) serving ?_
    rw [point, after, length]
    exact Nat.sub_lt positive some

/-- What the programs of one client and of the server do for its file, counted in their calls. -/
def effort (file : List UInt8) : Nat :=
  6 + blocks file.length + announced file

theorem Sound.complete (sound : Sound names contents state)
    (stuck : ∀ event next, state.step event ≠ .ok next) (client : κ) :
    client ∈ state.files.map Prod.fst := by
  have ended : ∀ client, (state.ftpcs client).write = none := by
    intro client
    apply Option.eq_none_iff_forall_ne_some.mpr
    rintro ⟨data, ftpc⟩ written
    exact stuck _ _ (moves_step (.write client data ftpc written))
  have started : ∀ client, (state.ftpcs client).point ≠ .connect := by
    exact fun client idle => stuck _ _ (moves_step (.connect client idle))
  have all (want : Nat) (client : κ) :
      state.RecvAll client want (min want (state.streams client).length) :=
    ⟨rfl, .inr (ended client)⟩
  cases point : state.point with
  | accept =>
    cases backlog : state.backlog with
    | nil =>
      have member := (sound.known client).mpr (started client)
      rw [backlog, List.append_nil, Transfers.accepted, point] at member
      simpa [FtpsPoint.serving] using member
    | cons first rest => exact absurd (moves_step (.accept first rest point backlog)) (stuck _ _)
  | fileSize served =>
    exact absurd (moves_step (.fileSize served _ point (all 4 served))) (stuck _ _)
  | fileName served fileSize bufIn =>
    exact absurd (moves_step (.fileName served fileSize bufIn _ point (all 20 served))) (stuck _ _)
  | body served fileName ftps written =>
    have read : state.Read served bufInLen (min bufInLen (state.streams served).length) := by
      refine ⟨Nat.le_refl _, ?_⟩
      by_cases empty : state.streams served = []
      · exact .inr ⟨empty, ended served⟩
      · exact .inl (Nat.lt_min.mpr ⟨by decide, List.length_pos_iff.mpr empty⟩)
    exact absurd (moves_step (.body served fileName written ftps _ point read)) (stuck _ _)

end Finish

end NetworkProj.Lab2
