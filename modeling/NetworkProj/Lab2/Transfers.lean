import NetworkProj.Lab2.Serving
import NetworkProj.Shared.Reachability

set_option autoImplicit false

namespace NetworkProj.Lab2

section Runs

variable {κ : Type} [DecidableEq κ] {state state' : Transfers κ} {client : κ}
  {names contents : κ → List UInt8} {buf : κ → Block roundLen}

inductive Moves (state : Transfers κ) : TransfersEvent κ → Transfers κ → Prop where
  | connect (client : κ) (idle : (state.ftpcs client).point = .connect) :
      Moves state (.connect client) { state.became client
        { state.ftpcs client with point := .fileSize } (state.streams client) with
          backlog := state.backlog ++ [client] }
  | write (client : κ) (data : List UInt8) (ftpc : Ftpc)
      (written : (state.ftpcs client).write = some (data, ftpc)) :
      Moves state (.write client) (state.became client ftpc (state.streams client ++ data))
  | broken (client : κ) (closed : client ∈ state.files.map Prod.fst) (more : ¬ state.Ended client) :
      Moves state (.broken client) (state.became client
        { state.ftpcs client with point := .exited 1 } (state.streams client))
  | accept (client : κ) (rest : List κ) (point : state.point = .accept)
      (backlog : state.backlog = client :: rest) :
      Moves state .accept { state with point := .fileSize client, backlog := rest }
  | fileSize (client : κ) (count : Nat) (point : state.point = .fileSize client)
      (all : state.RecvAll client 4 count) :
      Moves state (.read count) { state.taken client count with
        point := .fileName client (recvSize ((state.streams client).take count)).1
          (recvSize ((state.streams client).take count)).2 }
  | fileName (client : κ) (fileSize : UInt32) (bufIn : Block bufInLen) (count : Nat)
      (point : state.point = .fileName client fileSize bufIn) (all : state.RecvAll client 20 count) :
      Moves state (.read count) ((state.taken client count).loop client
        (recvName ((state.streams client).take count) bufIn).1
        { fileLeft := fileSize
          bufIn := (recvName ((state.streams client).take count) bufIn).2
          count := 0 } [])
  | body (client : κ) (fileName written : List UInt8) (ftps : Ftps) (count : Nat)
      (point : state.point = .body client fileName ftps written)
      (read : state.Read client bufInLen count) :
      Moves state (.read count) ((state.taken client count).loop client fileName
        (ftps.passed ((state.streams client).take count)).1
        (written ++ (ftps.passed ((state.streams client).take count)).2))

theorem step_moves {event : TransfersEvent κ} {emitted : List Empty}
    (taken : state.step event = .ok (state', emitted)) : Moves state event state' := by
  unfold Transfers.step at taken
  cases event with
  | connect client =>
    simp only at taken
    split at taken
    next idle =>
      cases taken
      exact .connect client idle
    next => cases taken
  | write client =>
    simp only at taken
    split at taken
    next data ftpc written =>
      cases taken
      exact .write client data ftpc written
    next => cases taken
  | broken client =>
    simp only at taken
    split at taken
    next both =>
      cases taken
      exact .broken client both.1 both.2
    next => cases taken
  | accept =>
    simp only at taken
    split at taken
    next client rest point backlog =>
      cases taken
      exact .accept client rest point backlog
    next => cases taken
  | read count =>
    simp only at taken
    split at taken
    next => cases taken
    next client point =>
      split at taken
      next all =>
        cases taken
        exact .fileSize client count point all
      next => cases taken
    next client fileSize bufIn point =>
      split at taken
      next all =>
        cases taken
        exact .fileName client fileSize bufIn count point all
      next => cases taken
    next client fileName ftps written point =>
      split at taken
      next read =>
        cases taken
        exact .body client fileName written ftps count point read
      next => cases taken

theorem moves_step {event : TransfersEvent κ} (moves : Moves state event state') :
    state.step event = .ok (state', []) := by
  cases moves with
  | connect client idle => simp only [Transfers.step, idle, if_true]
  | write client data ftpc written => simp only [Transfers.step, written]
  | broken client closed more => exact if_pos ⟨closed, more⟩
  | accept client rest point backlog => simp only [Transfers.step, point, backlog]
  | fileSize client count point all => simp only [Transfers.step, point, all, if_true]
  | fileName client fileSize bufIn count point all =>
    simp only [Transfers.step, point, all, if_true]
  | body client fileName written ftps count point read =>
    simp only [Transfers.step, point, read, if_true]

omit [DecidableEq κ] in
theorem Sound.initial (names contents : κ → List UInt8) (buf : κ → Block roundLen) :
    Sound names contents (.initial names contents buf) := by
  constructor
  · exact fun client => ⟨rfl, rfl⟩
  · exact .nil
  · intro client
    simp [Transfers.accepted, Transfers.initial, FtpsPoint.serving]
  · exact fun client outside => rfl
  · trivial
  · exact fun entry member => absurd member List.not_mem_nil

theorem Sound.step {event : TransfersEvent κ} {emitted : List Empty}
    (large : ∀ client, (contents client).length < 2 ^ 64) (text : ∀ client, 0 ∉ names client)
    (sound : Sound names contents state) (taken : state.step event = .ok (state', emitted)) :
    Sound names contents state' := by
  cases step_moves taken with
  | connect client idle => exact sound.connect idle
  | write client data ftpc written => exact sound.write (large client) written
  | broken client closed more => exact sound.broken closed
  | accept client rest point backlog => exact sound.accept point backlog
  | fileSize client count point all => exact sound.fileSize point all
  | fileName client fileSize bufIn count point all => exact sound.fileName (text client) point all
  | body client fileName written ftps count point read => exact sound.body point read

def connected (history : Machine.History (TransfersEvent κ) Empty) : List κ :=
  (Machine.events history).filterMap fun event =>
    match event with
    | .connect client => some client
    | _ => none

theorem order_step {event : TransfersEvent κ} {emitted : List Empty}
    (taken : state.step event = .ok (state', emitted)) :
    state'.accepted ++ state'.backlog =
      state.accepted ++ state.backlog ++ connected [(event, emitted)] := by
  cases step_moves taken with
  | connect client idle => exact (List.append_assoc ..).symm
  | write client data ftpc written => exact (List.append_nil _).symm
  | broken client closed more => exact (List.append_nil _).symm
  | accept client rest point backlog =>
    simp [Transfers.accepted, FtpsPoint.serving, connected, point, backlog]
  | fileSize client count point all =>
    simp [Transfers.accepted, FtpsPoint.serving, connected, point, Transfers.taken, Transfers.became]
  | fileName client fileSize bufIn count point all =>
    obtain ⟨accepted, backlog, _⟩ := loop_accepted (show state.point.serving = some client by rw [point]; rfl)
      (recvName ((state.streams client).take count) bufIn).1 [] _
    rw [accepted, backlog]
    exact (List.append_nil _).symm
  | body client fileName written ftps count point read =>
    obtain ⟨accepted, backlog, _⟩ := loop_accepted (show state.point.serving = some client by rw [point]; rfl)
      fileName _ _
    rw [accepted, backlog]
    exact (List.append_nil _).symm

theorem run_sound (large : ∀ client, (contents client).length < 2 ^ 64)
    (text : ∀ client, 0 ∉ names client) {history : Machine.History (TransfersEvent κ) Empty}
    (run : Machine.Run Transfers.step (.initial names contents buf) history state) :
    Sound names contents state ∧ state.accepted ++ state.backlog = connected history := by
  refine run.invariant (fun history state => Sound names contents state ∧
    state.accepted ++ state.backlog = connected history) ⟨.initial names contents buf, rfl⟩ ?_
  intro history state event state' emitted _ holds taken
  refine ⟨holds.1.step large text taken, ?_⟩
  rw [order_step taken, holds.2]
  simp [connected]

/-- The server closes the files of the clients in the order in which they have connected, each
under the first twenty bytes of its name and cut to the size that its header has room for; the one
being received is so far a first part of its file. -/
theorem files_whole (large : ∀ client, (contents client).length < 2 ^ 64)
    (text : ∀ client, 0 ∉ names client) {history : Machine.History (TransfersEvent κ) Empty}
    (run : Machine.Run Transfers.step (.initial names contents buf) history state) :
    (connected history).Nodup ∧
      state.files <+: (connected history).map (fun client =>
        (client, (names client).take 20, (contents client).take (announced (contents client)))) ∧
      ∀ client fileName ftps written, state.point = .body client fileName ftps written →
        (connected history)[state.files.length]? = some client ∧
          fileName = (names client).take 20 ∧
          written <+: (contents client).take (announced (contents client)) := by
  obtain ⟨sound, order⟩ := run_sound large text run
  refine ⟨order ▸ sound.order, ?_, ?_⟩
  · have whole : state.files = (state.files.map Prod.fst).map (fun client =>
        (client, (names client).take 20, (contents client).take (announced (contents client)))) := by
      rw [List.map_map]
      refine (List.map_id' _).symm.trans (List.map_congr_left ?_)
      intro entry member
      exact Prod.ext rfl (sound.files entry member)
    rw [← order, Transfers.accepted, List.append_assoc, List.map_append, ← whole]
    exact List.prefix_append _ _
  · intro client fileName ftps written point
    have serves := sound.serves
    simp only [Serves, point] at serves
    obtain ⟨received, sent, name, data, _⟩ := serves
    refine ⟨?_, name, data ▸ sound.received sent⟩
    rw [← order, Transfers.accepted, point]
    simp [FtpsPoint.serving]

-- Two programs at work: the second file has arrived while the first is on its way.
def twoTransfers : List (TransfersEvent Bool) :=
  [.connect false, .write false, .connect true, .accept, .write true, .read 4, .write false, .read 20,
    .write false, .read 1000, .accept, .write true, .read 4, .read 20, .write true, .read 1]

def twoFiles (client : Bool) : List UInt8 :=
  if client then [7, 8] else [9]

theorem files_whole_example :
    ∃ (history : Machine.History (TransfersEvent Bool) Empty) (state : Transfers Bool),
      Machine.Run Transfers.step (.initial (fun _ => [102]) twoFiles fun _ => .fill roundLen 0)
          history state ∧
        Machine.events history = twoTransfers ∧
        connected history = [false, true] ∧ state.files.length = 1 ∧
        state.files <+: (connected history).map (fun client =>
          (client, [102], (twoFiles client).take (announced (twoFiles client)))) := by
  obtain ⟨history, state, run, events, value⟩ := @Machine.run_of_computed _ _ _ _ Transfers.step
    (.initial (fun _ => [102]) twoFiles fun _ => .fill roundLen 0) _ twoTransfers ([false, true], 1)
    (fun result => (connected result.2, result.1.files.length)) (by decide +kernel)
  have whole := files_whole (by decide) (by decide) run
  exact ⟨history, state, run, events, congrArg Prod.fst value, congrArg Prod.snd value, whole.2.1⟩

end Runs

end NetworkProj.Lab2
