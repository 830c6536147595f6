import NetworkProj.Lab3.Transfers

set_option autoImplicit false

namespace NetworkProj.Lab3

open LossyQueue (Flow Passes Effect sent lost received lost_snoc)
open NetworkProj.Transfer (Follows Gapless plan)

section Order

variable {server : SockAddr} {state state' : Transfers} {event : TransfersEvent}
  {emitted : List TransfersEffect} {history : Machine.History TransfersEvent TransfersEffect}

/-- The network may lose a datagram, and does nothing else to it. -/
def inOrder : TransfersEvent → Bool
  | .start .. | .connect | .send _ | .lose _ => true
  | .recv index => index == 0
  | .copy _ | .damage .. => false

theorem step_passes (ordered : inOrder event) (taken : state.step server event = .ok (state', emitted)) :
    Passes state.wire emitted state'.wire := by
  cases step_moves taken with
  | start | connect => exact .idle
  | send stack ftpc len buf message => exact .send message
  | lose index message found => exact .lose index message found
  | recv index message found =>
    obtain rfl := beq_iff_eq.mp ordered
    cases wire : state.wire with
    | nil => simp [wire] at found
    | cons first rest =>
      rw [wire] at found
      obtain rfl := Option.some.inj found
      exact .receive first rest rfl
  | copy | damage => cases ordered

theorem run_flow (run : Machine.Run (Transfers.step server) .initial history state)
    (ordered : ∀ event ∈ Machine.events history, inOrder event) :
    Flow (sent history) (lost history) (received history) state.wire := by
  induction run with
  | start => exact .empty
  | next event state' emitted ran taken ih =>
    rw [Machine.events_append] at ordered
    refine Flow.passes (ih ?_) (step_passes (ordered event (by simp)) taken) event
    intro event member
    exact ordered event (List.mem_append_left _ member)

end Order

section Settle

variable {server : SockAddr} {state : Transfers} {ftpc : Ftpc} {files : List File}
  {messages : List TrollMessage}

/-- No client is started and nothing is lost any more. -/
def onward : TransfersEvent → Prop
  | .connect | .send _ => True
  | .recv index => index = 0
  | .start .. | .lose _ | .copy _ | .damage .. => False

def callsLeft (ftpc : Ftpc) : Nat :=
  match ftpc.point with
  | .connect => 2 * (plan ftpc.fileName ftpc.file).length + 1
  | .fileSize | .fileName | .body .. | .exited _ => 2 * (Transfer.todo ftpc.toFtpc).length

def work (state : Transfers) : Nat :=
  state.wire.length + state.ftpc.elim 0 callsLeft

theorem callsLeft_todo (connected : ftpc.point ≠ .connect) :
    callsLeft ftpc = 2 * (Transfer.todo ftpc.toFtpc).length := by
  unfold callsLeft
  split
  next connecting => exact absurd connecting connected
  all_goals rfl

theorem callsLeft_running {blocks : List (List UInt8)} (follows : Follows blocks ftpc.toFtpc)
    (running : ftpc.running) : callsLeft ftpc ≠ 0 := by
  rw [Ftpc.running] at running
  rw [callsLeft, Transfer.todo]
  cases at_ : ftpc.point with
  | connect => exact Nat.succ_ne_zero _
  | fileSize | fileName => simp [plan]
  | body fileLeft position =>
    obtain ⟨left, positive⟩ := follows.left fileLeft position at_
    have some : ftpc.file.drop position ≠ [] := List.ne_nil_of_length_pos (left ▸ positive)
    simp [Transfer.chunks_of_ne some]
  | exited code => simp [at_] at running

theorem sending_running (running : ftpc.running) (connected : ftpc.point ≠ .connect) :
    ∃ len buf, ftpc.sending = some (len, buf) ∧ len ≤ bufLen := by
  rw [Ftpc.running] at running
  rw [Ftpc.sending]
  cases at_ : ftpc.point with
  | connect => exact absurd at_ connected
  | fileSize => exact ⟨4, _, rfl, by decide⟩
  | fileName => exact ⟨20, _, rfl, by decide⟩
  | body fileLeft position => exact ⟨bufLen, _, rfl, Nat.le_refl _⟩
  | exited code => simp [at_] at running

theorem tcpdSend_connected {len : Nat} (peerAddr : SockAddr) (buf : List UInt8)
    (stack : Block bufLen) (short : len ≤ bufLen) :
    ∃ message value, tcpdSend (some peerAddr) len buf stack = .ok (message, value) :=
  ⟨_, _, if_neg (Nat.not_lt.mpr short)⟩

theorem todo_returned {blocks : List (List UInt8)} {block : List UInt8} {value : Int32}
    (small : ftpc.file.length < 2 ^ 64) (follows : Follows blocks ftpc.toFtpc)
    (gapless : Gapless blocks ftpc.toFtpc) (next : ftpc.message = some block)
    (fine : ¬ value < 0) :
    (Transfer.todo (ftpc.returned value)).length + 1 = (Transfer.todo ftpc.toFtpc).length := by
  have before := congrArg List.length gapless.whole
  have after := congrArg List.length (Transfer.gapless_sent small follows gapless next fine).whole
  obtain ⟨name, file⟩ := Transfer.returned_names ftpc.toFtpc value
  rw [name, file, ← before] at after
  simp only [List.length_append, List.length_singleton] at after
  omega

theorem running_of_callsLeft (more : callsLeft ftpc ≠ 0) : ftpc.running := by
  cases at_ : ftpc.point with
  | connect | fileSize | fileName | body fileLeft position => simp [Ftpc.running, at_]
  | exited code => simp [callsLeft, Transfer.todo, at_] at more

theorem Made.onward (server : SockAddr) (made : Made files messages state.ftpc) (fits : ∀ file ∈ files, Fits file)
    (more : work state ≠ 0) :
    ∃ event state' emitted, onward event ∧ Moves server state event state' emitted ∧
      work state' < work state := by
  cases wire : state.wire with
  | cons message rest =>
    refine ⟨.recv 0, _, _, rfl, .recv 0 message (by rw [wire]; rfl), ?_⟩
    simp [work, wire]
  | nil =>
    rw [work, wire, List.length_nil, Nat.zero_add] at more
    cases current : state.ftpc with
    | none => simp [current] at more
    | some ftpc =>
      rw [current] at made more
      cases made with
      | last _ past older own blocks order split carried bears follows gapless peer =>
        by_cases connecting : ftpc.point = .connect
        · refine ⟨.connect, _, _, trivial, .connect ftpc current connecting, ?_⟩
          simp [work, wire, current, callsLeft, connecting, NetworkProj.Ftpc.returned, Transfer.todo]
        · obtain ⟨len, buf, sending, short⟩ :=
            sending_running (running_of_callsLeft more) connecting
          obtain ⟨peerAddr, known⟩ := Option.isSome_iff_exists.mp (peer.resolve_left connecting)
          obtain ⟨message, value, called⟩ :=
            tcpdSend_connected peerAddr buf.bytes (.fill bufLen 0) short
          rw [← known] at called
          obtain ⟨⟨block, next, bear⟩, fine⟩ := send_bears sending called
          have small : ftpc.file.length < 2 ^ 64 := by
            have size := (fits (ftpc.fileName, ftpc.file) (by simp [order])).size
            exact size.trans (by decide)
          have less := todo_returned small follows gapless next fine
          refine ⟨.send (.fill bufLen 0), _, _, trivial,
            .send _ ftpc len buf message value current sending called, ?_⟩
          simp only [work, wire, current, Option.elim_some, callsLeft_todo connecting,
            List.nil_append, List.length_singleton, List.length_nil]
          rw [callsLeft_todo (Transfer.returned_point ftpc.toFtpc value)]
          dsimp only
          omega

theorem settled (made : Made files messages state.ftpc) (done : work state = 0) :
    state.idle ∧ state.wire = [] := by
  obtain ⟨empty, none⟩ := Nat.add_eq_zero_iff.mp done
  refine ⟨?_, List.eq_nil_of_length_eq_zero empty⟩
  rw [Transfers.idle]
  generalize state.ftpc = current at made none
  cases made with
  | none => rfl
  | last ftpc past older own blocks order split carried bears follows gapless peer =>
    have ended : ¬ ftpc.running := fun running => callsLeft_running follows running none
    simpa using ended

structure Ran (server : SockAddr) (files : List File) (gone : List TrollMessage)
    (history : Machine.History TransfersEvent TransfersEffect) (state : Transfers) : Prop where
  run : Machine.Run (Transfers.step server) .initial history state
  ordered : ∀ event ∈ Machine.events history, inOrder event
  files : clients history = files
  gone : lost history = gone

theorem Ran.next {gone : List TrollMessage} {state' : Transfers} {event : TransfersEvent}
    {emitted : List TransfersEffect} {history : Machine.History TransfersEvent TransfersEffect}
    (ran : Ran server files gone history state) (onwards : onward event)
    (taken : state.step server event = .ok (state', emitted)) :
    Ran server files gone (history ++ [(event, emitted)]) state' := by
  refine ⟨ran.run.next event state' emitted taken, ?_, ?_, ?_⟩
  · intro earlier member
    rw [Machine.events_append, List.mem_append] at member
    rcases member with old | new
    · exact ran.ordered earlier old
    · obtain rfl := List.mem_singleton.mp new
      cases earlier with
      | connect | send => rfl
      | recv index => exact beq_iff_eq.mpr onwards
      | start | lose | copy | damage => cases onwards
  · rw [clients_snoc, ran.files]
    cases event with
    | connect | send | recv => exact List.append_nil files
    | start | lose | copy | damage => cases onwards
  · rw [lost_snoc, ran.gone]
    cases step_moves taken with
    | connect | send | recv => exact List.append_nil gone
    | start | lose | copy | damage => cases onwards

theorem Ran.settle {gone : List TrollMessage}
    {history : Machine.History TransfersEvent TransfersEffect}
    (ran : Ran server files gone history state) (fits : ∀ file ∈ files, Fits file) :
    ∃ last later, Machine.Reaches (Transfers.step server) onward state last ∧
      Ran server files gone later last ∧ last.idle ∧ last.wire = [] := by
  have made (state : Transfers) (history : Machine.History TransfersEvent TransfersEffect)
      (ran : Ran server files gone history state) : Made files (sent history) state.ftpc := by
    have own := run_made ran.run
    rw [ran.files] at own
    exact own fits
  obtain ⟨last, reaches, ⟨later, ran⟩, done⟩ := Machine.Reaches.descend
    (fun state => ∃ history, Ran server files gone history state) work (by
      rintro state ⟨history, ran⟩ more
      obtain ⟨event, state', emitted, onwards, moves, less⟩ :=
        Made.onward server (made state history ran) fits more
      have taken := moves_step moves
      exact ⟨state', .single taken onwards, ⟨_, ran.next onwards taken⟩, less⟩)
    ⟨history, ran⟩
  exact ⟨last, later, reaches, ran, settled (made last later ran) done⟩

end Settle

section Arrival

variable {server : SockAddr} {state : Transfers}
  {history : Machine.History TransfersEvent TransfersEffect}

theorem run_prefix (run : Machine.Run (Transfers.step server) .initial history state)
    (fits : ∀ file ∈ clients history, Fits file)
    (ordered : ∀ event ∈ Machine.events history, inOrder event) (none : lost history = []) :
    ∃ back, Serves (clients history) state.files state.ftps.point back := by
  obtain ⟨front, ⟨after, whole⟩, carried⟩ := (run_made run fits).front fits
  rw [← (run_flow run ordered).whole_iff.mpr none] at carried
  have got := List.forall₂_take (received history).length carried
  rw [List.take_left] at got
  refine ⟨front.drop (received history).length ++ after,
    run_serves run (fun file member => (fits file member).size) ?_ got⟩
  rw [← List.append_assoc, List.take_append_drop, whole]

-- Each datagram is one part of one file, so that none can be missing.
theorem arrived_iff (run : Machine.Run (Transfers.step server) .initial history state)
    (fits : ∀ file ∈ clients history, Fits file)
    (ordered : ∀ event ∈ Machine.events history, inOrder event) (idle : state.idle) :
    state.files = clients history ↔ lost history = [] ∧ state.wire = [] := by
  have carried := (run_made run fits).whole fits idle
  have flow := run_flow run ordered
  constructor
  · intro same
    have count := flow.count
    have booked := (run_booked run).carried.length_eq
    rw [same, List.length_append, ← carried.length_eq] at booked
    exact ⟨List.eq_nil_of_length_eq_zero (by omega), List.eq_nil_of_length_eq_zero (by omega)⟩
  · intro arrived
    rw [← flow.arrived_iff.mpr arrived] at carried
    have sizes : ∀ file ∈ clients history, file.2.length < UInt32.size := by
      intro file member
      exact (fits file member).size
    exact (run_serves run sizes (List.append_nil _) carried).all.1

/-- When the network only loses: until it does, the files are the first ones of the clients', whole
and in order, the open one is a first part of the next, and the programs can go on until all files
are there. When all clients have ended they are there exactly when every datagram has arrived. -/
theorem files_arrive (run : Machine.Run (Transfers.step server) .initial history state)
    (fits : ∀ file ∈ clients history, Fits file)
    (ordered : ∀ event ∈ Machine.events history, inOrder event) :
    (lost history = [] →
      state.files <+: clients history ∧
      (∀ fileName fileLeft written, state.ftps.point = .body fileName fileLeft written →
        ∃ rest, state.files ++ [(fileName, written ++ rest)] <+: clients history) ∧
      ∃ last, Machine.Reaches (Transfers.step server) onward state last ∧ last.idle ∧
        last.files = clients history) ∧
    (state.idle → (state.files = clients history ↔ lost history = [] ∧ state.wire = [])) := by
  constructor
  · intro none
    obtain ⟨back, serves⟩ := run_prefix run fits ordered none
    obtain ⟨first, opened⟩ := serves.first
    have ran : Ran server (clients history) [] history state := ⟨run, ordered, rfl, none⟩
    obtain ⟨last, later, reaches, ⟨run, ordered, same, gone⟩, idle, empty⟩ := ran.settle fits
    rw [← same] at fits
    refine ⟨first, opened, last, reaches, idle, ?_⟩
    rw [← same]
    exact (arrived_iff run fits ordered idle).mpr ⟨gone, empty⟩
  · exact arrived_iff run fits ordered

def twoTransfers : List TransfersEvent :=
  [.start [102] [7, 8] (.fill bufLen 9), .connect, .send (.fill bufLen 0), .send (.fill bufLen 1),
    .recv 0, .send (.fill bufLen 2), .start [103] [] (.fill bufLen 9), .connect,
    .send (.fill bufLen 3), .recv 0, .recv 0, .send (.fill bufLen 4), .recv 0, .recv 0]

theorem files_arrive_example :
    ∃ (history : Machine.History TransfersEvent TransfersEffect) (state : Transfers),
      Machine.Run (Transfers.step default) .initial history state ∧
        Machine.events history = twoTransfers ∧
        clients history = [([102], [7, 8]), ([103], [])] ∧ state.files = clients history := by
  obtain ⟨history, state, run, events, value⟩ := @Machine.run_of_computed _ _ _ _
    (Transfers.step default) .initial _ twoTransfers ([([102], [7, 8]), ([103], [])], true, 0, 0, true)
    (fun result => (clients result.2, (Machine.events result.2).all inOrder, (lost result.2).length,
      result.1.wire.length, result.1.idle)) (by decide +kernel)
  simp only [Prod.mk.injEq, List.all_eq_true, List.length_eq_zero_iff] at value
  obtain ⟨files, ordered, gone, empty, idle⟩ := value
  refine ⟨history, state, run, events, files,
    ((files_arrive run ?_ ordered).2 idle).mpr ⟨gone, empty⟩⟩
  rw [files]
  intro file member
  simp only [List.mem_cons, List.not_mem_nil, or_false] at member
  rcases member with rfl | rfl
  · exact ⟨by decide, by decide, by decide⟩
  · exact ⟨by decide, by decide, by decide⟩

end Arrival

end NetworkProj.Lab3
