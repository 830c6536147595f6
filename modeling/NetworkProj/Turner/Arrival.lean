import NetworkProj.Turner.FileTransfer

set_option autoImplicit false

namespace NetworkProj.Turner

open LossyQueue (Flow Passes Effect sent lost received sent_snoc lost_snoc received_snoc)

section Runs

variable {order : ByteOrder} {link : Link} {file : List UInt8} {argv title : Block titleLen}
  {size : Block 4} {state state' : FileTransfer} {event : FileTransferEvent}
  {emitted : List FileTransferEffect}
  {history : Machine.History FileTransferEvent FileTransferEffect}

structure Sound (file : List UInt8) (argv : Block titleLen)
    (history : Machine.History FileTransferEvent FileTransferEffect) (state : FileTransfer) : Prop where
  made : (sent history).map payload ++ todo state.ftpc = plan file argv
  flow : Flow (sent history) (lost history) (received history) state.wire
  long : ∀ datagram ∈ state.wire, headerLen ≤ datagram.length
  booked : Booked ((received history).map payload) state.ftps

theorem moves_passes (moves : Moves state event state' emitted) :
    Passes state.wire emitted state'.wire := by
  cases moves with
  | send mesg data ftpc link datagram => exact .send datagram
  | lose index datagram found => exact .lose index datagram found
  | recv mesg header len link datagram rest ftps asks wire => exact .receive datagram rest wire

theorem Sound.step (sound : Sound file argv history state)
    (taken : state.step order event = .ok (state', emitted)) :
    Sound file argv (history ++ [(event, emitted)]) state' := by
  have moves := step_moves sound.long taken
  have flow := sound.flow.passes (moves_passes moves) event
  cases moves with
  | send mesg data ftpc link datagram sending long carries =>
    refine ⟨?_, flow, ?_, ?_⟩
    · have whole := sound.made
      rw [(sending_todo sending).1] at whole
      simpa [sent_snoc, List.filterMap_cons, Effect.sent?, carries] using whole
    · intro earlier member
      rcases List.mem_append.mp member with old | new
      · exact sound.long earlier old
      · rw [List.mem_singleton.mp new]
        exact long
    · simpa [received_snoc, List.filterMap_cons, Effect.received?] using sound.booked
  | lose index datagram found =>
    refine ⟨?_, flow, ?_, ?_⟩
    · simpa [sent_snoc, List.filterMap_cons, Effect.sent?] using sound.made
    · intro other member
      exact sound.long other (List.mem_of_mem_eraseIdx member)
    · simpa [received_snoc, List.filterMap_cons, Effect.received?] using sound.booked
  | recv mesg header len link datagram rest ftps asks wire got =>
    refine ⟨?_, flow, ?_, ?_⟩
    · simpa [sent_snoc, List.filterMap_cons, Effect.sent?] using sound.made
    · intro other member
      exact sound.long other (by rw [wire]; exact List.mem_cons_of_mem _ member)
    · simpa [received_snoc, List.filterMap_cons, Effect.received?] using sound.booked.received asks got

theorem run_sound
    (run : Machine.Run (FileTransfer.step order) (.initial link file argv size title) history state) :
    Sound file argv history state := by
  induction run with
  | start => exact ⟨rfl, .empty, by simp [FileTransfer.initial], ⟨rfl, rfl⟩⟩
  | next event state' emitted ran taken ih => exact ih.step taken

-- As long as the data comes in the order of the plan.
theorem run_serves (short : file.length ≤ intMax) (ends : 0 ∈ argv.bytes)
    (run : Machine.Run (FileTransfer.step order) (.initial link file argv size title) history state)
    {back : List (List UInt8)}
    (whole : (received history).map payload ++ back = plan file argv) :
    Serves file argv state.ftps back := by
  induction run generalizing back with
  | start =>
    rw [show back = plan file argv from whole]
    exact .fileSize rfl rfl
  | next event state' emitted ran taken ih =>
    rw [received_snoc] at whole
    cases step_moves (run_sound ran).long taken with
    | send | lose =>
      refine ih ?_
      simpa [List.filterMap_cons, Effect.received?] using whole
    | recv mesg header len link datagram rest ftps asks wire got =>
      have before : Serves file argv _ (payload datagram :: back) := ih (by
        simpa [List.filterMap_cons, Effect.received?] using whole)
      obtain ⟨ftps', took, serves⟩ := before.received short ends asks
      obtain rfl := Except.ok.inj (got.symm.trans took)
      exact serves

end Runs

section Parts

variable {file : List UInt8} {argv : Block titleLen} {ftps : Ftps} {state : FileTransfer}
  {back : List (List UInt8)} {history : Machine.History FileTransferEvent FileTransferEffect}

theorem full_iff (data : List UInt8) : full data ↔ data ≠ [] := by
  rw [full, decide_eq_true_eq, List.length_pos_iff]

theorem filter_full (datagrams : List (List UInt8)) :
    (datagrams.map payload).filter full = [] ↔ ∀ datagram ∈ datagrams, payload datagram = [] := by
  simp [full_iff]

theorem Sound.sublist (sound : Sound file argv history state) :
    ((received history).map payload).Sublist (plan file argv) := by
  rw [← sound.made]
  have order := (sound.flow.map payload).order
  exact ((List.sublist_append_left _ _).trans order).trans (List.sublist_append_left _ _)

/-- When only datagrams without data are lost, what has come and what is under way is a first part
of the plan. -/
theorem Sound.ordered (sound : Sound file argv history state)
    (idle : ∀ datagram ∈ lost history, payload datagram = []) :
    ∃ back, (received history).map payload ++ (state.wire.map payload ++ back) = plan file argv := by
  have flow := sound.flow.map payload
  have whole := ((flow.filter full).whole_iff).mpr ((filter_full _).mpr idle)
  rw [← List.filter_append] at whole
  have sublist : ((sent history).map payload).Sublist (plan file argv) := by
    rw [← sound.made]
    exact List.sublist_append_left _ _
  have last := (plan_full file argv).sublist sublist
  obtain ⟨rest, first⟩ := LossyQueue.prefix_of_filter flow.order last whole
  refine ⟨rest ++ todo state.ftpc, ?_⟩
  rw [← List.append_assoc, ← List.append_assoc, first, sound.made]

theorem Serves.first (serves : Serves file argv ftps back) : ftps.written <+: file := by
  cases serves with
  | fileSize waits none | title waits none => simp [none]
  | body rest waits whole more => exact ⟨rest, whole⟩
  | closed back ended whole => exact whole ▸ List.prefix_rfl

theorem Serves.silent (serves : Serves file argv ftps back) (asks : ftps.point.len = none) :
    ftps.point = .exited (titleOf argv) ∧ ftps.written = file := by
  cases serves with
  | fileSize waits | title waits | body _ waits =>
    rw [waits] at asks
    cases asks
  | closed back ended whole => exact ⟨ended, whole⟩

-- No data to come.
theorem Serves.ended (serves : Serves file argv ftps back) (none : back.filter full = []) :
    ftps.point = .exited (titleOf argv) ∧ ftps.written = file := by
  cases serves with
  | fileSize waits nothing => cases none
  | title waits nothing =>
    rw [List.filter_cons_of_pos (full_argv argv)] at none
    cases none
  | body rest waits whole more =>
    have empty : ∀ piece ∈ pieces rest, piece = [] := by simpa [full_iff] using none
    have flat := pieces_flatten rest
    rw [List.flatten_eq_nil_iff.mpr empty] at flat
    exact absurd flat.symm more
  | closed back ended whole => exact ⟨ended, whole⟩

end Parts

section Arrival

variable {order : ByteOrder} {link : Link} {file : List UInt8} {argv title : Block titleLen}
  {size : Block 4} {state : FileTransfer}
  {history : Machine.History FileTransferEvent FileTransferEffect}

theorem Sound.sent_all (sound : Sound file argv history state)
    (exited : state.ftpc.point = .exited) : (sent history).map payload = plan file argv := by
  have whole := sound.made
  rw [todo, exited, List.append_nil] at whole
  exact whole

theorem ended_of_arrived (short : file.length ≤ intMax) (ends : 0 ∈ argv.bytes)
    (run : Machine.Run (FileTransfer.step order) (.initial link file argv size title) history state)
    (exited : state.ftpc.point = .exited)
    (idle : ∀ datagram ∈ lost history ++ state.wire, payload datagram = []) :
    state.ftps.point = .exited (titleOf argv) ∧ state.ftps.written = file := by
  have sound := run_sound run
  obtain ⟨back, whole⟩ := sound.ordered fun datagram member => idle datagram (List.mem_append_left _ member)
  have arrived := ((sound.flow.map payload).filter full).arrived_iff.mpr
    ⟨(filter_full _).mpr fun datagram member => idle datagram (List.mem_append_left _ member),
      (filter_full _).mpr fun datagram member => idle datagram (List.mem_append_right _ member)⟩
  rw [sound.sent_all exited, ← whole, List.filter_append] at arrived
  exact (run_serves short ends run whole).ended (List.append_right_eq_self.mp arrived.symm)

theorem Booked.data {payloads : List (List UInt8)} {ftps : Ftps} (booked : Booked payloads ftps)
    (some : ftps.written ≠ []) :
    ftps.written = ((payloads.drop 2).map (·.take mesgLen)).flatten := by
  rw [Booked] at booked
  split at booked
  · exact absurd booked.2 some
  · exact absurd booked.2 some
  · exact booked.2
  · exact booked.2

theorem all_of_flatten {payloads : List (List UInt8)} (some : file ≠ [])
    (sublist : payloads.Sublist (plan file argv))
    (whole : file = ((payloads.drop 2).map (·.take mesgLen)).flatten) :
    payloads.filter full = (plan file argv).filter full := by
  have data : (payloads.drop 2).Sublist (pieces file) := sublist.drop 2
  have uncut : (payloads.drop 2).map (·.take mesgLen) = payloads.drop 2 := by
    conv_rhs => rw [← List.map_id (payloads.drop 2)]
    apply List.map_congr_left
    intro piece member
    exact List.take_of_length_le (pieces_fit file piece (data.subset member))
  rw [uncut] at whole
  have weight := congrArg List.length (whole.symm.trans (pieces_flatten file).symm)
  rw [List.length_flatten, List.length_flatten] at weight
  have all : (payloads.drop 2).filter full = (pieces file).filter full :=
    LossyQueue.filter_of_weight List.length data weight
  have more : payloads.drop 2 ≠ [] := by
    intro none
    rw [none] at whole
    exact some whole
  have ordered := (plan_full file argv).sublist sublist
  refine (sublist.filter full).eq_of_length ?_
  rcases payloads with _ | ⟨first, _ | ⟨second, rest⟩⟩
  · exact absurd rfl more
  · exact absurd rfl more
  · obtain ⟨third, later, behind⟩ := List.exists_cons_of_ne_nil more
    obtain rfl : rest = third :: later := behind
    obtain ⟨before, ordered⟩ := List.pairwise_cons.mp ordered
    have one : full first := before second (.head _)
    have two : full second := (List.pairwise_cons.mp ordered).1 third (.head _)
    rw [filter_plan, ← all, List.filter_cons_of_pos one, List.filter_cons_of_pos two]
    rfl

theorem arrived_of_written (some : file ≠ [])
    (run : Machine.Run (FileTransfer.step order) (.initial link file argv size title) history state)
    (exited : state.ftpc.point = .exited) (written : state.ftps.written = file) :
    ∀ datagram ∈ lost history ++ state.wire, payload datagram = [] := by
  have sound := run_sound run
  have data := sound.booked.data (written ▸ some)
  rw [written] at data
  have arrived := all_of_flatten some sound.sublist data
  rw [← sound.sent_all exited] at arrived
  obtain ⟨none, empty⟩ := ((sound.flow.map payload).filter full).arrived_iff.mp arrived
  intro datagram member
  rcases List.mem_append.mp member with gone | waiting
  · exact (filter_full _).mp none datagram gone
  · exact (filter_full _).mp empty datagram waiting

theorem recv_taken (short : file.length ≤ intMax) (ends : 0 ∈ argv.bytes)
    (run : Machine.Run (FileTransfer.step order) (.initial link file argv size title) history state)
    (idle : ∀ datagram ∈ lost history, payload datagram = []) (mesg : Block mesgLen)
    (header : Block sizeofSockaddr) {len : Int32} {datagram : List UInt8} {rest : List (List UInt8)}
    (asks : state.ftps.point.len = some len) (wire : state.wire = datagram :: rest) :
    ∃ link ftps, FileTransfer.step order state (.recv mesg header) =
      .ok ({ state with link, wire := rest, ftps }, [.received datagram]) := by
  have sound := run_sound run
  obtain ⟨back, whole⟩ := sound.ordered idle
  have serves := run_serves short ends run whole
  rw [wire, List.map_cons, List.cons_append] at serves
  obtain ⟨ftps, received, _⟩ := serves.received short ends asks
  obtain ⟨link, stepped⟩ := @recv_step order _ _ _ _ mesg header asks wire
    (sound.long datagram (by simp [wire]))
  rw [received] at stepped
  exact ⟨link, ftps, stepped⟩

theorem no_fault (short : file.length ≤ intMax) (ends : 0 ∈ argv.bytes)
    (run : Machine.Run (FileTransfer.step order) (.initial link file argv size title) history state)
    (idle : ∀ datagram ∈ lost history, payload datagram = []) (event : FileTransferEvent) :
    FileTransfer.step order state event ≠ .error .fault := by
  cases event with
  | send mesg =>
    cases sending : state.ftpc.sending with
    | none => simp [FileTransfer.step, sending]
    | some next =>
      obtain ⟨link, datagram, stepped, _⟩ := @send_step order _ _ _ mesg sending
      rw [stepped]
      simp
  | lose index =>
    simp only [FileTransfer.step]
    split <;> simp
  | recv mesg header =>
    cases asks : state.ftps.point.len with
    | none => simp [FileTransfer.step, asks]
    | some len =>
      cases wire : state.wire with
      | nil => simp [FileTransfer.step, asks, wire]
      | cons datagram rest =>
        obtain ⟨link, ftps, stepped⟩ := recv_taken short ends run idle mesg header asks wire
        rw [stepped]
        simp

end Arrival

section Settle

variable {order : ByteOrder} {link : Link} {file : List UInt8} {argv title : Block titleLen}
  {size : Block 4} {state state' : FileTransfer} {event : FileTransferEvent}
  {emitted : List FileTransferEffect} {gone : List (List UInt8)}
  {history : Machine.History FileTransferEvent FileTransferEffect}

def onward : FileTransferEvent → Prop
  | .send _ | .recv .. => True
  | .lose _ => False

def work (state : FileTransfer) : Nat :=
  2 * (todo state.ftpc).length + state.wire.length

def Ran (order : ByteOrder) (initial : FileTransfer) (gone : List (List UInt8))
    (state : FileTransfer) : Prop :=
  ∃ history, Machine.Run (FileTransfer.step order) initial history state ∧ lost history = gone

theorem Ran.next (ran : Ran order (.initial link file argv size title) gone state)
    (onwards : onward event) (taken : state.step order event = .ok (state', emitted)) :
    Ran order (.initial link file argv size title) gone state' := by
  obtain ⟨history, run, losses⟩ := ran
  refine ⟨_, run.next event state' emitted taken, ?_⟩
  rw [lost_snoc, losses]
  cases step_moves (run_sound run).long taken with
  | send | recv => exact List.append_nil gone
  | lose => cases onwards

theorem Ran.lower (short : file.length ≤ intMax) (ends : 0 ∈ argv.bytes)
    (idle : ∀ datagram ∈ gone, payload datagram = [])
    (ran : Ran order (.initial link file argv size title) gone state) :
    (state.ftpc.point = .exited ∧
        state.ftps.point = .exited (titleOf argv) ∧ state.ftps.written = file) ∨
      ∃ event state' emitted, onward event ∧ state.step order event = .ok (state', emitted) ∧
        work state' < work state := by
  obtain ⟨history, run, rfl⟩ := ran
  cases sending : state.ftpc.sending with
  | some next =>
    obtain ⟨data, ftpc⟩ := next
    obtain ⟨link, datagram, stepped, _⟩ := @send_step order _ _ _ (.fill _ 0) sending
    refine .inr ⟨.send (.fill _ 0), _, _, trivial, stepped, ?_⟩
    simp only [work, (sending_todo sending).1, List.length_cons, List.length_append, List.length_nil]
    omega
  | none =>
    have exited := sending_none sending
    cases wire : state.wire with
    | nil =>
      have arrived := ended_of_arrived short ends run exited (by simpa [wire] using idle)
      exact .inl ⟨exited, arrived⟩
    | cons datagram rest =>
      cases asks : state.ftps.point.len with
      | none =>
        obtain ⟨back, whole⟩ := (run_sound run).ordered idle
        exact .inl ⟨exited, (run_serves short ends run whole).silent asks⟩
      | some len =>
        obtain ⟨link, ftps, stepped⟩ := recv_taken short ends run idle (.fill _ 0) (.fill _ 0) asks wire
        refine .inr ⟨.recv (.fill _ 0) (.fill _ 0), _, _, trivial, stepped, ?_⟩
        simp only [work, wire, List.length_cons]
        omega

theorem Ran.settle (short : file.length ≤ intMax) (ends : 0 ∈ argv.bytes)
    (idle : ∀ datagram ∈ gone, payload datagram = [])
    (ran : Ran order (.initial link file argv size title) gone state) :
    ∃ last, Machine.Reaches (FileTransfer.step order) onward state last ∧
      last.ftpc.point = .exited ∧ last.ftps.point = .exited (titleOf argv) ∧
      last.ftps.written = file := by
  obtain ⟨last, ⟨reaches, _⟩, goal⟩ := Machine.exists_goal
    (fun value => Machine.Reaches (FileTransfer.step order) onward state value ∧
      Ran order (.initial link file argv size title) gone value)
    (fun value => value.ftpc.point = .exited ∧ value.ftps.point = .exited (titleOf argv) ∧
      value.ftps.written = file) work (by
      rintro value ⟨reaches, ran⟩
      rcases ran.lower short ends idle with done | ⟨event, next, emitted, onwards, taken, less⟩
      · exact .inl done
      · exact .inr ⟨next, ⟨reaches.trans (.single taken onwards), ran.next onwards taken⟩, less⟩)
    ⟨.refl _ _ state, ran⟩
  exact ⟨last, reaches, goal⟩

end Settle

section Whole

variable {order : ByteOrder} {link : Link} {file : List UInt8} {argv title : Block titleLen}
  {size : Block 4} {state : FileTransfer}
  {history : Machine.History FileTransferEvent FileTransferEffect}

def twoBytes : FileTransfer :=
  .initial blank [7, 8] (.pad titleLen [102]) (.fill 4 9) (.fill titleLen 9)

def threeDatagrams : List FileTransferEvent :=
  [.send (.fill mesgLen 1), .send (.fill mesgLen 2), .recv (.fill mesgLen 3) (.fill sizeofSockaddr 0),
    .send (.fill mesgLen 4), .recv (.fill mesgLen 5) (.fill sizeofSockaddr 0),
    .recv (.fill mesgLen 6) (.fill sizeofSockaddr 0)]

end Whole

end NetworkProj.Turner
