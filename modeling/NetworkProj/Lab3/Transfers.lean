import NetworkProj.Shared.Reachability
import NetworkProj.Lab3.Datagrams
import NetworkProj.Transfer.Sends

set_option autoImplicit false

namespace NetworkProj.Lab3

open LossyQueue (Effect sent received sent_snoc received_snoc)
open NetworkProj.Transfer (Follows Gapless sizeBytes plan)

section Bears

variable {ftpc : Ftpc} {message : TrollMessage}

def Bears (message : TrollMessage) (block : List UInt8) : Prop :=
  message.body.take block.length = block

theorem bears_received {block data : List UInt8} (first : block <+: data)
    (short : data.length ≤ bufLen) (header : SockAddr) (stack : Block bufLen) :
    Bears { header, body := stack.receive data } block := by
  obtain ⟨rest, rfl⟩ := first
  rw [Bears, Block.take, Block.receive_bytes stack short, List.append_assoc, List.take_left]

theorem send_bears {peer : Option SockAddr} {len : Nat} {buf stack : Block bufLen} {value : Int32}
    (sending : ftpc.sending = some (len, buf))
    (sent : tcpdSend peer len buf.bytes stack = .ok (message, value)) :
    (∃ block, ftpc.message = some block ∧ Bears message block) ∧ ¬ value < 0 := by
  unfold tcpdSend at sent
  split at sent
  · cases sent
  next within =>
    split at sent
    · cases sent
    next peerAddr =>
      obtain ⟨rfl, rfl⟩ := Prod.mk.inj (Except.ok.inj sent)
      have short : (buf.bytes.take len).length ≤ bufLen := by
        rw [List.length_take, buf.sized]
        exact Nat.min_le_right _ _
      refine ⟨?_, by decide⟩
      rw [Ftpc.sending] at sending
      rw [NetworkProj.Ftpc.message]
      cases at_ : ftpc.point with
      | connect | exited code => simp [at_] at sending
      | fileSize =>
        simp only [at_, Option.some.injEq, Prod.mk.injEq] at sending ⊢
        obtain ⟨rfl, rfl⟩ := sending
        refine ⟨_, rfl, bears_received ?_ short _ _⟩
        rw [Block.receive_bytes _ (by exact (by decide : 4 ≤ bufLen))]
        exact List.prefix_rfl
      | fileName =>
        simp only [at_, Option.some.injEq, Prod.mk.injEq] at sending ⊢
        obtain ⟨rfl, rfl⟩ := sending
        exact ⟨_, rfl, bears_received List.prefix_rfl short _ _⟩
      | body fileLeft position =>
        simp only [at_, Option.some.injEq, Prod.mk.injEq] at sending ⊢
        obtain ⟨rfl, rfl⟩ := sending
        refine ⟨_, rfl, bears_received ?_ short _ _⟩
        have read : (ftpc.fread position).length ≤ bufLen := by
          rw [NetworkProj.Ftpc.fread, List.length_take]
          exact Nat.min_le_left _ _
        rw [List.take_of_length_le (Block.sized _).le, Block.receive_bytes _ read]
        exact (List.take_prefix _ _).trans (List.prefix_append _ _)

/-- What the header of a file has room for. -/
structure Fits (file : File) : Prop where
  short : file.1.length ≤ 20
  text : 0 ∉ file.1
  size : file.2.length < UInt32.size

theorem plan_parts {file : File} (fits : Fits file) :
    List.Forall₂ (fun block part => ∀ message, Bears message block → part.CarriedBy message)
      (plan file.1 file.2) (parts file) := by
  refine .cons ?_ (.cons ?_ ?_)
  · intro message bears
    have bytes : message.body.bytes = sizeBytes file.2 ++ message.body.bytes.drop 4 := by
      have first : message.body.bytes.take 4 = sizeBytes file.2 := bears
      rw [← first, List.take_append_drop]
    rw [Part.CarriedBy, bytes]
    exact (word32_bytes_long _).trans (UInt64.toUInt32_ofNat' _)
  · intro message bears
    have length := Transfer.length_nameBytes file.1
    rw [Bears, length] at bears
    rw [Part.CarriedBy, bears, ← takeWhile_ended length (.fill bufLen 0)]
    exact Transfer.takeWhile_name fits.short fits.text _
  · rw [blocks, List.forall₂_map_right_iff]
    exact List.forall₂_same.mpr fun _ _ _ bears => bears

theorem carried_bears {messages : List TrollMessage} {sent : List (List UInt8)} {front : List Part}
    (bears : List.Forall₂ Bears messages sent)
    (means : List.Forall₂ (fun block part => ∀ message, Bears message block → part.CarriedBy message)
      sent front) : Carried messages front := by
  induction bears generalizing front with
  | nil =>
    cases means
    exact .nil
  | cons first _ ih =>
    cases means with
    | cons mean means => exact .cons (mean _ first) (ih means)

theorem carried_plan {messages : List TrollMessage} {sent : List (List UInt8)} {file : File}
    (fits : Fits file) (bears : List.Forall₂ Bears messages sent)
    (within : sent <+: plan file.1 file.2) : Carried messages ((parts file).take sent.length) := by
  have means := List.forall₂_take sent.length (plan_parts fits)
  rw [← List.prefix_iff_eq_take.mp within] at means
  exact carried_bears bears means

end Bears

section Clients

variable {server : SockAddr} {state state' : Transfers} {event : TransfersEvent}
  {emitted : List TransfersEffect} {history : Machine.History TransfersEvent TransfersEffect}

def started : TransfersEvent → Option File
  | .start fileName file _ => some (fileName, file)
  | .connect | .send _ | .lose _ | .copy _ | .damage .. | .recv _ => none

def clients (history : Machine.History TransfersEvent TransfersEffect) : List File :=
  (Machine.events history).filterMap started

inductive Moves (server : SockAddr) (state : Transfers) :
    TransfersEvent → Transfers → List TransfersEffect → Prop where
  | start (fileName file : List UInt8) (buf : Block bufLen) (idle : state.idle) :
      Moves server state (.start fileName file buf)
        { state with ftpc := some { fileName, file, point := .connect, buf, peer := none } } []
  | connect (ftpc : Ftpc) (current : state.ftpc = some ftpc) (connecting : ftpc.point = .connect) :
      Moves server state .connect
        { state with ftpc := some { ftpc with toFtpc := ftpc.returned 0, peer := some server } } []
  | send (stack : Block bufLen) (ftpc : Ftpc) (len : Nat) (buf : Block bufLen)
      (message : TrollMessage) (value : Int32) (current : state.ftpc = some ftpc)
      (sending : ftpc.sending = some (len, buf))
      (called : tcpdSend ftpc.peer len buf.bytes stack = .ok (message, value)) :
      Moves server state (.send stack)
        { state with
          ftpc := some { ftpc with toFtpc := ftpc.returned value, buf }
          wire := state.wire ++ [message] }
        [.sent message]
  | lose (index : Nat) (message : TrollMessage) (found : state.wire[index]? = some message) :
      Moves server state (.lose index) { state with wire := state.wire.eraseIdx index }
        [.lost message]
  | copy (index : Nat) (message : TrollMessage) (found : state.wire[index]? = some message) :
      Moves server state (.copy index) { state with wire := state.wire ++ [message] } []
  | damage (index : Nat) (message : TrollMessage) :
      Moves server state (.damage index message)
        { state with wire := state.wire.set index message } []
  | recv (index : Nat) (message : TrollMessage) (found : state.wire[index]? = some message) :
      Moves server state (.recv index)
        { state with
          wire := state.wire.eraseIdx index
          ftps := (state.ftps.received (message.body.take state.ftps.point.len)).1
          files := state.files ++
            (state.ftps.received (message.body.take state.ftps.point.len)).2.toList }
        [.received message]

theorem step_moves (taken : state.step server event = .ok (state', emitted)) :
    Moves server state event state' emitted := by
  cases event with
  | start fileName file buf =>
    simp only [Transfers.step] at taken
    split at taken
    next idle =>
      cases taken
      exact .start fileName file buf idle
    · cases taken
  | connect =>
    simp only [Transfers.step] at taken
    split at taken
    · cases taken
    next ftpc current =>
      split at taken
      next connecting =>
        cases taken
        exact .connect ftpc current connecting
      all_goals cases taken
  | send stack =>
    simp only [Transfers.step] at taken
    split at taken
    · cases taken
    next ftpc current =>
      split at taken
      · cases taken
      next len buf sending =>
        split at taken
        · cases taken
        next message value called =>
          cases taken
          exact .send stack ftpc len buf message value current sending called
  | lose index =>
    simp only [Transfers.step] at taken
    split at taken
    · cases taken
    next message found =>
      cases taken
      exact .lose index message found
  | copy index =>
    simp only [Transfers.step] at taken
    split at taken
    · cases taken
    next message found =>
      cases taken
      exact .copy index message found
  | damage index message =>
    cases taken
    exact .damage index message
  | recv index =>
    simp only [Transfers.step] at taken
    split at taken
    · cases taken
    next message found =>
      rw [tcpdRecv_data] at taken
      cases taken
      exact .recv index message found

theorem moves_step (moves : Moves server state event state' emitted) :
    state.step server event = .ok (state', emitted) := by
  cases moves with
  | start fileName file buf idle => simp only [Transfers.step, if_pos idle]
  | connect ftpc current connecting => simp only [Transfers.step, current, connecting]
  | send stack ftpc len buf message value current sending called =>
    simp only [Transfers.step, current, sending, called]
  | lose index message found => simp only [Transfers.step, found]
  | copy index message found => simp only [Transfers.step, found]
  | damage index message => rfl
  | recv index message found => simp only [Transfers.step, found, tcpdRecv_data]

/-- The datagrams sent so far: those of the programs that have ended, and the last one's. -/
inductive Made (files : List File) (messages : List TrollMessage) : Option Ftpc → Prop where
  | none (nobody : files = []) (nothing : messages = []) : Made files messages none
  | last (ftpc : Ftpc) (past : List File) (older own : List TrollMessage)
      (blocks : List (List UInt8)) (order : files = past ++ [(ftpc.fileName, ftpc.file)])
      (split : messages = older ++ own) (carried : Carried older (past.flatMap parts))
      (bears : List.Forall₂ Bears own blocks) (follows : Follows blocks ftpc.toFtpc)
      (gapless : Gapless blocks ftpc.toFtpc) (peer : ftpc.point = .connect ∨ ftpc.peer.isSome) :
      Made files messages (some ftpc)

variable {files : List File} {messages : List TrollMessage}

theorem Made.whole (made : Made files messages state.ftpc) (fits : ∀ file ∈ files, Fits file)
    (idle : state.idle) : Carried messages (files.flatMap parts) := by
  rw [Transfers.idle] at idle
  generalize state.ftpc = current at made idle
  cases made with
  | none nobody nothing =>
    rw [nobody, nothing]
    exact .nil
  | last ftpc past older own blocks order split carried bears follows gapless peer =>
    have whole := gapless.whole
    cases at_ : ftpc.point with
    | exited code =>
      rw [Transfer.todo, at_, List.append_nil] at whole
      have fit := fits (ftpc.fileName, ftpc.file) (by simp [order])
      have all := (plan_parts fit).length_eq
      have last := carried_plan fit bears follows.within
      rw [whole, all, List.take_length] at last
      rw [order, split, List.flatMap_append, List.flatMap_singleton]
      exact List.rel_append carried last
    | connect | fileSize | fileName | body fileLeft position =>
      simp [Ftpc.running, at_] at idle

theorem Made.front (made : Made files messages state.ftpc) (fits : ∀ file ∈ files, Fits file) :
    ∃ front, front <+: files.flatMap parts ∧ Carried messages front := by
  generalize state.ftpc = current at made
  cases made with
  | none nobody nothing => exact ⟨[], List.nil_prefix, nothing ▸ .nil⟩
  | last ftpc past older own blocks order split carried bears follows gapless peer =>
    have fit := fits (ftpc.fileName, ftpc.file) (by simp [order])
    have last := carried_plan fit bears follows.within
    refine ⟨past.flatMap parts ++ (parts (ftpc.fileName, ftpc.file)).take blocks.length, ?_, ?_⟩
    · rw [order, List.flatMap_append, List.flatMap_singleton, List.prefix_append_right_inj]
      exact List.take_prefix _ _
    · rw [split]
      exact List.rel_append carried last

theorem Made.step (made : Made files messages state.ftpc)
    (fits : ∀ file ∈ files ++ (started event).toList, Fits file)
    (taken : state.step server event = .ok (state', emitted)) :
    Made (files ++ (started event).toList) (messages ++ emitted.filterMap Effect.sent?)
      state'.ftpc := by
  have fit : ∀ file ∈ files, Fits file := by
    intro file member
    exact fits file (List.mem_append_left _ member)
  cases step_moves taken with
  | start fileName file buf idle =>
    refine .last _ files messages [] [] rfl rfl (made.whole fit idle) .nil ?_ ?_ (.inl rfl)
    · exact ⟨List.nil_prefix, by simp [Transfer.todo], by simp⟩
    · exact ⟨rfl, by simp⟩
  | connect ftpc current connecting =>
    rw [current] at made
    simp only [started, Option.toList_none, List.filterMap_nil, List.append_nil]
    cases made with
    | last _ past older own blocks order split carried bears follows gapless peer =>
      have whole := gapless.whole
      rw [Transfer.todo, connecting] at whole
      have none : blocks = [] := List.append_left_eq_self.mp whole
      subst none
      obtain ⟨name, file⟩ := Transfer.returned_names ftpc.toFtpc 0
      refine .last _ past older own [] ?_ split carried bears ?_ ?_ (.inr rfl)
      · rw [name, file]
        exact order
      · exact Transfer.follows_connected follows connecting 0
      · exact Transfer.gapless_connected gapless connecting
  | send stack ftpc len buf message value current sending called =>
    rw [current] at made
    have sends : [Effect.sent message].filterMap Effect.sent? = [message] := rfl
    simp only [started, Option.toList_none, List.append_nil, sends]
    cases made with
    | last _ past older own blocks order split carried bears follows gapless peer =>
      obtain ⟨⟨block, next, bear⟩, fine⟩ := send_bears sending called
      have small : ftpc.file.length < 2 ^ 64 := by
        have size := (fit (ftpc.fileName, ftpc.file) (by simp [order])).size
        exact size.trans (by decide)
      obtain ⟨name, file⟩ := Transfer.returned_names ftpc.toFtpc value
      have known : ftpc.peer.isSome := by
        refine peer.resolve_left ?_
        intro connecting
        simp [Ftpc.sending, connecting] at sending
      refine .last _ past older (own ++ [message]) (blocks ++ [block]) ?_ ?_ carried ?_ ?_ ?_ (.inr known)
      · rw [name, file]
        exact order
      · rw [split, List.append_assoc]
      · exact List.rel_append bears (.cons bear .nil)
      · exact Transfer.follows_sent small follows next value
      · exact Transfer.gapless_sent small follows gapless next fine
  | lose | copy | damage | recv =>
    simpa [List.filterMap_cons, started, Effect.sent?] using made

end Clients

section Runs

variable {server : SockAddr} {state state' : Transfers} {event : TransfersEvent}
  {emitted : List TransfersEffect} {history : Machine.History TransfersEvent TransfersEffect}

theorem clients_snoc (history : Machine.History TransfersEvent TransfersEffect)
    (event : TransfersEvent) (emitted : List TransfersEffect) :
    clients (history ++ [(event, emitted)]) = clients history ++ (started event).toList := by
  cases event <;> simp [clients, started]

theorem run_made (run : Machine.Run (Transfers.step server) .initial history state)
    (fits : ∀ file ∈ clients history, Fits file) :
    Made (clients history) (sent history) state.ftpc := by
  induction run with
  | start => exact .none rfl rfl
  | @next history state event state' emitted ran taken ih =>
    rw [clients_snoc] at fits ⊢
    rw [sent_snoc]
    refine Made.step (ih ?_) fits taken
    intro file member
    exact fits file (List.mem_append_left _ member)

theorem run_booked (run : Machine.Run (Transfers.step server) .initial history state) :
    Booked (received history) state.files state.ftps.point := by
  induction run with
  | start => exact ⟨.nil, trivial⟩
  | next event state' emitted ran taken ih =>
    rw [received_snoc]
    cases step_moves taken with
    | recv index message found => exact ih.received
    | start | connect | send | lose | copy | damage =>
      simpa [List.filterMap_cons, Effect.received?, received] using ih

theorem carried_snoc {messages : List TrollMessage} {message : TrollMessage} {front : List Part}
    (carried : Carried (messages ++ [message]) front) :
    ∃ before part, front = before ++ [part] ∧ Carried messages before ∧ part.CarriedBy message := by
  induction messages generalizing front with
  | nil =>
    cases carried with
    | cons last none =>
      cases none
      exact ⟨[], _, rfl, .nil, last⟩
  | cons first rest ih =>
    cases carried with
    | @cons _ head _ _ this carried =>
      obtain ⟨before, part, rfl, carried, last⟩ := ih carried
      exact ⟨head :: before, part, rfl, .cons this carried, last⟩

theorem run_serves (run : Machine.Run (Transfers.step server) .initial history state)
    {files : List File} (sizes : ∀ file ∈ files, file.2.length < UInt32.size) {front back : List Part}
    (whole : front ++ back = files.flatMap parts) (carried : Carried (received history) front) :
    Serves files state.files state.ftps.point back := by
  induction run generalizing front back with
  | start =>
    cases carried
    rw [List.nil_append] at whole
    subst whole
    exact .fileSize files rfl
  | next event state' emitted ran taken ih =>
    rw [received_snoc] at carried
    cases step_moves taken with
    | recv index message found =>
      obtain ⟨before, part, rfl, carried, last⟩ := carried_snoc carried
      rw [List.append_assoc] at whole
      exact (ih whole carried).received sizes last
    | start | connect | send | lose | copy | damage =>
      refine ih whole ?_
      simpa [List.filterMap_cons, Effect.received?, received] using carried

/-- Whatever the network does, the server has closed these files and waits for the next one exactly
when the datagrams that it got carry their parts, one for one. -/
theorem files_exact (run : Machine.Run (Transfers.step server) .initial history state)
    (files : List File) (sizes : ∀ file ∈ files, file.2.length < UInt32.size) :
    state.files = files ∧ state.ftps.point = .fileSize ↔
      Carried (received history) (files.flatMap parts) := by
  constructor
  · rintro ⟨rfl, point⟩
    exact (run_booked run).between point
  · intro carried
    exact (run_serves run sizes (List.append_nil _) carried).all

-- The last datagram is damaged behind the end of the file.
def damagedTransfer : List TransfersEvent :=
  [.start [102] [7, 8] (.fill bufLen 9), .connect, .send (.fill bufLen 0), .send (.fill bufLen 1),
    .send (.fill bufLen 2), .damage 2 { header := default, body := .pad bufLen [7, 8, 5] },
    .recv 0, .recv 0, .recv 0]

theorem files_exact_example :
    ∃ (history : Machine.History TransfersEvent TransfersEffect) (state : Transfers),
      Machine.Run (Transfers.step default) .initial history state ∧
        Machine.events history = damagedTransfer ∧ state.files = [([102], [7, 8])] ∧
        state.ftps.point = .fileSize ∧ Carried (received history) (parts ([102], [7, 8])) := by
  obtain ⟨history, state, run, events, value⟩ := @Machine.run_of_computed _ _ _ _
    (Transfers.step default) .initial _ damagedTransfer ([([102], [7, 8])], .fileSize)
    (fun result => (result.1.files, result.1.ftps.point)) (by decide +kernel)
  obtain ⟨files, point⟩ := Prod.mk.inj value
  have carried := (files_exact run [([102], [7, 8])] (by simp [UInt32.size])).mp ⟨files, point⟩
  rw [List.flatMap_singleton] at carried
  exact ⟨history, state, run, events, files, point, carried⟩

end Runs

end NetworkProj.Lab3
