import NetworkProj.Shared.LossyQueue
import NetworkProj.Shared.Reachability
import NetworkProj.Turner.Daemons

set_option autoImplicit false

namespace NetworkProj.Turner

open LossyQueue (Flow)

section Plan

/-- What `fread` gives until `feof` holds; the last piece is short, and may be empty. -/
def pieces (file : List UInt8) : List (List UInt8) :=
  if file.length < mesgLen then [file] else file.take mesgLen :: pieces (file.drop mesgLen)
termination_by file.length
decreasing_by
  have positive : 0 < mesgLen := by decide
  rw [List.length_drop]
  omega

theorem pieces_short {file : List UInt8} (short : file.length < mesgLen) : pieces file = [file] := by
  rw [pieces, if_pos short]

theorem pieces_long {file : List UInt8} (long : mesgLen ≤ file.length) :
    pieces file = file.take mesgLen :: pieces (file.drop mesgLen) := by
  rw [pieces, if_neg (Nat.not_lt.mpr long)]

theorem pieces_flatten (file : List UInt8) : (pieces file).flatten = file := by
  fun_induction pieces file with
  | case1 file short => simp
  | case2 file long ih => rw [List.flatten_cons, ih, List.take_append_drop]

theorem pieces_fit (file : List UInt8) : ∀ piece ∈ pieces file, piece.length ≤ mesgLen := by
  fun_induction pieces file with
  | case1 file short => simpa using short.le
  | case2 file long ih =>
    intro piece member
    rcases List.mem_cons.mp member with rfl | later
    · exact List.length_take_le _ _
    · exact ih piece later

def full (data : List UInt8) : Bool :=
  0 < data.length

theorem pieces_full (file : List UInt8) : (pieces file).Pairwise fun piece _ => full piece := by
  fun_induction pieces file with
  | case1 file short => exact List.pairwise_singleton _ _
  | case2 file long ih =>
    refine .cons ?_ ih
    intro _ _
    rw [full, List.length_take, Nat.min_eq_left (Nat.le_of_not_lt long)]
    decide

def plan (file : List UInt8) (argv : Block titleLen) : List (List UInt8) :=
  sizeBytes file :: argv.bytes :: pieces file

theorem full_argv (argv : Block titleLen) : full argv.bytes := by
  rw [full, argv.sized]
  rfl

theorem plan_full (file : List UInt8) (argv : Block titleLen) :
    (plan file argv).Pairwise fun data _ => full data :=
  .cons (fun _ _ => rfl) (.cons (fun _ _ => full_argv argv) (pieces_full file))

theorem filter_plan (file : List UInt8) (argv : Block titleLen) :
    (plan file argv).filter full = sizeBytes file :: argv.bytes :: (pieces file).filter full := by
  have size : full (sizeBytes file) := rfl
  rw [plan, List.filter_cons_of_pos size, List.filter_cons_of_pos (full_argv argv)]

end Plan

section Client

variable {ftpc ftpc' : Ftpc} {data : List UInt8}

def todo (ftpc : Ftpc) : List (List UInt8) :=
  match ftpc.point with
  | .fileSize => plan ftpc.file ftpc.argv
  | .title => ftpc.argv.bytes :: pieces ftpc.file
  | .body position => pieces (ftpc.file.drop position)
  | .exited => []

theorem sending_todo (sending : ftpc.sending = some (data, ftpc')) :
    todo ftpc = data :: todo ftpc' ∧ ftpc'.file = ftpc.file ∧ ftpc'.argv = ftpc.argv ∧
      data.length ≤ mesgLen := by
  rw [Ftpc.sending] at sending
  rw [todo]
  cases at_ : ftpc.point with
  | fileSize =>
    simp only [at_, Option.some.injEq, Prod.mk.injEq] at sending ⊢
    obtain ⟨rfl, rfl⟩ := sending
    exact ⟨rfl, rfl, rfl, (by decide : 4 ≤ mesgLen)⟩
  | title =>
    simp only [at_, Option.some.injEq, Prod.mk.injEq] at sending ⊢
    obtain ⟨rfl, rfl⟩ := sending
    refine ⟨rfl, rfl, rfl, ?_⟩
    rw [ftpc.argv.sized]
    decide
  | body position =>
    simp only [at_, Option.some.injEq, Prod.mk.injEq] at sending ⊢
    obtain ⟨rfl, rfl⟩ := sending
    refine ⟨?_, rfl, rfl, List.length_take_le _ _⟩
    by_cases short : (ftpc.file.drop position).length < mesgLen
    · have all : (ftpc.file.drop position).take mesgLen = ftpc.file.drop position :=
        List.take_of_length_le short.le
      rw [pieces_short short, all, todo, if_pos short]
    · have long := Nat.le_of_not_lt short
      have read : ((ftpc.file.drop position).take mesgLen).length = mesgLen := by
        rw [List.length_take, Nat.min_eq_left long]
      rw [pieces_long long, todo, read, if_neg (Nat.lt_irrefl _), List.drop_drop]
  | exited => simp [at_] at sending

theorem sending_none (none : ftpc.sending = none) : ftpc.point = .exited := by
  rw [Ftpc.sending] at none
  cases at_ : ftpc.point with
  | fileSize | title | body position => simp [at_] at none
  | exited => rfl

end Client

section Server

variable {file : List UInt8} {argv : Block titleLen} {ftps : Ftps} {data : List UInt8}
  {back : List (List UInt8)} {len : Int32}

def titleOf (argv : Block titleLen) : List UInt8 :=
  argv.bytes.takeWhile (· ≠ 0)

def fileSizeOf (file : List UInt8) : Int32 :=
  (UInt32.ofNat file.length).toInt32

/-- With the data to come, in this order, `ftps` will have the file. -/
inductive Serves (file : List UInt8) (argv : Block titleLen) (ftps : Ftps) :
    List (List UInt8) → Prop where
  | fileSize (waits : ftps.point = .fileSize) (none : ftps.written = []) :
      Serves file argv ftps (plan file argv)
  | title (waits : ftps.point = .title (fileSizeOf file)) (none : ftps.written = []) :
      Serves file argv ftps (argv.bytes :: pieces file)
  | body (rest : List UInt8)
      (waits : ftps.point = .body (titleOf argv) (fileSizeOf file) ftps.written.length)
      (whole : ftps.written ++ rest = file) (more : rest ≠ []) :
      Serves file argv ftps (pieces rest)
  | closed (back : List (List UInt8)) (ended : ftps.point = .exited (titleOf argv))
      (whole : ftps.written = file) : Serves file argv ftps back

theorem fileSizeOf_toInt (short : file.length ≤ intMax) : (fileSizeOf file).toInt = file.length := by
  have small : file.length < 2 ^ 31 := Nat.lt_of_le_of_lt short (by decide)
  exact Int32.toInt_ofNat_of_lt small

theorem serves_loop (short : file.length ≤ intMax) (rest : List UInt8)
    (whole : ftps.written ++ rest = file)
    (waits : ftps.point = .loop (titleOf argv) (fileSizeOf file) ftps.written.length)
    (later : rest ≠ [] → back = pieces rest) : Serves file argv ftps back := by
  have length : ftps.written.length + rest.length = file.length := by
    rw [← whole, List.length_append]
  rw [FtpsPoint.loop, fileSizeOf_toInt short] at waits
  by_cases more : rest = []
  · subst more
    rw [List.length_nil] at length
    rw [if_neg (by omega)] at waits
    rw [List.append_nil] at whole
    exact .closed back waits whole
  · have positive := List.length_pos_iff.mpr more
    rw [if_pos (by omega)] at waits
    rw [later more]
    exact .body rest waits whole more

theorem received_fileSize (waits : ftps.point = .fileSize) (file : List UInt8) :
    ∃ size, ftps.received (sizeBytes file) =
      .ok { ftps with size, point := .title (fileSizeOf file) } := by
  have word := (word32_received ftps.size (Nat.le_refl 4) _ _ _ _).trans
    (word32_bytes (UInt32.ofNat file.length))
  refine ⟨ftps.size.receive (sizeBytes file), ?_⟩
  simp only [Ftps.received, waits, sizeBytes, word]
  rfl

theorem received_title {convertedSize : Int32} (waits : ftps.point = .title convertedSize)
    (ends : 0 ∈ argv.bytes) :
    ftps.received argv.bytes =
      .ok { ftps with title := argv, point := .loop (titleOf argv) convertedSize 0 } := by
  simp only [Ftps.received, waits, Block.receive_whole, if_pos ends]
  rfl

theorem Serves.received (short : file.length ≤ intMax) (ends : 0 ∈ argv.bytes)
    (serves : Serves file argv ftps (data :: back)) (asks : ftps.point.len = some len) :
    ∃ ftps', ftps.received (data.take len.toInt.toNat) = .ok ftps' ∧ Serves file argv ftps' back := by
  generalize whole : data :: back = come at serves
  cases serves with
  | fileSize waits none =>
    obtain ⟨rfl, rfl⟩ := List.cons.inj whole
    rw [waits] at asks
    cases asks
    obtain ⟨size, received⟩ := received_fileSize waits file
    exact ⟨_, received, .title rfl none⟩
  | title waits none =>
    obtain ⟨rfl, rfl⟩ := List.cons.inj whole
    rw [waits] at asks
    cases asks
    have all : argv.bytes.take (20 : Int32).toInt.toNat = argv.bytes :=
      List.take_of_length_le argv.sized.le
    rw [all]
    refine ⟨_, received_title waits ends, ?_⟩
    exact serves_loop short file (by simp [none]) (by simp [none]) fun _ => rfl
  | body rest waits split more =>
    rw [waits] at asks
    cases asks
    have limit : (1000 : Int32).toInt.toNat = mesgLen := rfl
    have length : ftps.written.length + rest.length = file.length := by
      rw [← split, List.length_append]
    have piece : data = rest.take mesgLen ∧
        (rest.drop mesgLen ≠ [] → back = pieces (rest.drop mesgLen)) := by
      by_cases last : rest.length < mesgLen
      · rw [pieces_short last] at whole
        obtain ⟨rfl, rfl⟩ := List.cons.inj whole
        have all := List.take_of_length_le last.le
        have none := List.drop_of_length_le last.le
        exact ⟨all.symm, fun some => absurd none some⟩
      · rw [pieces_long (Nat.le_of_not_lt last)] at whole
        obtain ⟨rfl, rfl⟩ := List.cons.inj whole
        exact ⟨rfl, fun _ => rfl⟩
    obtain ⟨rfl, later⟩ := piece
    rw [limit, List.take_take, Nat.min_self]
    have within : (rest.take mesgLen).length ≤ rest.length := List.length_take_le' _ _
    have fits : ¬ intMax < ftps.written.length + (rest.take mesgLen).length := by omega
    refine ⟨_, by simp only [Ftps.received, waits, if_neg fits]; rfl, ?_⟩
    refine serves_loop short (rest.drop mesgLen) ?_ ?_ later
    · rw [List.append_assoc, List.take_append_drop, split]
    · rw [List.length_append]
  | closed _ ended split =>
    rw [ended] at asks
    cases asks

end Server

section Steps

variable {order : ByteOrder} {state state' : FileTransfer} {event : FileTransferEvent}
  {emitted : List FileTransferEffect} {ftpc : Ftpc} {data datagram : List UInt8}
  {rest : List (List UInt8)} {len : Int32}

theorem lenOf_sendPacket (mesg : Block mesgLen) (fits : data.length ≤ mesgLen) :
    lenOf (sendPacket mesg data) = data.length := by
  have small : data.length < 2 ^ 31 := Nat.lt_of_le_of_lt fits (by decide)
  have value : (Int32.ofNat data.length).toInt = data.length := Int32.toInt_ofNat_of_lt small
  have size := @toSize_nonneg (Int32.ofNat data.length) (by omega)
  rw [value] at size
  exact Int.ofNat_inj.mp size

theorem send_step (mesg : Block mesgLen) (sending : state.ftpc.sending = some (data, ftpc)) :
    ∃ link datagram, FileTransfer.step order state (.send mesg) =
        .ok ({ state with link, ftpc, wire := state.wire ++ [datagram] }, [.sent datagram]) ∧
      headerLen ≤ datagram.length ∧ payload datagram = data := by
  obtain ⟨_, _, _, fits⟩ := sending_todo sending
  have len := lenOf_sendPacket mesg fits
  obtain ⟨client, datagram, sent, length, carries⟩ :=
    fromClient_payload order state.link.client (len.le.trans fits)
  refine ⟨{ state.link with client }, datagram, ?_, length ▸ Nat.le_add_right _ _, ?_⟩
  · have client : (sendPacket mesg data).sender = 1 := rfl
    simp only [FileTransfer.step, sending, Link.step, Tcpd.step, client, if_true, sent]
    rfl
  · rw [carries, len]
    exact Block.receive_take mesg fits

theorem len_size (point : FtpsPoint) (asks : point.len = some len) :
    (toSize len).toNat = len.toInt.toNat ∧ len.toInt.toNat ≤ mesgLen := by
  cases point with
  | fileSize | title | body =>
    cases asks
    exact ⟨rfl, by decide⟩
  | exited => cases asks

theorem recv_step (mesg : Block mesgLen) (header : Block sizeofSockaddr)
    (asks : state.ftps.point.len = some len) (wire : state.wire = datagram :: rest)
    (whole : headerLen ≤ datagram.length) :
    ∃ link, FileTransfer.step order state (.recv mesg header) =
      (state.ftps.received ((payload datagram).take len.toInt.toNat)).map fun ftps =>
        ({ state with link, wire := rest, ftps }, [.received datagram]) := by
  obtain ⟨size, fits⟩ := len_size _ asks
  have carries : payload (header.bytes ++ datagram.drop sizeofSockaddr) = payload datagram := by
    rw [payload, headerLen, ← List.drop_drop, List.drop_left' header.sized, List.drop_drop]
    rfl
  have length : (header.bytes ++ datagram.drop sizeofSockaddr).length = datagram.length := by
    unfold headerLen at whole
    rw [List.length_append, List.length_drop, header.sized]
    omega
  obtain ⟨server, test, check, received⟩ := @fromServer_payload (recvPacket mesg len) order
    state.link.server (header.bytes ++ datagram.drop sizeofSockaddr) _ size fits (length ▸ whole)
  have asked : (recvPacket mesg len).sender = 2 := rfl
  have other : ¬ (2 : Int32) = 1 := by decide
  refine ⟨{ state.link with server }, ?_⟩
  rw [carries] at received
  cases got : state.ftps.received ((payload datagram).take len.toInt.toNat) with
  | error | ok =>
    simp only [FileTransfer.step, asks, wire, Link.step, Tcpd.step, asked, if_neg other, if_true,
      received, List.findSome?, TcpdEffect.toServer?, List.take_take, Nat.min_self, got, Except.map]

inductive Moves (state : FileTransfer) :
    FileTransferEvent → FileTransfer → List FileTransferEffect → Prop where
  | send (mesg : Block mesgLen) (data : List UInt8) (ftpc : Ftpc) (link : Link)
      (datagram : List UInt8) (sending : state.ftpc.sending = some (data, ftpc))
      (long : headerLen ≤ datagram.length) (carries : payload datagram = data) :
      Moves state (.send mesg) { state with link, ftpc, wire := state.wire ++ [datagram] }
        [.sent datagram]
  | lose (index : Nat) (datagram : List UInt8) (found : state.wire[index]? = some datagram) :
      Moves state (.lose index) { state with wire := state.wire.eraseIdx index } [.lost datagram]
  | recv (mesg : Block mesgLen) (header : Block sizeofSockaddr) (len : Int32) (link : Link)
      (datagram : List UInt8) (rest : List (List UInt8)) (ftps : Ftps)
      (asks : state.ftps.point.len = some len) (wire : state.wire = datagram :: rest)
      (received : state.ftps.received ((payload datagram).take len.toInt.toNat) = .ok ftps) :
      Moves state (.recv mesg header) { state with link, wire := rest, ftps } [.received datagram]

theorem step_moves (long : ∀ datagram ∈ state.wire, headerLen ≤ datagram.length)
    (taken : state.step order event = .ok (state', emitted)) : Moves state event state' emitted := by
  cases event with
  | send mesg =>
    cases sending : state.ftpc.sending with
    | none =>
      simp only [FileTransfer.step, sending] at taken
      cases taken
    | some next =>
      obtain ⟨data, ftpc⟩ := next
      obtain ⟨link, datagram, stepped, enough, carries⟩ := @send_step order _ _ _ mesg sending
      rw [stepped] at taken
      cases taken
      exact .send mesg data ftpc link datagram sending enough carries
  | lose index =>
    simp only [FileTransfer.step] at taken
    split at taken
    · cases taken
    next datagram found =>
      cases taken
      exact .lose index datagram found
  | recv mesg header =>
    cases asks : state.ftps.point.len with
    | none =>
      simp only [FileTransfer.step, asks] at taken
      cases taken
    | some len =>
      cases wire : state.wire with
      | nil =>
        simp only [FileTransfer.step, asks, wire] at taken
        cases taken
      | cons datagram rest =>
        obtain ⟨link, stepped⟩ := @recv_step order _ _ _ _ mesg header asks wire
          (long datagram (by simp [wire]))
        rw [stepped] at taken
        cases received : state.ftps.received ((payload datagram).take len.toInt.toNat) with
        | error stop =>
          rw [received] at taken
          cases taken
        | ok ftps =>
          rw [received] at taken
          cases taken
          exact .recv mesg header len link datagram rest ftps asks wire received

end Steps

section Booked

variable {ftps ftps' : Ftps} {payloads : List (List UInt8)} {data : List UInt8} {len : Int32}

/-- The file is what came behind the first two datagrams, whatever these were. -/
def Booked (payloads : List (List UInt8)) (ftps : Ftps) : Prop :=
  match ftps.point with
  | .fileSize => payloads = [] ∧ ftps.written = []
  | .title _ => payloads.length = 1 ∧ ftps.written = []
  | .body .. | .exited _ =>
    2 ≤ payloads.length ∧ ftps.written = ((payloads.drop 2).map (·.take mesgLen)).flatten

theorem booked_loop {file : List UInt8} {convertedSize : Int32} {bytes : Nat}
    (waits : ftps.point = .loop file convertedSize bytes) (two : 2 ≤ payloads.length)
    (written : ftps.written = ((payloads.drop 2).map (·.take mesgLen)).flatten) :
    Booked payloads ftps := by
  rw [FtpsPoint.loop] at waits
  by_cases more : (bytes : Int) < convertedSize.toInt
  · rw [if_pos more] at waits
    rw [Booked, waits]
    exact ⟨two, written⟩
  · rw [if_neg more] at waits
    rw [Booked, waits]
    exact ⟨two, written⟩

theorem Booked.received (booked : Booked payloads ftps) (asks : ftps.point.len = some len)
    (received : ftps.received (data.take len.toInt.toNat) = .ok ftps') :
    Booked (payloads ++ [data]) ftps' := by
  rw [Booked] at booked
  rw [Ftps.received] at received
  cases at_ : ftps.point with
  | fileSize =>
    simp only [at_] at booked received
    obtain ⟨rfl, none⟩ := booked
    cases received
    exact ⟨rfl, none⟩
  | title convertedSize =>
    simp only [at_] at booked received
    obtain ⟨one, none⟩ := booked
    split at received
    · cases received
      refine booked_loop rfl (by simp [one]) ?_
      rw [List.drop_of_length_le (by simp [one])]
      exact none
    · cases received
  | body file convertedSize bytes =>
    simp only [at_] at booked received
    obtain ⟨two, written⟩ := booked
    rw [at_] at asks
    cases asks
    split at received
    · cases received
    · cases received
      refine booked_loop rfl (by rw [List.length_append]; omega) ?_
      rw [List.drop_append_of_le_length two, List.map_append, List.flatten_append, ← written]
      simp only [List.map_cons, List.map_nil, List.flatten_cons, List.flatten_nil, List.append_nil]
      rfl
  | exited file =>
    simp only [at_] at received
    cases received

end Booked

end NetworkProj.Turner
