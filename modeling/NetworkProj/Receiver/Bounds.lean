import NetworkProj.Receiver.Reordering

set_option autoImplicit false

namespace NetworkProj.Reception

variable {session : UInt32} {sock next : AcceptedSocket} {effects : List ReceiverEffect}

section Pass

structure Inside (sock : AcceptedSocket) : Prop where
  size : sock.recvBufferSize ≤ sock.receivingLength
  sum : Copyable sock → ∀ now ∈ sock.packages.head?,
    sock.recvBufferSize.toNat + now.len.toNat < 2 ^ 64
  fits : Copyable sock → ∀ now ∈ sock.packages.head?,
    sock.recvBufferSize + now.len ≤ sock.receivingLength →
      now.len.toNat ≤ bufLen ∧ sock.recvBufferSize.toNat + now.len.toNat ≤ bufLen
  -- The request ends inside the package: one copy out of the body, one within it.
  ends : Copyable sock → ∀ now ∈ sock.packages.head?,
    ¬ sock.recvBufferSize + now.len ≤ sock.receivingLength →
      (sock.receivingLength - sock.recvBufferSize).toNat ≤ bufLen ∧
        sock.recvBufferSize.toNat + (sock.receivingLength - sock.recvBufferSize).toNat ≤ bufLen ∧
        (sock.receivingLength - sock.recvBufferSize).toNat +
          (now.len - (sock.receivingLength - sock.recvBufferSize)).toNat ≤ bufLen

/-- A request is for at most a buffer, and no more of it has been gathered. -/
structure Sized (sock : AcceptedSocket) : Prop where
  within : sock.receivingLength.toNat ≤ bufLen
  size : sock.recvBufferSize.toNat ≤ sock.receivingLength.toNat

theorem toNat_remain (room : sock.recvBufferSize < sock.receivingLength) :
    (sock.receivingLength - sock.recvBufferSize).toNat = missing sock := by
  have order := UInt64.lt_iff_toNat_lt.mp room
  exact UInt64.toNat_sub_of_le _ _ (UInt64.le_iff_toNat_le.mpr order.le)

theorem toNat_sum (sized : Sized sock) {now : TrollMessage} (short : now.len.toNat ≤ bufLen) :
    (sock.recvBufferSize + now.len).toNat = sock.recvBufferSize.toNat + now.len.toNat := by
  have within := sized.within
  have size := sized.size
  unfold bufLen at short within
  rw [UInt64.toNat_add]
  omega

theorem inside_of_short (sized : Sized sock)
    (short : Copyable sock → ∀ now ∈ sock.packages.head?, now.len.toNat ≤ bufLen) : Inside sock where
  size := UInt64.le_iff_toNat_le.mpr sized.size
  sum := by
    intro copyable now first
    have small := short copyable now first
    have within := sized.within
    have size := sized.size
    unfold bufLen at small within
    omega
  fits := by
    intro copyable now first fits
    have small := short copyable now first
    rw [UInt64.le_iff_toNat_le, toNat_sum sized small] at fits
    exact ⟨small, fits.trans sized.within⟩
  ends := by
    intro copyable now first ends
    have small := short copyable now first
    have within := sized.within
    have size := sized.size
    have room := UInt64.lt_iff_toNat_lt.mp copyable.1
    rw [UInt64.le_iff_toNat_le, toNat_sum sized small] at ends
    have remain := toNat_remain copyable.1
    have rest := UInt64.toNat_sub_of_le now.len (sock.receivingLength - sock.recvBufferSize)
      (UInt64.le_iff_toNat_le.mpr (by unfold missing at remain; omega))
    unfold missing at remain
    omega

theorem short_of_inside (inside : Inside sock) (copyable : Copyable sock) :
    ∀ now ∈ sock.packages.head?, now.len.toNat ≤ bufLen := by
  intro now first
  by_cases fits : sock.recvBufferSize + now.len ≤ sock.receivingLength
  · exact (inside.fits copyable now first fits).1
  · have whole := (inside.ends copyable now first fits).2.2
    have sum := inside.sum copyable now first
    have room := UInt64.lt_iff_toNat_lt.mp copyable.1
    have remain := toNat_remain copyable.1
    rw [UInt64.le_iff_toNat_le, UInt64.toNat_add, Nat.mod_eq_of_lt sum] at fits
    have rest := UInt64.toNat_sub_of_le now.len (sock.receivingLength - sock.recvBufferSize)
      (UInt64.le_iff_toNat_le.mpr (by unfold missing at remain; omega))
    unfold missing at remain
    omega

theorem sized_pass (sized : Sized sock) (pass : copyBody session sock = .ok (some (next, effects))) :
    Sized next := by
  obtain ⟨now, rest, shape, same, room, ⟨fits, _, recvBuffer, copied, rfl⟩ | ⟨_, _, _, _, _, rfl⟩⟩ :=
    copyBody_cases pass
  · exact ⟨sized.within, UInt64.le_iff_toNat_le.mp fits⟩
  · exact ⟨sized.within, sized.size⟩

theorem pass_of_short (sized : Sized sock) (copyable : Copyable sock)
    (short : ∀ now ∈ sock.packages.head?, now.len.toNat ≤ bufLen) :
    ∃ next effects, copyBody session sock = .ok (some (next, effects)) := by
  obtain ⟨room, now, first, same⟩ := copyable
  have inside := inside_of_short sized fun _ => short
  obtain ⟨rest, shape⟩ := List.head?_eq_some_iff.mp first
  by_cases fits : sock.recvBufferSize + now.len ≤ sock.receivingLength
  · obtain ⟨reads, writes⟩ := inside.fits ⟨room, now, first, same⟩ now first fits
    obtain ⟨recvBuffer, copied⟩ := Block.bcopy_inside now.body sock.recvBuffer 0
      sock.recvBufferSize.toNat now.len.toNat (by omega) writes
    simp [copyBody, room, shape, same, fits, copied]
  · obtain ⟨reads, writes, shifts⟩ := inside.ends ⟨room, now, first, same⟩ now first fits
    obtain ⟨recvBuffer, copied⟩ := Block.bcopy_inside now.body sock.recvBuffer 0
      sock.recvBufferSize.toNat (sock.receivingLength - sock.recvBufferSize).toNat (by omega) writes
    obtain ⟨body, shifted⟩ := Block.bcopy_inside now.body now.body
      (sock.receivingLength - sock.recvBufferSize).toNat 0
      (now.len - (sock.receivingLength - sock.recvBufferSize)).toNat shifts (by omega)
    simp [copyBody, room, shape, same, fits, copied, shifted]

end Pass

section Loop

/-- What is left of a package of `len` bytes when a request for `want` bytes has ended inside it
as often as it can. -/
def lastPart (want len : Nat) : Nat :=
  if len = 0 then 0 else (len - 1) % want + 1

theorem lastPart_of_le {want len : Nat} (fits : len ≤ want) : lastPart want len = len := by
  unfold lastPart
  split
  next empty => exact empty.symm
  next => rw [Nat.mod_eq_of_lt] <;> omega

theorem lastPart_sub {want len : Nat} (ends : want < len) :
    lastPart want (len - want) = lastPart want len := by
  have shorter : len - 1 = len - want - 1 + want := by omega
  have left : len - want ≠ 0 := by omega
  have whole : len ≠ 0 := by omega
  rw [lastPart, if_neg left, lastPart, if_neg whole, shorter, Nat.add_mod_right]

/-- A request for `want` more bytes comes to a package longer than a body. -/
def Overlong (base : UInt32) (want : Nat) : List TrollMessage → Prop
  | [] => False
  | now :: rest => now.seqNum = base ∧ 0 < want ∧
      (bufLen < now.len.toNat ∨ Overlong (base + 1) (want - lastPart want now.len.toNat) rest)

def Reaches (sock : AcceptedSocket) : Prop :=
  Overlong sock.base (missing sock) sock.packages

theorem reaches_cons (sock : AcceptedSocket) {now : TrollMessage} {rest : List TrollMessage}
    (shape : sock.packages = now :: rest) (copyable : Copyable sock)
    (short : now.len.toNat ≤ bufLen) :
    Reaches sock ↔
      Overlong (sock.base + 1) (missing sock - lastPart (missing sock) now.len.toNat) rest := by
  obtain ⟨room, first, head, same⟩ := copyable
  obtain rfl : now = first := by simpa [shape] using head
  have order := UInt64.lt_iff_toNat_lt.mp room
  have positive : 0 < missing sock := by
    unfold missing
    omega
  have small : ¬ bufLen < now.len.toNat := by omega
  simp only [Reaches, shape, Overlong, same, positive, small, true_and, false_or]

theorem reaches_pass (sized : Sized sock) {now : TrollMessage} {rest : List TrollMessage}
    (shape : sock.packages = now :: rest) (short : now.len.toNat ≤ bufLen)
    (pass : copyBody session sock = .ok (some (next, effects))) :
    Reaches next ↔ Reaches sock := by
  obtain ⟨head, tail, split, same, room, branch⟩ := copyBody_cases pass
  obtain ⟨rfl, rfl⟩ := List.cons.inj (shape.symm.trans split)
  have copyable : Copyable sock := ⟨room, now, by simp [shape], same⟩
  have order := UInt64.lt_iff_toNat_lt.mp room
  rw [reaches_cons sock shape copyable short]
  rcases branch with ⟨fits, _, recvBuffer, copied, rfl⟩ | ⟨ends, _, recvBuffer, body, shifted, rfl⟩
  · rw [UInt64.le_iff_toNat_le, toNat_sum sized short] at fits
    rw [lastPart_of_le (by unfold missing; omega)]
    have left : missing { sock with
        recvBuffer
        recvBufferSize := sock.recvBufferSize + now.len
        packages := rest
        base := sock.base + 1 } = missing sock - now.len.toNat := by
      simp only [missing, toNat_sum sized short]
      omega
    rw [Reaches, left]
  · obtain ⟨_, cut⟩ := remain_lt_len room ends shifted
    rw [toNat_remain room] at cut
    rw [UInt64.le_iff_toNat_le, toNat_sum sized short] at ends
    have longer : missing sock < now.len.toNat := by
      unfold missing
      omega
    have cut : (now.len - (sock.receivingLength - sock.recvBufferSize)).toNat =
        now.len.toNat - missing sock := by omega
    have after := reaches_cons { sock with
        recvBuffer
        packages := { now with
          body
          len := now.len - (sock.receivingLength - sock.recvBufferSize) } :: rest }
      rfl ⟨room, _, rfl, same⟩ (by dsimp only; omega)
    rw [after, cut]
    change Overlong (sock.base + 1)
      (missing sock - lastPart (missing sock) (now.len.toNat - missing sock)) rest ↔ _
    rw [lastPart_sub longer]

/-- Every pass that the copy loop comes to stays inside the buffers. -/
def CopiesInside (session : UInt32) (sock : AcceptedSocket) : Prop :=
  ∀ effects current, Loop.Passes (copyBody session) sock effects current → Inside current

theorem copiesInside_iff (sized : Sized sock) : CopiesInside session sock ↔ ¬ Reaches sock := by
  constructor
  · intro inside reaches
    -- The loop comes to the long package: by induction on what is left to copy.
    induction left : copyVariant sock using Nat.strongRecOn generalizing sock with
    | ind left ih =>
      cases shape : sock.packages with
      | nil => simp [Reaches, shape, Overlong] at reaches
      | cons now rest =>
        have copyable : Copyable sock := by
          rw [Reaches, shape] at reaches
          exact ⟨UInt64.lt_iff_toNat_lt.mpr (by have := reaches.2.1; unfold missing at this; omega),
            now, by simp [shape], reaches.1⟩
        have short := short_of_inside (inside [] sock (.done sock)) copyable
        obtain ⟨next, effects, pass⟩ : ∃ next effects,
            copyBody session sock = .ok (some (next, effects)) := pass_of_short sized copyable short
        apply ih (copyVariant next) (left ▸ copyVariant_falls pass) (sized_pass sized pass) _
          ((reaches_pass sized shape (short now (by simp [shape])) pass).mpr reaches) rfl
        intro later current passes
        exact inside _ current (.pass pass passes)
  · intro clear effects current passes
    -- No pass changes whether the loop comes to a long package.
    have head {sock : AcceptedSocket} (clear : ¬ Reaches sock) (copyable : Copyable sock) :
        ∀ now ∈ sock.packages.head?, now.len.toNat ≤ bufLen := by
      intro now first
      obtain ⟨rest, shape⟩ := List.head?_eq_some_iff.mp first
      obtain ⟨room, other, member, same⟩ := copyable
      obtain rfl : now = other := Option.some.inj (first.symm.trans member)
      have order := UInt64.lt_iff_toNat_lt.mp room
      by_contra long
      apply clear
      rw [Reaches, shape]
      exact ⟨same, by unfold missing; omega, .inl (by omega)⟩
    induction passes with
    | done sock => exact inside_of_short sized (head clear)
    | @pass sock next _ _ _ taken _ ih =>
      obtain ⟨now, rest, shape, same, room, _⟩ := copyBody_cases taken
      have short := head clear ⟨room, now, by simp [shape], same⟩ now (by simp [shape])
      apply ih (sized_pass sized taken)
      rwa [reaches_pass sized shape short taken]

theorem not_overlong_of_short {packages : List TrollMessage}
    (short : ∀ now ∈ packages, now.len.toNat ≤ bufLen) (base : UInt32) (want : Nat) :
    ¬ Overlong base want packages := by
  induction packages generalizing base want with
  | nil => exact id
  | cons now rest ih =>
    rintro ⟨_, _, long | later⟩
    · have small := short now (by simp)
      omega
    · exact ih (fun other inside => short other (by simp [inside])) _ _ later

theorem short_pass (short : ∀ now ∈ sock.packages, now.len.toNat ≤ bufLen)
    (pass : copyBody session sock = .ok (some (next, effects))) :
    ∀ now ∈ next.packages, now.len.toNat ≤ bufLen := by
  obtain ⟨now, rest, shape, same, room, ⟨_, _, _, _, rfl⟩ | ⟨ends, _, _, _, shifted, rfl⟩⟩ :=
    copyBody_cases pass
  · exact fun other inside => short other (by simp [shape, inside])
  · have cut := remain_lt_len room ends shifted
    have small := short now (by simp [shape])
    intro other inside
    rcases List.mem_cons.mp inside with rfl | later
    · dsimp only
      omega
    · exact short other (by simp [shape, later])

end Loop

section Runs

variable {order : IterOrder UInt32} {state : Receiver}
  {history : Machine.History ReceiverEvent ReceiverEffect}

theorem run_records {Allowed : ReceiverEvent → Prop} {Holds : AcceptedSocket → Prop}
    (fresh : ∀ malloc sockfd session, Holds (newSocket malloc sockfd session))
    (stored : ∀ sock sockfd message remoteTroll malloc,
      Allowed (.data sockfd message remoteTroll malloc) → message.Intact → Holds sock →
      Holds (storePackage sock message))
    (asked : ∀ sock front sockfd len, Allowed (.recv front sockfd len) → sock.receivingLength = 0 →
      Holds sock → Holds { sock with receivingLength := len, receivingAddr := front })
    (solved : ∀ session sock final effects, solveRecvSocket session sock = .ok (final, effects) →
      Holds sock → Holds final)
    (run : Machine.Run (Receiver.step order) .initial history state)
    (allowed : ∀ event ∈ Machine.events history, Allowed event) {session : UInt32}
    {sock : AcceptedSocket} (found : (view session state).sock? = some sock) : Holds sock := by
  induction run generalizing sock with
  | start => cases found
  | next event state' emitted before taken ih =>
    simp only [Machine.events_append, List.forall_mem_append] at allowed
    have ih (sock : AcceptedSocket) := @ih allowed.1 sock
    have now := allowed.2 event (by simp)
    rcases step_session taken (run_consistent before) session with ⟨_, same, _⟩ | ⟨own, given, stepped⟩
    · rw [same] at found
      exact ih _ found
    · generalize view session state' = reached at found stepped
      generalize ownEffects session (event, emitted) = effects at stepped
      cases sessionStep_move stepped with
      | arrive sockfd message malloc =>
        obtain ⟨_, _, remoteTroll, _, intact, _⟩ := ownEvent_brings given
        cases current : view session _ with
        | absent =>
          rw [current] at found
          cases found
          exact stored _ _ _ _ _ now intact (fresh _ _ _)
        | waiting sock | accepted sock =>
          rw [current] at found
          cases found
          exact stored _ _ _ _ _ now intact (ih _ (by rw [current]; rfl))
      | accept sock waiting =>
        cases found
        exact ih _ (by rw [waiting]; rfl)
      | request sock front len accepted positive idle =>
        obtain ⟨_, sockfd⟩ := ownEvent_brings given
        cases found
        exact asked _ _ _ _ now idle (ih _ (by rw [accepted]; rfl))
      | solve sock final effects accepted solving =>
        cases found
        exact solved _ _ _ _ solving (ih _ (by rw [accepted]; rfl))
      | idle => exact ih _ found

theorem sized_solved {session : UInt32} {sock final : AcceptedSocket}
    {effects : List ReceiverEffect}
    (solving : solveRecvSocket session sock = .ok (final, effects)) (sized : Sized sock) :
    Sized final := by
  obtain ⟨taken, solved⟩ := solveRecvSocket_solved solving
  have size := UInt64.le_iff_toNat_le.mp (solved.size (UInt64.le_iff_toNat_le.mpr sized.size))
  refine ⟨?_, size⟩
  obtain ⟨_, _, ⟨same, _⟩ | ⟨_, answered, _⟩⟩ := solved.answer
  · rw [same]
    exact sized.within
  · rw [answered]
    exact Nat.zero_le _

theorem short_solved {session : UInt32} {sock final : AcceptedSocket}
    {effects : List ReceiverEffect}
    (solving : solveRecvSocket session sock = .ok (final, effects))
    (short : ∀ now ∈ sock.packages, now.len.toNat ≤ bufLen) :
    ∀ now ∈ final.packages, now.len.toNat ≤ bufLen := by
  rcases solveRecvSocket_cases solving with
    ⟨_, rfl, _⟩ | ⟨_, _, copied, freed, looped, outcome⟩
  · exact short
  · have kept := Loop.run_invariant
      (fun _ current => ∀ now ∈ current.packages, now.len.toNat ≤ bufLen)
      (fun _ _ _ _ short pass => short_pass short pass) [] short looped
    rcases outcome with ⟨_, rfl, _⟩ | ⟨_, rfl, _⟩ <;> exact kept

def RequestsFit : ReceiverEvent → Prop
  | .recv _ _ len => 1 ≤ len.toNat ∧ len.toNat ≤ bufLen
  | _ => True

def FramesFit : ReceiverEvent → Prop
  | .data _ message _ _ => message.Intact → message.len.toNat ≤ bufLen
  | _ => True

theorem run_sized (run : Machine.Run (Receiver.step order) .initial history state)
    (requests : ∀ event ∈ Machine.events history, RequestsFit event) {session : UInt32}
    {sock : AcceptedSocket} (found : (view session state).sock? = some sock) : Sized sock := by
  apply run_records _ _ _ _ run requests found
  · intro malloc sockfd session
    exact ⟨Nat.zero_le _, Nat.le_refl _⟩
  · intro sock sockfd message remoteTroll malloc _ _ sized
    obtain ⟨packages, same, _⟩ := storePackage_eq sock message
    rw [same]
    exact ⟨sized.within, sized.size⟩
  · intro sock front sockfd len fits idle sized
    have size := sized.size
    rw [idle] at size
    exact ⟨fits.2, size.trans (Nat.zero_le _)⟩
  · exact fun _ _ _ _ solving sized => sized_solved solving sized

theorem run_short (run : Machine.Run (Receiver.step order) .initial history state)
    (frames : ∀ event ∈ Machine.events history, FramesFit event) {session : UInt32}
    {sock : AcceptedSocket} (found : (view session state).sock? = some sock) :
    ∀ now ∈ sock.packages, now.len.toNat ≤ bufLen := by
  apply run_records _ _ _ _ run frames found
  · intro malloc sockfd session now member
    cases member
  · intro sock sockfd message remoteTroll malloc fits intact short now member
    obtain ⟨packages, same, among⟩ := storePackage_eq sock message
    rw [same] at member
    rcases among now member with rfl | old
    · exact fits intact
    · exact short now old
  · exact fun _ _ _ _ _ _ short => short
  · exact fun _ _ _ _ solving short => short_solved solving short

/-- `SolveRecvCallback` copies inside its buffers, in every session that it visits. -/
def CallbackInside (state : Receiver) : Prop :=
  ∀ session sock, state.acceptedSockets.find session = some sock → 0 < sock.receivingLength →
    CopiesInside session sock

theorem copies_inside_iff (run : Machine.Run (Receiver.step order) .initial history state)
    (requests : ∀ event ∈ Machine.events history, RequestsFit event) :
    (CallbackInside state ↔ ∀ session sock, state.acceptedSockets.find session = some sock →
        0 < sock.receivingLength → ¬ Reaches sock) ∧
      ((∀ event ∈ Machine.events history, FramesFit event) → CallbackInside state) := by
  have known {session : UInt32} {sock : AcceptedSocket}
      (found : state.acceptedSockets.find session = some sock) :
      (view session state).sock? = some sock := by
    simp [view, lookup, found, SessionView.sock?]
  constructor
  · constructor
    · intro inside session sock found pending
      exact (copiesInside_iff (run_sized run requests (known found))).mp
        (inside session sock found pending)
    · intro clear session sock found pending
      exact (copiesInside_iff (run_sized run requests (known found))).mpr
        (clear session sock found pending)
  · intro frames session sock found pending
    apply (copiesInside_iff (run_sized run requests (known found))).mpr
    exact not_overlong_of_short (run_short run frames (known found)) _ _

theorem copies_inside_split :
    ∃ history state, Machine.Run (Receiver.step (.insertion UInt32)) .initial history state ∧
      (view 7 state).sock?.map missing = some 2 ∧ CallbackInside state := by
  have run : Machine.Run (Receiver.step (.insertion UInt32)) .initial [] .initial := .start
  have run := run.next (.bind default 3 true) _ _ rfl
  have run := run.next _ _ _
    (step_data 3 rfl (TrollMessage.sealed_intact (frame 7 0 [1, 2, 3, 4])) default default)
  have run := run.next (.accept default 3) _ _ rfl
  have run := run.next .solveAccept _ _ rfl
  have run := run.next (.recv default 7 2) _ _ rfl
  refine ⟨_, _, run, rfl, (copies_inside_iff run ?_).2 ?_⟩
  · simp [Machine.events, RequestsFit]
    decide
  · simp [Machine.events, FramesFit]
    decide

def overlong : TrollMessage :=
  TrollMessage.sealed { frame 7 0 [1, 2, 3, 4] with len := 2000 }

theorem copy_outside :
    ∃ history state, Machine.Run (Receiver.step (.insertion UInt32)) .initial history state ∧
      Machine.events history = [.bind default 3 true, .data 3 overlong default default,
        .accept default 3, .solveAccept, .recv default 7 2] ∧
      Receiver.step (.insertion UInt32) state .solveRecv = .error .fault ∧
      ¬ CallbackInside state := by
  have run : Machine.Run (Receiver.step (.insertion UInt32)) .initial [] .initial := .start
  have run := run.next (.bind default 3 true) _ _ rfl
  have run := run.next _ _ _
    (step_data 3 rfl (show overlong.Intact from TrollMessage.sealed_intact _) default default)
  have run := run.next (.accept default 3) _ _ rfl
  have run := run.next .solveAccept _ _ rfl
  have run := run.next (.recv default 7 2) _ _ rfl
  refine ⟨_, _, run, rfl, rfl, ?_⟩
  intro inside
  have first := (inside 7 _ rfl (by decide)) [] _ (.done _)
  exact absurd (short_of_inside first ⟨by decide, overlong, rfl, rfl⟩ overlong rfl) (by decide)

end Runs

end NetworkProj.Reception
