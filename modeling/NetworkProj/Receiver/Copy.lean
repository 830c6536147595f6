import NetworkProj.Model.Receiver

set_option autoImplicit false

namespace NetworkProj.Reception

variable {session : UInt32} {sock next final : AcceptedSocket} {effects : List ReceiverEffect}

section Pass

def Copyable (sock : AcceptedSocket) : Prop :=
  sock.recvBufferSize < sock.receivingLength ∧ ∃ now ∈ sock.packages.head?, now.seqNum = sock.base

theorem finished_of_not_copyable (stuck : ¬ Copyable sock) :
    Loop.Finished (copyBody session) sock := by
  unfold Loop.Finished copyBody
  by_cases room : sock.recvBufferSize < sock.receivingLength
  · cases shape : sock.packages with
    | nil => simp [room]
    | cons now rest =>
      have different : now.seqNum ≠ sock.base := fun same =>
        stuck ⟨room, now, by simp [shape], same⟩
      simp [room, different]
  · simp [room]

theorem not_copyable_of_finished (finished : Loop.Finished (copyBody session) sock) :
    ¬ Copyable sock := by
  intro ⟨room, now, first, same⟩
  obtain ⟨rest, shape⟩ := List.head?_eq_some_iff.mp first
  unfold Loop.Finished copyBody at finished
  simp only [room, if_true, shape, same, ne_eq, not_true, if_false] at finished
  split at finished
  · split at finished <;> cases finished
  · split at finished <;> cases finished

theorem copyBody_cases (pass : copyBody session sock = .ok (some (next, effects))) :
    ∃ now rest, sock.packages = now :: rest ∧ now.seqNum = sock.base ∧
      sock.recvBufferSize < sock.receivingLength ∧
      ((sock.recvBufferSize + now.len ≤ sock.receivingLength ∧
          effects = [.free session now] ∧
          ∃ recvBuffer, now.body.bcopy 0 sock.recvBuffer sock.recvBufferSize.toNat now.len.toNat =
              some recvBuffer ∧
            next = { sock with
              recvBuffer
              recvBufferSize := sock.recvBufferSize + now.len
              packages := rest
              base := sock.base + 1 }) ∨
        (¬ sock.recvBufferSize + now.len ≤ sock.receivingLength ∧ effects = [] ∧
          ∃ recvBuffer body,
            now.body.bcopy (sock.receivingLength - sock.recvBufferSize).toNat now.body 0
              (now.len - (sock.receivingLength - sock.recvBufferSize)).toNat = some body ∧
            next = { sock with
              recvBuffer
              packages := { now with
                body
                len := now.len - (sock.receivingLength - sock.recvBufferSize) } :: rest })) := by
  unfold copyBody at pass
  split at pass
  next room =>
    split at pass
    · cases pass
    next now rest shape =>
      split at pass
      · cases pass
      next same =>
        refine ⟨now, rest, shape, by simpa using same, room, ?_⟩
        split at pass
        next fits =>
          split at pass
          · cases pass
          next recvBuffer copied =>
            cases pass
            exact .inl ⟨fits, rfl, recvBuffer, copied, rfl⟩
        next ends =>
          dsimp only at pass
          split at pass
          next recvBuffer body _ shifted =>
            cases pass
            exact .inr ⟨ends, rfl, recvBuffer, body, shifted, rfl⟩
          · cases pass
  · cases pass

theorem remain_lt_len {now : TrollMessage} (room : sock.recvBufferSize < sock.receivingLength)
    (ends : ¬ sock.recvBufferSize + now.len ≤ sock.receivingLength)
    {body : Block bufLen}
    (shifted : now.body.bcopy (sock.receivingLength - sock.recvBufferSize).toNat now.body 0
      (now.len - (sock.receivingLength - sock.recvBufferSize)).toNat = some body) :
    0 < (sock.receivingLength - sock.recvBufferSize).toNat ∧
      (now.len - (sock.receivingLength - sock.recvBufferSize)).toNat +
        (sock.receivingLength - sock.recvBufferSize).toNat = now.len.toNat := by
  have inside := (Block.inside_of_bcopy _ _ shifted).1
  have order := UInt64.lt_iff_toNat_lt.mp room
  have remain := UInt64.toNat_sub_of_le _ _ (UInt64.le_iff_toNat_le.mpr order.le)
  rw [UInt64.le_iff_toNat_le, UInt64.toNat_add] at ends
  have left := UInt64.toNat_sub now.len (sock.receivingLength - sock.recvBufferSize)
  have limit := now.len.toNat_lt
  have limit' := sock.receivingLength.toNat_lt
  have limit'' := sock.recvBufferSize.toNat_lt
  unfold bufLen at inside
  omega

theorem copyVariant_falls (pass : copyBody session sock = .ok (some (next, effects))) :
    copyVariant next < copyVariant sock := by
  obtain ⟨now, rest, shape, _, room, ⟨_, _, _, _, rfl⟩ | ⟨ends, _, _, _, shifted, rfl⟩⟩ :=
    copyBody_cases pass
  · simp only [copyVariant, shape, List.map_cons, List.sum_cons]
    omega
  · have shorter := remain_lt_len room ends shifted
    simp only [copyVariant, shape, List.map_cons, List.sum_cons]
    omega

theorem copyLoop_stuck (ran : copyLoop session sock = .ok (final, effects)) : ¬ Copyable final :=
  not_copyable_of_finished
    (Loop.run_done copyVariant (fun _ _ _ => copyVariant_falls) (Nat.lt_succ_self _) ran)

end Pass

section Taken

def consecutive (base : UInt32) (count : Nat) : List UInt32 :=
  (List.range count).map fun offset => base + UInt32.ofNat offset

theorem consecutive_succ (base : UInt32) (count : Nat) :
    consecutive base (count + 1) = consecutive base count ++ [base + UInt32.ofNat count] := by
  simp [consecutive, List.range_succ]

def InOrder (base : UInt32) (packages : List TrollMessage) : Prop :=
  packages.map TrollMessage.seqNum = consecutive base packages.length

theorem inOrder_snoc {base : UInt32} {packages : List TrollMessage} {now : TrollMessage}
    (order : InOrder base packages)
    (same : now.seqNum = base + UInt32.ofNat packages.length) : InOrder base (packages ++ [now]) := by
  unfold InOrder at order ⊢
  simp [consecutive_succ, order, same]

/-- What the passes of the copy loop have taken off a socket. A head that is only partly taken is
still there, and the loop goes on. -/
structure Taking (session : UInt32) (sock : AcceptedSocket) (taken : List TrollMessage)
    (effects : List ReceiverEffect) (current : AcceptedSocket) : Prop where
  packages : sock.packages = taken ++ current.packages ∨
    ∃ head shortened rest, sock.packages = taken ++ head :: rest ∧
      current.packages = shortened :: rest ∧ shortened.seqNum = head.seqNum ∧ Copyable current
  order : InOrder sock.base taken
  base : current.base = sock.base + UInt32.ofNat taken.length
  freed : ∃ freed : List TrollMessage,
    effects = freed.map (ReceiverEffect.free session) ∧ freed.length = taken.length
  socketFD : current.socketFD = sock.socketFD
  session : current.session = sock.session
  receivingLength : current.receivingLength = sock.receivingLength
  receivingAddr : current.receivingAddr = sock.receivingAddr
  size : sock.recvBufferSize ≤ sock.receivingLength → current.recvBufferSize ≤ sock.receivingLength

theorem taking_start (session : UInt32) (sock : AcceptedSocket) : Taking session sock [] [] sock :=
  { packages := .inl rfl
    order := rfl
    base := by simp
    freed := ⟨[], rfl, rfl⟩
    socketFD := rfl
    session := rfl
    receivingLength := rfl
    receivingAddr := rfl
    size := id }

theorem taking_pass {taken : List TrollMessage} {current : AcceptedSocket}
    {emitted : List ReceiverEffect} (taking : Taking session sock taken effects current)
    (pass : copyBody session current = .ok (some (next, emitted))) :
    ∃ taken', Taking session sock taken' (effects ++ emitted) next := by
  obtain ⟨now, rest, shape, same, room, ⟨fits, rfl, recvBuffer, _, rfl⟩ |
    ⟨_, rfl, recvBuffer, body, _, rfl⟩⟩ := copyBody_cases pass
  · have head : ∃ head, sock.packages = taken ++ head :: rest ∧ head.seqNum = now.seqNum := by
      rcases taking.packages with whole | ⟨head, shortened, others, split, left, seqNum, _⟩
      · exact ⟨now, by rw [whole, shape], rfl⟩
      · obtain ⟨rfl, rfl⟩ := List.cons.inj (shape.symm.trans left)
        exact ⟨head, split, seqNum.symm⟩
    obtain ⟨head, split, seqNum⟩ := head
    obtain ⟨freed, rfl, length⟩ := taking.freed
    exact ⟨taken ++ [head], {
      packages := .inl (by simp [split])
      order := inOrder_snoc taking.order (by rw [seqNum, same, taking.base])
      base := by simp [taking.base, UInt32.add_assoc, UInt32.ofNat_add]
      freed := ⟨freed ++ [now], by simp, by simp [length]⟩
      socketFD := taking.socketFD
      session := taking.session
      receivingLength := taking.receivingLength
      receivingAddr := taking.receivingAddr
      size := fun _ => taking.receivingLength ▸ fits }⟩
  · have copyable : Copyable { current with
        recvBuffer
        packages := { now with
          body
          len := now.len - (current.receivingLength - current.recvBufferSize) } :: rest } :=
      ⟨room, _, rfl, same⟩
    refine ⟨taken, {
      packages := .inr ?_
      order := taking.order
      base := taking.base
      freed := by simpa using taking.freed
      socketFD := taking.socketFD
      session := taking.session
      receivingLength := taking.receivingLength
      receivingAddr := taking.receivingAddr
      size := taking.size }⟩
    rcases taking.packages with whole | ⟨head, shortened, others, split, left, seqNum, _⟩
    · exact ⟨now, _, rest, by rw [whole, shape], rfl, rfl, copyable⟩
    · obtain ⟨rfl, rfl⟩ := List.cons.inj (shape.symm.trans left)
      exact ⟨head, _, rest, split, rfl, seqNum, copyable⟩

theorem copyLoop_takes (ran : copyLoop session sock = .ok (final, effects)) :
    ∃ taken, Taking session sock taken effects final ∧
      sock.packages = taken ++ final.packages := by
  obtain ⟨taken, taking⟩ := Loop.run_invariant
    (fun outputs current => ∃ taken, Taking session sock taken outputs current)
    (fun _ _ _ _ ⟨_, taking⟩ pass => taking_pass taking pass) [] ⟨[], taking_start session sock⟩ ran
  refine ⟨taken, taking, ?_⟩
  rcases taking.packages with whole | ⟨_, _, _, _, _, _, copyable⟩
  · exact whole
  · exact absurd copyable (copyLoop_stuck ran)

end Taken

section Solve

/-- What one visit of `SolveRecvCallback` does to a socket, whatever the request. -/
structure Solved (session : UInt32) (sock : AcceptedSocket) (taken : List TrollMessage)
    (effects : List ReceiverEffect) (final : AcceptedSocket) : Prop where
  packages : sock.packages = taken ++ final.packages
  order : InOrder sock.base taken
  base : final.base = sock.base + UInt32.ofNat taken.length
  -- Either the request stays, or one block of the requested length is sent.
  answer : ∃ freed : List TrollMessage, freed.length = taken.length ∧
    ((final.receivingLength = sock.receivingLength ∧
        effects = freed.map (ReceiverEffect.free session)) ∨
      (0 < sock.receivingLength ∧ final.receivingLength = 0 ∧ final.recvBufferSize = 0 ∧
        ∃ data, data.length = sock.receivingLength.toNat ∧
          effects = freed.map (ReceiverEffect.free session) ++
            [.recvReturn session sock.receivingAddr data]))
  socketFD : final.socketFD = sock.socketFD
  session : final.session = sock.session
  receivingAddr : final.receivingAddr = sock.receivingAddr
  size : sock.recvBufferSize ≤ sock.receivingLength → final.recvBufferSize ≤ final.receivingLength

theorem solveRecvSocket_cases (ran : solveRecvSocket session sock = .ok (final, effects)) :
    (¬ 0 < sock.receivingLength ∧ final = sock ∧ effects = []) ∨
      (0 < sock.receivingLength ∧ sock.receivingLength.toNat ≤ bufLen ∧
        ∃ copied freed, copyLoop session sock = .ok (copied, freed) ∧
          ((copied.recvBufferSize ≠ copied.receivingLength ∧ final = copied ∧ effects = freed) ∨
            (copied.recvBufferSize = copied.receivingLength ∧
              final = { copied with recvBufferSize := 0, receivingLength := 0 } ∧
              effects = freed ++ [.recvReturn session copied.receivingAddr
                (copied.recvBuffer.take copied.recvBufferSize.toNat)]))) := by
  unfold solveRecvSocket at ran
  split at ran
  next pending =>
    split at ran
    · cases ran
    next within =>
      split at ran
      · cases ran
      next copied freed looped =>
        refine .inr ⟨pending, by omega, copied, freed, looped, ?_⟩
        split at ran
        next full =>
          cases ran
          exact .inr ⟨full, rfl, rfl⟩
        next partly =>
          cases ran
          exact .inl ⟨partly, rfl, rfl⟩
  next idle =>
    cases ran
    exact .inl ⟨idle, rfl, rfl⟩

theorem solveRecvSocket_solved (ran : solveRecvSocket session sock = .ok (final, effects)) :
    ∃ taken, Solved session sock taken effects final := by
  rcases solveRecvSocket_cases ran with
    ⟨_, rfl, rfl⟩ | ⟨pending, within, copied, freed, looped, outcome⟩
  · exact ⟨[], {
      packages := rfl
      order := rfl
      base := by simp
      socketFD := rfl
      session := rfl
      receivingAddr := rfl
      size := id
      answer := ⟨[], rfl, .inl ⟨rfl, rfl⟩⟩ }⟩
  · obtain ⟨taken, taking, packages⟩ := copyLoop_takes looped
    obtain ⟨messages, rfl, length⟩ := taking.freed
    rcases outcome with ⟨_, rfl, rfl⟩ | ⟨full, rfl, rfl⟩
    · exact ⟨taken, {
        packages := packages
        order := taking.order
        base := taking.base
        socketFD := taking.socketFD
        session := taking.session
        receivingAddr := taking.receivingAddr
        size := fun below => taking.receivingLength ▸ taking.size below
        answer := ⟨messages, length, .inl ⟨taking.receivingLength, rfl⟩⟩ }⟩
    · have requested := full.trans taking.receivingLength
      exact ⟨taken, {
        packages := packages
        order := taking.order
        base := taking.base
        socketFD := taking.socketFD
        session := taking.session
        receivingAddr := taking.receivingAddr
        size := fun _ => UInt64.le_refl 0
        answer := ⟨messages, length, .inr ⟨pending, rfl, rfl,
          copied.recvBuffer.take copied.recvBufferSize.toNat,
          by rw [Block.length_take _ _ (by rw [requested]; exact within), requested],
          by rw [taking.receivingAddr]⟩⟩ }⟩

theorem solveRecvSocket_again (ran : solveRecvSocket session sock = .ok (final, effects)) :
    solveRecvSocket session final = .ok (final, []) := by
  rcases solveRecvSocket_cases ran with
    ⟨idle, rfl, rfl⟩ | ⟨pending, within, copied, freed, looped, ⟨partly, rfl, rfl⟩ | ⟨_, rfl, rfl⟩⟩
  · exact if_neg idle
  · obtain ⟨_, taking, _⟩ := copyLoop_takes looped
    have stuck : copyLoop session final = .ok (final, []) :=
      Loop.run_finished _ _ _ (finished_of_not_copyable (copyLoop_stuck looped))
    have pending' : final.receivingLength > 0 := taking.receivingLength ▸ pending
    have within' : ¬ final.receivingLength.toNat > bufLen := by
      rw [taking.receivingLength]
      omega
    simp [solveRecvSocket, pending', within', stuck, partly]
  · exact if_neg (UInt64.lt_irrefl 0)

end Solve

section Bytes

def buffered (sock : AcceptedSocket) : List UInt8 :=
  sock.recvBuffer.take sock.recvBufferSize.toNat

/-- A request for `want` more bytes ends inside one of the packages that follow from `base` on. -/
def Straddles (base : UInt32) (want : Nat) : List TrollMessage → Prop
  | [] => False
  | now :: rest => now.seqNum = base ∧ 0 < want ∧
      (want < now.len.toNat ∨ Straddles (base + 1) (want - now.len.toNat) rest)

def decideStraddles (base : UInt32) (want : Nat) :
    (packages : List TrollMessage) → Decidable (Straddles base want packages)
  | [] => inferInstanceAs (Decidable False)
  | now :: rest =>
    have := decideStraddles (base + 1) (want - now.len.toNat) rest
    inferInstanceAs (Decidable (_ ∧ _ ∧ (_ ∨ _)))

instance (base : UInt32) (want : Nat) (packages : List TrollMessage) :
    Decidable (Straddles base want packages) :=
  decideStraddles base want packages

def missing (sock : AcceptedSocket) : Nat :=
  sock.receivingLength.toNat - sock.recvBufferSize.toNat

structure Aligned (sock : AcceptedSocket) : Prop where
  within : sock.receivingLength.toNat ≤ bufLen
  size : sock.recvBufferSize.toNat ≤ sock.receivingLength.toNat
  lens : ∀ now ∈ sock.packages, now.len.toNat ≤ bufLen
  apart : ¬ Straddles sock.base (missing sock) sock.packages

theorem aligned_pass (aligned : Aligned sock)
    (pass : copyBody session sock = .ok (some (next, effects))) :
    ∃ now rest, sock.packages = now :: rest ∧ next.packages = rest ∧ Aligned next ∧
      buffered next = buffered sock ++ now.payload := by
  obtain ⟨now, rest, shape, same, room, branch⟩ := copyBody_cases pass
  have order := UInt64.lt_iff_toNat_lt.mp room
  have short := aligned.lens now (by simp [shape])
  have sum : (sock.recvBufferSize + now.len).toNat = sock.recvBufferSize.toNat + now.len.toNat := by
    have size := aligned.size
    have within := aligned.within
    unfold bufLen at short within
    rw [UInt64.toNat_add]
    omega
  have apart : ¬ (missing sock < now.len.toNat ∨
      Straddles (sock.base + 1) (missing sock - now.len.toNat) rest) := fun straddles =>
    aligned.apart (by
      rw [shape]
      exact ⟨same, by unfold missing; omega, straddles⟩)
  rcases branch with ⟨fits, _, recvBuffer, copied, rfl⟩ | ⟨ends, _⟩
  · rw [UInt64.le_iff_toNat_le, sum] at fits
    refine ⟨now, rest, shape, rfl, ?_, ?_⟩
    · have left : missing { sock with
          recvBuffer
          recvBufferSize := sock.recvBufferSize + now.len
          packages := rest
          base := sock.base + 1 } = missing sock - now.len.toNat := by
        simp only [missing, sum]
        omega
      exact {
        within := aligned.within
        size := by simpa only [sum] using fits
        lens := fun later inside => aligned.lens later (by simp [shape, inside])
        apart := by
          rw [left]
          exact fun straddles => apart (.inr straddles) }
    · simp only [buffered, sum]
      exact Block.bcopy_appends now.body sock.recvBuffer copied
  · rw [UInt64.le_iff_toNat_le, sum] at ends
    exact absurd (.inl (by unfold missing; omega)) apart

theorem copyLoop_appends (aligned : Aligned sock)
    (ran : copyLoop session sock = .ok (final, effects)) :
    ∃ taken, sock.packages = taken ++ final.packages ∧ Aligned final ∧
      buffered final = buffered sock ++ (taken.map TrollMessage.payload).flatten := by
  apply Loop.run_invariant (fun _ current => ∃ taken, sock.packages = taken ++ current.packages ∧
    Aligned current ∧ buffered current = buffered sock ++ (taken.map TrollMessage.payload).flatten)
    ?_ [] ⟨[], rfl, aligned, by simp⟩ ran
  intro outputs current next emitted ⟨taken, whole, aligned, bytes⟩ pass
  obtain ⟨now, rest, shape, rfl, aligned', appended⟩ := aligned_pass aligned pass
  exact ⟨taken ++ [now], by simp [whole, shape], aligned', by simp [appended, bytes]⟩

def blockOf (session : UInt32) : ReceiverEffect → Option (List UInt8)
  | .recvReturn other _ data => if other = session then some data else none
  | _ => none

theorem solveRecvSocket_appends (size : sock.recvBufferSize ≤ sock.receivingLength)
    (lens : ∀ now ∈ sock.packages, now.len.toNat ≤ bufLen)
    (apart : sock.receivingLength ≠ 0 → ¬ Straddles sock.base (missing sock) sock.packages)
    (ran : solveRecvSocket session sock = .ok (final, effects)) :
    ∃ taken, sock.packages = taken ++ final.packages ∧
      (effects.filterMap (blockOf session)).flatten ++ buffered final =
        buffered sock ++ (taken.map TrollMessage.payload).flatten := by
  rcases solveRecvSocket_cases ran with
    ⟨_, rfl, rfl⟩ | ⟨pending, within, copied, freed, looped, outcome⟩
  · exact ⟨[], rfl, by simp⟩
  · have nonzero : sock.receivingLength ≠ 0 := fun zero => by
      rw [zero] at pending
      exact UInt64.lt_irrefl 0 pending
    have aligned : Aligned sock := ⟨within, UInt64.le_iff_toNat_le.mp size, lens, apart nonzero⟩
    obtain ⟨taken, packages, _, bytes⟩ := copyLoop_appends aligned looped
    obtain ⟨_, taking, _⟩ := copyLoop_takes looped
    obtain ⟨messages, rfl, _⟩ := taking.freed
    have none : (messages.map (ReceiverEffect.free session)).filterMap (blockOf session) = [] := by
      simp [List.filterMap_map, Function.comp_def, blockOf]
    refine ⟨taken, ?_⟩
    rcases outcome with ⟨_, rfl, rfl⟩ | ⟨_, rfl, rfl⟩
    · exact ⟨packages, by simp [none, bytes]⟩
    · refine ⟨packages, ?_⟩
      rw [List.filterMap_append, none, ← bytes]
      simp [blockOf, buffered]

end Bytes

end NetworkProj.Reception
