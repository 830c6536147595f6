import NetworkProj.Receiver.Reordering

set_option autoImplicit false

namespace NetworkProj.Reception

variable {session : UInt32}

section Passes

-- Storing a package leaves the head alone that is due next, and commutes with taking it.
theorem storePackage_behind {sock : AcceptedSocket} {head : TrollMessage} {rest : List TrollMessage}
    (shape : sock.packages = head :: rest) (due : head.seqNum = sock.base) (now : TrollMessage) :
    ∃ rest', storePackage sock now = { sock with packages := head :: rest' } ∧
      (∀ recvBuffer head', head'.seqNum = head.seqNum →
        storePackage { sock with recvBuffer, packages := head' :: rest } now =
          { sock with recvBuffer, packages := head' :: rest' }) ∧
      ∀ recvBuffer recvBufferSize, sock.base.toNat + 1 < 2 ^ 32 →
        storePackage { sock with recvBuffer, recvBufferSize, packages := rest, base := sock.base + 1 }
            now =
          { sock with recvBuffer, recvBufferSize, packages := rest', base := sock.base + 1 } := by
  -- A package up to the head is outdated or a duplicate, before the head is taken and after.
  by_cases behind : now.seqNum ≤ sock.base
  · have dropped (other : AcceptedSocket) (first : TrollMessage) (others : List TrollMessage)
        (base : other.base = sock.base) (split : other.packages = first :: others)
        (same : first.seqNum = sock.base) : storePackage other now = other := by
      unfold storePackage
      by_cases outdated : sock.base > now.seqNum
      · rw [base, if_pos outdated]
      · have equal : first.seqNum = now.seqNum := by
          rw [same]
          exact UInt32.le_antisymm (UInt32.not_lt.mp outdated) behind
        rw [base, if_neg outdated, split, insertPackage, if_pos equal]
    refine ⟨rest, ?_, ?_, ?_⟩
    · rw [dropped sock head rest rfl shape due, ← shape]
    · intro recvBuffer head' same
      exact dropped _ head' rest rfl rfl (same.trans due)
    · intro recvBuffer recvBufferSize unwrapped
      have passed : sock.base + 1 > now.seqNum := by
        rw [gt_iff_lt, UInt32.lt_iff_toNat_lt, toNat_succ unwrapped]
        rw [UInt32.le_iff_toNat_le] at behind
        omega
      simp only [storePackage, passed, if_true]
  · have ahead : ¬ sock.base > now.seqNum := fun outdated =>
      behind (UInt32.le_of_lt outdated)
    have later (unwrapped : sock.base.toNat + 1 < 2 ^ 32) : ¬ sock.base + 1 > now.seqNum := by
      rw [gt_iff_lt, UInt32.lt_iff_toNat_lt, toNat_succ unwrapped]
      rw [UInt32.le_iff_toNat_le] at behind
      omega
    have search (first : TrollMessage) (same : first.seqNum = sock.base) :
        insertPackage now (first :: rest) = (insertPackage now rest).map (first :: ·) := by
      have different : first.seqNum ≠ now.seqNum := by
        intro equal
        apply behind
        rw [← equal, same]
        exact UInt32.le_refl _
      rw [insertPackage, if_neg different, same, if_neg (by
        rw [gt_iff_lt, UInt32.not_lt]
        exact UInt32.not_lt.mp ahead)]
    cases inserted : insertPackage now rest with
    | none =>
      refine ⟨rest, ?_, ?_, ?_⟩
      · have kept : storePackage sock now = sock := by
          simp [storePackage, ahead, shape, search head due, inserted]
        rw [kept, ← shape]
      · intro recvBuffer head' same
        simp [storePackage, ahead, search head' (same.trans due), inserted]
      · intro recvBuffer recvBufferSize unwrapped
        simp [storePackage, later unwrapped, inserted]
    | some packages =>
      refine ⟨packages, ?_, ?_, ?_⟩
      · simp [storePackage, ahead, shape, search head due, inserted]
      · intro recvBuffer head' same
        simp [storePackage, ahead, search head' (same.trans due), inserted]
      · intro recvBuffer recvBufferSize unwrapped
        simp [storePackage, later unwrapped, inserted]

theorem copyBody_stored {sock next : AcceptedSocket} {emitted : List ReceiverEffect}
    (copyable : Copyable sock) {now : TrollMessage}
    (pass : copyBody session (storePackage sock now) = .ok (some (next, emitted)))
    (few : sock.base.toNat + emitted.length < 2 ^ 32) :
    ∃ before, copyBody session sock = .ok (some (before, emitted)) ∧
      next = storePackage before now ∧ before.base.toNat = sock.base.toNat + emitted.length := by
  obtain ⟨room, head, first, due⟩ := copyable
  obtain ⟨rest, shape⟩ := List.head?_eq_some_iff.mp first
  obtain ⟨rest', stored, shortened, taken⟩ := storePackage_behind shape due now
  rw [stored] at pass
  unfold copyBody at pass ⊢
  simp only [room, if_true, shape, due, ne_eq, not_true, if_false] at pass ⊢
  by_cases fits : sock.recvBufferSize + head.len ≤ sock.receivingLength
  · rw [if_pos fits] at pass ⊢
    split at pass
    · cases pass
    next recvBuffer copied =>
      cases pass
      rw [List.length_singleton] at few
      refine ⟨_, rfl, (taken recvBuffer _ few).symm, ?_⟩
      exact toNat_succ few
  · rw [if_neg fits] at pass ⊢
    split at pass
    next recvBuffer body copied shifted =>
      cases pass
      exact ⟨_, rfl, (shortened recvBuffer _ due.symm).symm, rfl⟩
    · cases pass

theorem copyable_stored {sock : AcceptedSocket} (copyable : Copyable sock) (now : TrollMessage) :
    Copyable (storePackage sock now) := by
  obtain ⟨room, head, first, due⟩ := copyable
  obtain ⟨rest, shape⟩ := List.head?_eq_some_iff.mp first
  obtain ⟨rest', stored, _⟩ := storePackage_behind shape due now
  rw [stored]
  exact ⟨room, head, rfl, due⟩

-- The copy loop can run before a package is stored as well as behind that, and goes on then.
theorem passes_stored {sock stored final : AcceptedSocket} {now : TrollMessage}
    {outputs : List ReceiverEffect}
    (passes : Loop.Passes (copyBody session) stored outputs final)
    (start : stored = storePackage sock now)
    (finished : Loop.Finished (copyBody session) final)
    (few : sock.base.toNat + outputs.length < 2 ^ 32) :
    ∃ stuck first second, Loop.Passes (copyBody session) sock first stuck ∧ ¬ Copyable stuck ∧
      Loop.Passes (copyBody session) (storePackage stuck now) second final ∧
      outputs = first ++ second := by
  induction passes generalizing sock with
  | done state =>
    subst start
    refine ⟨sock, [], [], .done sock, ?_, .done _, rfl⟩
    intro copyable
    exact not_copyable_of_finished finished (copyable_stored copyable now)
  | @pass state next final emitted later taken rest ih =>
    subst start
    by_cases copyable : Copyable sock
    · rw [List.length_append] at few
      obtain ⟨before, pass, same, base⟩ := copyBody_stored copyable taken (by omega)
      obtain ⟨stuck, first, second, ran, halted, continued, split⟩ := ih same finished (by omega)
      exact ⟨stuck, emitted ++ first, second, .pass pass ran, halted, continued,
        by rw [split, List.append_assoc]⟩
    · exact ⟨sock, [], emitted ++ later, .done sock, copyable, .pass taken rest, rfl⟩

theorem copyLoop_iff {sock final : AcceptedSocket} {outputs : List ReceiverEffect} :
    copyLoop session sock = .ok (final, outputs) ↔
      Loop.Passes (copyBody session) sock outputs final ∧ ¬ Copyable final := by
  constructor
  · intro looped
    exact ⟨Loop.passes_of_run looped, copyLoop_stuck looped⟩
  · intro ⟨passes, stuck⟩
    exact Loop.run_of_passes copyVariant (fun _ _ _ => copyVariant_falls) passes
      (finished_of_not_copyable stuck) (Nat.lt_succ_self _)

end Passes

section Visits

theorem solveRecvSocket_pending {sock copied : AcceptedSocket} {freed : List ReceiverEffect}
    (pending : 0 < sock.receivingLength) (within : sock.receivingLength.toNat ≤ bufLen)
    (looped : copyLoop session sock = .ok (copied, freed)) :
    solveRecvSocket session sock =
      if copied.recvBufferSize = copied.receivingLength then
        .ok ({ copied with recvBufferSize := 0, receivingLength := 0 },
          freed ++ [.recvReturn session copied.receivingAddr
            (copied.recvBuffer.take copied.recvBufferSize.toNat)])
      else
        .ok (copied, freed) := by
  have short : ¬ sock.receivingLength.toNat > bufLen := by omega
  simp [solveRecvSocket, pending, short, looped]

theorem storePackage_idle (sock : AcceptedSocket) (now : TrollMessage)
    (recvBufferSize receivingLength : UInt64) :
    storePackage { sock with recvBufferSize, receivingLength } now =
      { storePackage sock now with recvBufferSize, receivingLength } := by
  by_cases outdated : sock.base > now.seqNum
  · simp [storePackage, outdated]
  · cases inserted : insertPackage now sock.packages <;> simp [storePackage, outdated, inserted]

theorem solveRecvSocket_stored {sock final : AcceptedSocket} {now : TrollMessage}
    {effects : List ReceiverEffect}
    (ran : solveRecvSocket session (storePackage sock now) = .ok (final, effects))
    (few : sock.base.toNat + (consumptions (effects.filterMap (sessionEffect session))).length <
      2 ^ 32) :
    ∃ middle earlier later, solveRecvSocket session sock = .ok (middle, earlier) ∧
      solveRecvSocket session (storePackage middle now) = .ok (final, later) ∧
      effects = earlier ++ later := by
  obtain ⟨packages, stored, _⟩ := storePackage_eq sock now
  have length : (storePackage sock now).receivingLength = sock.receivingLength := by rw [stored]
  rcases solveRecvSocket_cases ran with
    ⟨idle, _⟩ | ⟨pending, within, copied, freed, looped, outcome⟩
  · rw [length] at idle
    exact ⟨sock, [], effects, if_neg idle, ran, rfl⟩
  · rw [length] at pending within
    obtain ⟨passes, finished⟩ := copyLoop_iff.mp looped
    have length : (consumptions (effects.filterMap (sessionEffect session))).length =
        freed.length := by
      obtain ⟨_, taking, _⟩ := copyLoop_takes looped
      obtain ⟨messages, rfl, _⟩ := taking.freed
      rcases outcome with ⟨_, _, rfl⟩ | ⟨_, _, rfl⟩ <;>
        simp [consumptions, List.filterMap_map, Function.comp_def, sessionEffect]
    rw [length] at few
    obtain ⟨stuck, first, second, before, halted, behind, rfl⟩ :=
      passes_stored passes rfl (finished_of_not_copyable finished) few
    have looped' : copyLoop session sock = .ok (stuck, first) := copyLoop_iff.mpr ⟨before, halted⟩
    have ran' := solveRecvSocket_pending pending within looped'
    obtain ⟨_, taking, _⟩ := copyLoop_takes looped'
    obtain ⟨packages', stored', _⟩ := storePackage_eq stuck now
    -- A visit that fills the request leaves nothing to the visit behind it.
    by_cases full : stuck.recvBufferSize = stuck.receivingLength
    · rw [if_pos full] at ran'
      have exhausted : ¬ Copyable (storePackage stuck now) := by
        rintro ⟨room, _⟩
        rw [stored'] at room
        rw [full] at room
        exact UInt64.lt_irrefl _ room
      have last : copied = storePackage stuck now ∧ second = [] := by
        have again : copyLoop session (storePackage stuck now) = .ok (storePackage stuck now, []) :=
          copyLoop_iff.mpr ⟨.done _, exhausted⟩
        have looped'' := copyLoop_iff.mpr ⟨behind, finished⟩
        rw [again] at looped''
        cases looped''
        exact ⟨rfl, rfl⟩
      obtain ⟨rfl, rfl⟩ := last
      have full' : (storePackage stuck now).recvBufferSize =
          (storePackage stuck now).receivingLength := by
        rw [stored']
        exact full
      refine ⟨_, _, [], ran', ?_, ?_⟩
      · rcases outcome with ⟨partly, _⟩ | ⟨_, rfl, _⟩
        · exact absurd full' partly
        · rw [storePackage_idle]
          exact if_neg (UInt64.lt_irrefl 0)
      · rcases outcome with ⟨partly, _⟩ | ⟨_, _, rfl⟩
        · exact absurd full' partly
        · simp [stored']
    · rw [if_neg full] at ran'
      refine ⟨stuck, first, ?_⟩
      have pending' : 0 < (storePackage stuck now).receivingLength := by
        rw [stored']
        exact taking.receivingLength ▸ pending
      have within' : (storePackage stuck now).receivingLength.toNat ≤ bufLen := by
        rw [stored']
        exact taking.receivingLength ▸ within
      have ran'' := solveRecvSocket_pending pending' within' (copyLoop_iff.mpr ⟨behind, finished⟩)
      rcases outcome with ⟨partly, rfl, rfl⟩ | ⟨done, rfl, rfl⟩
      · rw [if_neg partly] at ran''
        exact ⟨second, ran', ran'', rfl⟩
      · rw [if_pos done] at ran''
        exact ⟨_, ran', ran'', by rw [List.append_assoc]⟩

end Visits

section Rounds

def roundStep (session : UInt32) : Machine.Step SessionView (List SessionEvent) SessionEffect Stop :=
  fun current events =>
    match Machine.exec (sessionStep session) current (events ++ [.solve]) with
    | .error stop => .error stop
    | .ok (final, history) => .ok (final, Machine.outputs history)

def eagerStep (session : UInt32) : Machine.Step SessionView SessionEvent SessionEffect Stop :=
  fun current event => roundStep session current [event]

def Settled (session : UInt32) (current : SessionView) : Prop :=
  sessionStep session current .solve = .ok (current, [])

def isRequest : SessionEvent → Bool
  | .request _ _ => true
  | _ => false

def baseOf (current : SessionView) : Nat :=
  match current.sock? with
  | none => 0
  | some sock => sock.base.toNat

variable {current middle final : SessionView} {event : SessionEvent}
  {emitted effects : List SessionEffect}

theorem eagerStep_ok (taken : sessionStep session current event = .ok (middle, emitted))
    (solved : sessionStep session middle .solve = .ok (final, effects)) :
    eagerStep session current event = .ok (final, emitted ++ effects) := by
  simp [eagerStep, roundStep, Machine.exec, taken, solved]

theorem settled_solve (solved : sessionStep session current .solve = .ok (final, effects)) :
    Settled session final := by
  cases sessionStep_move solved with
  | solve sock final emitted accepted ran =>
    have again := solveRecvSocket_again ran
    simp [Settled, sessionStep, again]
  | idle event quiet => exact solved

theorem roundStep_ok {events : List SessionEvent}
    (taken : roundStep session current events = .ok (final, effects)) :
    ∃ history, Machine.exec (sessionStep session) current (events ++ [.solve]) =
      .ok (final, history) ∧ effects = Machine.outputs history := by
  unfold roundStep at taken
  split at taken
  · cases taken
  next final history executed =>
    cases taken
    exact ⟨history, executed, rfl⟩

theorem baseOf_move (move : SessionMove session current event final effects)
    (few : baseOf current + (consumptions effects).length < 2 ^ 32) :
    baseOf final = baseOf current + (consumptions effects).length := by
  cases move with
  | arrive sockfd message malloc =>
    cases current <;> simp [baseOf, arrived, SessionView.sock?, consumptions, newSocket]
  | accept sock waiting =>
    subst waiting
    rfl
  | request sock front len accepted positive idle =>
    subst accepted
    rfl
  | solve sock final emitted accepted ran =>
    subst accepted
    obtain ⟨taken, solved⟩ := solveRecvSocket_solved ran
    rw [consumptions_solved solved] at few ⊢
    exact toNat_base solved few
  | idle event quiet => rfl

-- A callback in front of a frame or an acceptance takes nothing from the callback behind it.
theorem solve_absorbed (other : isRequest event = false)
    (taken : sessionStep session current event = .ok (middle, emitted))
    (solved : sessionStep session middle .solve = .ok (final, effects))
    (few : baseOf current + (consumptions effects).length < 2 ^ 32) :
    ∃ before earlier later, sessionStep session current .solve = .ok (before, earlier) ∧
      eagerStep session before event = .ok (final, later) ∧
      emitted ++ effects = earlier ++ later := by
  cases event with
  | arrive sockfd message malloc =>
    rw [sessionStep_arrive] at taken
    cases taken
    cases current with
    | absent | waiting =>
      cases solved
      exact ⟨_, [], [], rfl, rfl, rfl⟩
    | accepted sock =>
      simp only [arrived, sessionStep] at solved
      split at solved
      · cases solved
      next last visible ran =>
        cases solved
        obtain ⟨between, earlier, later, first, second, rfl⟩ := solveRecvSocket_stored ran few
        have before : sessionStep session (.accepted sock) .solve =
            .ok (.accepted between, earlier.filterMap (sessionEffect session)) := by
          simp [sessionStep, first]
        have behind : sessionStep session (.accepted (storePackage between message)) .solve =
            .ok (.accepted last, later.filterMap (sessionEffect session)) := by
          simp [sessionStep, second]
        refine ⟨_, _, _, before, eagerStep_ok rfl behind, ?_⟩
        simp
  | accept =>
    cases current with
    | waiting sock =>
      cases taken
      have alone : eagerStep session (.waiting sock) .accept = .ok (final, [] ++ effects) :=
        eagerStep_ok rfl solved
      exact ⟨_, [], effects, rfl, alone, rfl⟩
    | absent =>
      cases taken
      cases solved
      exact ⟨_, [], [], rfl, rfl, rfl⟩
    | accepted sock =>
      cases taken
      have settled := settled_solve solved
      have kept : sessionStep session final .accept = .ok (final, []) := by
        cases sessionStep_move solved with
        | solve => rfl
        | idle => rfl
      exact ⟨final, effects, [], solved, eagerStep_ok kept settled, by simp⟩
  | request front len => cases other
  | solve =>
    have settled := settled_solve taken
    have same := settled.symm.trans solved
    cases same
    exact ⟨middle, emitted, [], taken, eagerStep_ok settled settled, rfl⟩

theorem round_spread {events : List SessionEvent}
    {history : Machine.History SessionEvent SessionEffect}
    (executed : Machine.exec (sessionStep session) current (events ++ [.solve]) =
      .ok (final, history))
    (others : ∀ event ∈ events, isRequest event = false)
    (few : baseOf current + (consumptions (Machine.outputs history)).length < 2 ^ 32) :
    ∃ before earlier spread, sessionStep session current .solve = .ok (before, earlier) ∧
      Machine.exec (eagerStep session) before events = .ok (final, spread) ∧
      Machine.outputs history = earlier ++ Machine.outputs spread := by
  induction events generalizing current history with
  | nil =>
    obtain ⟨next, emitted, later, taken, continued, rfl⟩ := Machine.exec_cons_ok executed
    cases continued
    exact ⟨_, emitted, [], taken, rfl, by simp⟩
  | cons event rest ih =>
    obtain ⟨next, emitted, later, taken, continued, rfl⟩ := Machine.exec_cons_ok executed
    simp only [Machine.outputs_cons, consumptions_append, List.length_append] at few
    have base := baseOf_move (sessionStep_move taken) (by omega)
    obtain ⟨before, earlier, spread, solved, executed', split⟩ :=
      ih continued (fun other member => others other (by simp [member])) (by omega)
    rw [split, consumptions_append, List.length_append] at few
    obtain ⟨before', earlier', later', solved', taken', split'⟩ :=
      solve_absorbed (others event (by simp)) taken solved (by omega)
    refine ⟨before', earlier', _, solved', Machine.exec_cons taken' executed', ?_⟩
    rw [Machine.outputs_cons, Machine.outputs_cons, split, ← List.append_assoc, split',
      List.append_assoc]

theorem roundStep_eager {first : SessionEvent} {rest : List SessionEvent}
    (taken : roundStep session current (first :: rest) = .ok (final, effects))
    (others : ∀ event ∈ rest, isRequest event = false)
    (few : baseOf current + (consumptions effects).length < 2 ^ 32) :
    ∃ own, Machine.Run (eagerStep session) current own final ∧
      Machine.events own = first :: rest ∧ Machine.outputs own = effects := by
  obtain ⟨history, executed, rfl⟩ := roundStep_ok taken
  obtain ⟨next, emitted, later, stepped, continued, rfl⟩ := Machine.exec_cons_ok executed
  simp only [Machine.outputs_cons, consumptions_append, List.length_append] at few
  have base := baseOf_move (sessionStep_move stepped) (by omega)
  obtain ⟨before, earlier, spread, solved, executed', split⟩ :=
    round_spread continued others (by omega)
  have whole := Machine.exec_cons (eagerStep_ok stepped solved) executed'
  refine ⟨_, Machine.run_of_exec whole, Machine.events_exec whole, ?_⟩
  rw [Machine.outputs_cons, Machine.outputs_cons, split, List.append_assoc]

theorem baseOf_exec {events : List SessionEvent}
    {history : Machine.History SessionEvent SessionEffect}
    (executed : Machine.exec (sessionStep session) current events = .ok (final, history))
    (few : baseOf current + (consumptions (Machine.outputs history)).length < 2 ^ 32) :
    baseOf final = baseOf current + (consumptions (Machine.outputs history)).length := by
  induction events generalizing current history with
  | nil =>
    cases executed
    rfl
  | cons event rest ih =>
    obtain ⟨next, emitted, later, taken, continued, rfl⟩ := Machine.exec_cons_ok executed
    simp only [Machine.outputs_cons, consumptions_append, List.length_append] at few ⊢
    have base := baseOf_move (sessionStep_move taken) (by omega)
    have rest := ih continued (by omega)
    omega

theorem rounds_eager {history : Machine.History (List SessionEvent) SessionEffect}
    (run : Machine.Run (roundStep session) .absent history final)
    (filled : ∀ events ∈ Machine.events history, events ≠ [])
    (others : ∀ events ∈ Machine.events history, ∀ event ∈ events.tail, isRequest event = false)
    (few : (consumptions (Machine.outputs history)).length < 2 ^ 32) :
    baseOf final = (consumptions (Machine.outputs history)).length ∧
    ∃ own, Machine.Run (eagerStep session) .absent own final ∧
      Machine.events own = (Machine.events history).flatten ∧
      Machine.outputs own = Machine.outputs history := by
  induction run with
  | start => exact ⟨rfl, [], .start, rfl, rfl⟩
  | next events next emitted before taken ih =>
    simp only [Machine.events_append, Machine.events_cons, Machine.events_nil, List.mem_append,
      List.mem_singleton] at filled others
    simp only [Machine.outputs_append, Machine.outputs_cons, Machine.outputs_nil, List.append_nil,
      consumptions_append, List.length_append] at few
    obtain ⟨base, own, ran, events', outputs⟩ := ih (fun other member => filled other (.inl member))
      (fun other member => others other (.inl member)) (by omega)
    constructor
    · obtain ⟨steps, executed, rfl⟩ := roundStep_ok taken
      have moved := baseOf_exec executed (by omega)
      simp [moved, base]
    · cases events with
      | nil => exact absurd rfl (filled [] (.inr rfl))
      | cons first rest =>
        obtain ⟨own', ran', events'', outputs'⟩ :=
          roundStep_eager taken (others _ (.inr rfl)) (by omega)
        refine ⟨own ++ own', ran.trans ran', ?_, ?_⟩
        · simp [events', events'']
        · simp [outputs, outputs']

end Rounds

end NetworkProj.Reception
