import NetworkProj.Timer.DeadlineRefinement

set_option autoImplicit false

namespace NetworkProj.Timer

open DeltaList

def time (history : Machine.History TimerRound TimerItem) : Rat :=
  ((Machine.events history).map TimerRound.elapsedSeconds).sum

/-- The pass comes no later than the timeout and the overrun allow. -/
def Prompt (overrun : Rat) (list : List TimerNode) (round : TimerRound) : Prop :=
  ∀ sec usec, sleepTime list = some (sec, usec) →
    round.elapsedSeconds ≤ (sec : Rat) + usec / 1000000 + overrun

def Cancels (item : TimerItem) (round : TimerRound) : Prop :=
  ∃ cancel requestAddr, round.request = some (cancel, requestAddr) ∧ cancel.type = .cancel ∧
    (⟨cancel.session, cancel.seqNum⟩ : TimerExpired) = item.2

def Starts (item : TimerItem) (now deadline : Rat) (round : TimerRound) : Prop :=
  ∃ seconds, deadline = now + seconds ∧
    round.request = some (⟨.start, item.2.session, item.2.seqNum, seconds⟩, item.1)

/-- A Start that is behind the deadline, with neither a Cancel nor a notification since. -/
def Armed (history : Machine.History TimerRound TimerItem) (item : TimerItem) (deadline : Rat) :
    Prop :=
  ∃ before round sent after, history = before ++ (round, sent) :: after ∧
    Starts item (time before + round.elapsedSeconds) deadline round ∧ item ∉ sent ∧
    ∀ later ∈ after, item ∉ later.2 ∧ ¬ Cancels item later.1

def Waits (history : Machine.History TimerRound TimerItem) (round : TimerRound) (item : TimerItem)
    (deadline : Rat) : Prop :=
  (Armed history item deadline ∧ ¬ Cancels item round) ∨
    Starts item (time history + round.elapsedSeconds) deadline round

theorem time_snoc (history : Machine.History TimerRound TimerItem) (round : TimerRound)
    (sent : List TimerItem) : time (history ++ [(round, sent)]) = time history + round.elapsedSeconds := by
  simp [time]

section Passes

variable {history : Machine.History TimerRound TimerItem} {table : Deadlines} {round : TimerRound}
  {item : TimerItem} {deadline overrun : Rat}

theorem Waits.armed (waits : Waits history round item deadline) {sent : List TimerItem}
    (quiet : item ∉ sent) : Armed (history ++ [(round, sent)]) item deadline := by
  rcases waits with ⟨⟨before, start, sent', after, split, starts, unsent, still⟩, kept⟩ | starts
  · refine ⟨before, start, sent', after ++ [(round, sent)], by simp [split], starts, unsent, ?_⟩
    intro later member
    rcases List.mem_append.mp member with old | new
    · exact still later old
    · rw [List.mem_singleton.mp new]
      exact ⟨quiet, kept⟩
  · exact ⟨history, round, sent, [], rfl, starts, quiet, by simp⟩

theorem request_waits (patient : 0 ≤ overrun) (valid : ValidRound round)
    (armed : ∀ entry ∈ table, Armed history entry.1 (time history + entry.2))
    (slept : ∀ entry ∈ table, round.elapsedSeconds ≤ entry.2 + overrun) {entry : TimerItem × Rat}
    (member : entry ∈ deadlineRequest
      (table.map fun entry => (entry.1, entry.2 - round.elapsedSeconds)) round.request) :
    Waits history round entry.1 (time history + round.elapsedSeconds + entry.2) ∧
      -overrun ≤ entry.2 := by
  have shift (value : Rat) : time history + round.elapsedSeconds + (value - round.elapsedSeconds) =
      time history + value := by ring
  -- An entry of old waits on unless the pass cancels it.
  have aged (entry : TimerItem × Rat) (kept : ¬ Cancels entry.1 round)
      (member : entry ∈ table.map fun entry => (entry.1, entry.2 - round.elapsedSeconds)) :
      Waits history round entry.1 (time history + round.elapsedSeconds + entry.2) ∧
        -overrun ≤ entry.2 := by
    obtain ⟨old, present, rfl⟩ := List.mem_map.mp member
    have early := slept old present
    refine ⟨.inl ⟨?_, kept⟩, by dsimp only; linarith⟩
    rw [shift]
    exact armed old present
  cases read : round.request with
  | none =>
    rw [read] at member
    refine aged entry ?_ member
    rintro ⟨cancel, requestAddr, request, _⟩
    rw [read] at request
    cases request
  | some body =>
    obtain ⟨request, requestAddr⟩ := body
    rw [read] at member
    cases kind : request.type with
    | start =>
      have kept (item : TimerItem) : ¬ Cancels item round := by
        rintro ⟨cancel, requestAddr', same, cancels, _⟩
        rw [read] at same
        cases same
        rw [kind] at cancels
        cases cancels
      simp only [deadlineRequest, kind] at member
      split at member
      · exact aged entry (kept entry.1) member
      · rcases List.mem_append.mp member with old | new
        · exact aged entry (kept entry.1) old
        · rw [List.mem_singleton.mp new]
          have start := (valid.2 request requestAddr read kind).1
          refine ⟨.inr ⟨request.seconds, rfl, ?_⟩, by dsimp only; linarith⟩
          rw [read, ← kind]
    | cancel =>
      simp only [deadlineRequest, kind] at member
      obtain ⟨inside, other⟩ := List.mem_filter.mp member
      refine aged entry ?_ inside
      rintro ⟨cancel, requestAddr', same, _, own⟩
      rw [read] at same
      cases same
      exact of_decide_eq_true other own.symm

theorem first_least {list : List TimerNode} (refines : Refines list table) {entry : TimerItem × Rat}
    (member : entry ∈ table) :
    ∃ first rest, list = first :: rest ∧ first.remainSeconds ≤ entry.2 ∧ first.remainSeconds < 2 ^ 32 := by
  have inside := (byDeadline_perm table).mem_iff.mpr member
  rw [← refines.times] at inside
  cases list with
  | nil => cases inside
  | cons first rest =>
    refine ⟨first, rest, rfl, ?_, ?_⟩
    · have sorted := byDeadline_sorted table
      rw [← refines.times] at sorted
      have times : absolute 0 (entries (first :: rest)) =
          ((first.requestAddr, first.expired), 0 + first.remainSeconds) ::
            absolute (0 + first.remainSeconds) (entries rest) := rfl
      rw [times] at sorted inside
      rcases List.mem_cons.mp inside with rfl | later
      · simp
      · have ordered := (List.pairwise_cons.mp sorted).1 entry later
        simpa using ordered
    · have head : ((first.requestAddr, first.expired), 0 + first.remainSeconds) ∈ byDeadline table := by
        rw [← refines.times]
        exact .head _
      have bound := refines.bounded _ ((byDeadline_perm table).mem_iff.mp head)
      simpa using bound

theorem slept_enough {list : List TimerNode} (refines : Refines list table)
    (prompt : Prompt overrun list round) {entry : TimerItem × Rat} (member : entry ∈ table) :
    round.elapsedSeconds ≤ entry.2 + overrun := by
  obtain ⟨first, rest, rfl, least, bound⟩ := first_least refines member
  have ahead := refines.first first rfl
  obtain ⟨sec, usec, slept, sleeps⟩ := @sleepTime_first first rest ahead.le bound
  have within := prompt sec usec slept
  have early := sleeps.early
  linarith

end Passes

section Runs

variable {history : Machine.History TimerRound TimerItem} {list list' : List TimerNode}
  {round : TimerRound} {sent : List TimerItem} {overrun : Rat}

theorem request_keys (valid : ValidRound round) {table : Deadlines} (refines : Refines list table) :
    ((deadlineRequest (table.map fun entry => (entry.1, entry.2 - round.elapsedSeconds))
      round.request).map fun entry => entry.1.2).Nodup := by
  have updated : Tracks (entries (updateTimerList round.elapsedSeconds list))
      (table.map fun entry => (entry.1, entry.2 - round.elapsedSeconds)) := by
    rw [updateTimerList, entries_carryOver]
    exact tracks_advance _ refines.nonneg refines.times
  refine (request_tracks updated ?_ ?_ round.request valid.2).2.1
  · simpa [Function.comp_def] using refines.keys
  · intro entry member
    obtain ⟨old, present, rfl⟩ := List.mem_map.mp member
    have limit := refines.bounded old present
    have elapsed := valid.1
    dsimp only
    linarith

theorem pass_punctual {table : Deadlines} (patient : 0 ≤ overrun) (valid : ValidRound round)
    (refines : Refines list table)
    (armed : ∀ entry ∈ table, Armed history entry.1 (time history + entry.2))
    (prompt : Prompt overrun list round) (taken : timerStep list round = .ok (list', sent)) :
    (∃ table', Refines list' table' ∧
        ∀ entry ∈ table', Armed (history ++ [(round, sent)]) entry.1
          (time (history ++ [(round, sent)]) + entry.2)) ∧
      ∀ item ∈ sent, ∃ deadline, Waits history round item deadline ∧
        deadline ≤ time history + round.elapsedSeconds ∧
        time history + round.elapsedSeconds ≤ deadline + overrun := by
  have waits (entry : TimerItem × Rat) (member : entry ∈ deadlineRequest
      (table.map fun entry => (entry.1, entry.2 - round.elapsedSeconds)) round.request) :=
    request_waits patient valid armed (fun _ member => slept_enough refines prompt member) member
  obtain ⟨same, refines'⟩ := round_refines refines round valid
  rw [Except.ok.inj taken] at same refines'
  dsimp only [deadlineRound] at same
  constructor
  · refine ⟨_, refines', ?_⟩
    intro entry member
    obtain ⟨inside, ahead⟩ := List.mem_filter.mp member
    rw [time_snoc]
    refine (waits entry inside).1.armed ?_
    -- The keys of the table differ, so nothing of this key was due.
    rw [same]
    intro notified
    obtain ⟨fired, listed, equal⟩ := List.mem_map.mp notified
    obtain ⟨present, due⟩ := List.mem_filter.mp listed
    have again := List.inj_on_of_nodup_map (request_keys valid refines)
      ((byDeadline_perm _).mem_iff.mp present) inside (congrArg Prod.snd equal)
    rw [again, decide_eq_true_eq] at due
    exact absurd (of_decide_eq_true ahead) (not_lt.mpr due)
  · intro item member
    rw [same] at member
    obtain ⟨entry, fired, rfl⟩ := List.mem_map.mp member
    obtain ⟨listed, due⟩ := List.mem_filter.mp fired
    obtain ⟨waiting, late⟩ := waits entry ((byDeadline_perm _).mem_iff.mp listed)
    rw [decide_eq_true_eq] at due
    exact ⟨_, waiting, by linarith, by linarith⟩

theorem run_armed (patient : 0 ≤ overrun) (run : Machine.Run timerStep [] history list)
    (valid : ∀ round ∈ Machine.events history, ValidRound round)
    (prompt : Machine.Guarded timerStep [] (Prompt overrun) history) :
    ∃ table, Refines list table ∧
      ∀ entry ∈ table, Armed history entry.1 (time history + entry.2) := by
  induction run with
  | start =>
    refine ⟨[], ?_, by simp⟩
    exact {
      nonneg := by simp [Nonneg, entries]
      first := by simp
      times := rfl
      keys := .nil
      bounded := by simp }
  | next round list' sent before taken ih =>
    rw [Machine.events_append] at valid
    obtain ⟨table, refines, armed⟩ :=
      ih (fun round member => valid round (List.mem_append_left _ member)) prompt.before
    exact (pass_punctual patient (valid round (by simp)) refines armed (prompt.last before) taken).1

/-- In every run of the main loop a notification answers a Start of its own that was not cancelled:
it is never sent before the deadline, and never later than the overrun of a single pass. -/
theorem notifications_punctual (patient : 0 ≤ overrun)
    (run : Machine.Run timerStep [] history list)
    (valid : ∀ round ∈ Machine.events history, ValidRound round)
    (prompt : Machine.Guarded timerStep [] (Prompt overrun) history)
    (valid' : ValidRound round) (prompt' : Prompt overrun list round)
    (taken : timerStep list round = .ok (list', sent)) :
    ∀ item ∈ sent, ∃ deadline, Waits history round item deadline ∧
      deadline ≤ time history + round.elapsedSeconds ∧
      time history + round.elapsedSeconds ≤ deadline + overrun := by
  obtain ⟨table, refines, armed⟩ := run_armed patient run valid prompt
  exact (pass_punctual patient valid' refines armed prompt' taken).2

-- A timer of two seconds, and a pass that comes a millisecond late.
theorem notifications_punctual_example : ∃ history list list' sent,
    Machine.Run timerStep [] history list ∧
      timerStep list ⟨2001 / 1000, none⟩ = .ok (list', sent) ∧ sent = [(default, ⟨7, 1⟩)] ∧
      ∀ item ∈ sent, ∃ deadline, Waits history ⟨2001 / 1000, none⟩ item deadline ∧
        deadline ≤ time history + 2001 / 1000 ∧
        time history + 2001 / 1000 ≤ deadline + 1 / 1000 := by
  have fresh : Machine.Run timerStep [] [] [] := .start
  have started := fresh.next ⟨0, some (⟨.start, 7, 1, 2⟩, default)⟩ _ _ rfl
  have asleep : sleepTime [] = some (1000, 0) := rfl
  have waiting : sleepTime (timerRound [] ⟨0, some (⟨.start, 7, 1, 2⟩, default)⟩).1 = some (2, 0) := by
    decide +kernel
  have valid : ValidRound ⟨0, some (⟨.start, 7, 1, 2⟩, default)⟩ := by
    refine ⟨le_rfl, ?_⟩
    intro request requestAddr same _
    cases same
    norm_num
  have prompt : Prompt (1 / 1000) [] ⟨0, some (⟨.start, 7, 1, 2⟩, default)⟩ := by
    intro sec usec slept
    rw [asleep] at slept
    cases slept
    norm_num
  have prompt' : Prompt (1 / 1000) (timerRound [] ⟨0, some (⟨.start, 7, 1, 2⟩, default)⟩).1
      ⟨2001 / 1000, none⟩ := by
    intro sec usec slept
    rw [waiting] at slept
    cases slept
    norm_num
  have punctual := notifications_punctual (by norm_num) started
    (by simpa [Machine.events] using valid) (.next (.start _ _ _) fresh prompt)
    ⟨by norm_num, by simp⟩ prompt' rfl
  exact ⟨_, _, _, _, started, rfl, by decide +kernel, punctual⟩

end Runs

end NetworkProj.Timer
