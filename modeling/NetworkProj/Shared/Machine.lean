import Mathlib.Data.List.Induction

set_option autoImplicit false

/-!
# Runs of step machines

A machine answers each event with its next state and the outputs it emits, or
it stops. A history lists the events of a run, each with its outputs.
-/

namespace Machine

variable {σ ε ω η : Type}

abbrev Step (σ ε ω η : Type) : Type := σ → ε → Except η (σ × List ω)

abbrev History (ε ω : Type) : Type := List (ε × List ω)

def events (history : History ε ω) : List ε :=
  history.map Prod.fst

def outputs (history : History ε ω) : List ω :=
  history.flatMap Prod.snd

@[simp] theorem events_nil : events ([] : History ε ω) = [] := rfl

@[simp] theorem events_append (left right : History ε ω) :
    events (left ++ right) = events left ++ events right := by
  simp [events]

@[simp] theorem events_cons (entry : ε × List ω) (rest : History ε ω) :
    events (entry :: rest) = entry.1 :: events rest := rfl

@[simp] theorem outputs_nil : outputs ([] : History ε ω) = [] := rfl

@[simp] theorem outputs_append (left right : History ε ω) :
    outputs (left ++ right) = outputs left ++ outputs right := by
  simp [outputs]

@[simp] theorem outputs_cons (entry : ε × List ω) (rest : History ε ω) :
    outputs (entry :: rest) = entry.2 ++ outputs rest := by
  simp [outputs]

inductive Run (step : Step σ ε ω η) (initial : σ) : History ε ω → σ → Prop where
  | start : Run step initial [] initial
  | next {history : History ε ω} {state : σ} (event : ε) (state' : σ) (emitted : List ω)
      (before : Run step initial history state)
      (taken : step state event = .ok (state', emitted)) :
      Run step initial (history ++ [(event, emitted)]) state'

/-- What holds at the start and is kept by each step holds in every reachable state. -/
theorem Run.invariant {step : Step σ ε ω η} {initial state : σ} {history : History ε ω}
    (Holds : History ε ω → σ → Prop) (base : Holds [] initial)
    (kept : ∀ history state event state' emitted,
      Run step initial history state → Holds history state →
      step state event = .ok (state', emitted) → Holds (history ++ [(event, emitted)]) state')
    (run : Run step initial history state) : Holds history state := by
  induction run with
  | start => exact base
  | next event state' emitted before taken ih => exact kept _ _ _ _ _ before ih taken

theorem Run.trans {step : Step σ ε ω η} {first middle last : σ} {history history' : History ε ω}
    (left : Run step first history middle) (right : Run step middle history' last) :
    Run step first (history ++ history') last := by
  induction right with
  | start => simpa using left
  | next event state' emitted before taken ih =>
    simpa only [List.append_assoc] using Run.next event state' emitted ih taken

theorem Run.single {step : Step σ ε ω η} {state state' : σ} {event : ε} {emitted : List ω}
    (taken : step state event = .ok (state', emitted)) :
    Run step state [(event, emitted)] state' := by
  simpa using Run.next event state' emitted Run.start taken

theorem Run.last {step : Step σ ε ω η} {initial final : σ} {history : History ε ω} {event : ε}
    {emitted : List ω} (run : Run step initial (history ++ [(event, emitted)]) final) :
    ∃ state, Run step initial history state ∧ step state event = .ok (final, emitted) := by
  generalize whole : history ++ [(event, emitted)] = all at run
  cases run with
  | start => simp at whole
  | next event' final emitted' before taken =>
    obtain ⟨rfl, entry⟩ := List.append_inj' whole rfl
    cases entry
    exact ⟨_, before, taken⟩

theorem Run.split {step : Step σ ε ω η} {initial final : σ} {before after : History ε ω} {event : ε}
    {emitted : List ω} (run : Run step initial (before ++ (event, emitted) :: after) final) :
    ∃ state state', Run step initial before state ∧ step state event = .ok (state', emitted) := by
  induction after using List.reverseRecOn generalizing final with
  | nil =>
    obtain ⟨state, ran, taken⟩ := run.last
    exact ⟨state, final, ran, taken⟩
  | append_singleton rest entry ih =>
    rw [← List.cons_append, ← List.append_assoc] at run
    obtain ⟨last, ran, _⟩ := run.last
    exact ih ran

/-- A run of a composed machine is a run of each component: every step of the whole is one of the
component or leaves it alone. -/
theorem Run.component {σ' ε' ω' η' : Type} {step : Step σ ε ω η} {part : Step σ' ε' ω' η'}
    {initial state : σ} {history : History ε ω} (project : σ → σ')
    (call : ε × List ω → Option (ε' × List ω'))
    (follows : ∀ state event state' emitted, step state event = .ok (state', emitted) →
      (call (event, emitted) = none ∧ project state' = project state) ∨
        ∃ event' emitted', call (event, emitted) = some (event', emitted') ∧
          part (project state) event' = .ok (project state', emitted'))
    (run : Run step initial history state) :
    Run part (project initial) (history.filterMap call) (project state) := by
  induction run with
  | start => exact .start
  | next event state' emitted before taken ih =>
    rw [List.filterMap_append]
    rcases follows _ _ _ _ taken with ⟨foreign, same⟩ | ⟨event', emitted', own, stepped⟩
    · simpa [List.filterMap_cons, foreign, same] using ih
    · simpa [List.filterMap_cons, own] using ih.next event' _ emitted' stepped

def exec (step : Step σ ε ω η) (state : σ) : List ε → Except η (σ × History ε ω)
  | [] => .ok (state, [])
  | event :: rest =>
    match step state event with
    | .error stop => .error stop
    | .ok (next, emitted) =>
      match exec step next rest with
      | .error stop => .error stop
      | .ok (final, history) => .ok (final, (event, emitted) :: history)

theorem exec_cons_ok {step : Step σ ε ω η} {state final : σ} {event : ε} {rest : List ε}
    {history : History ε ω} (run : exec step state (event :: rest) = .ok (final, history)) :
    ∃ next emitted later, step state event = .ok (next, emitted) ∧
      exec step next rest = .ok (final, later) ∧ history = (event, emitted) :: later := by
  simp only [exec] at run
  split at run
  · cases run
  · rename_i next emitted taken
    split at run
    · cases run
    · rename_i last later continued
      cases run
      exact ⟨next, emitted, later, taken, continued, rfl⟩

theorem exec_cons {step : Step σ ε ω η} {state next final : σ} {event : ε} {rest : List ε}
    {emitted : List ω} {later : History ε ω} (taken : step state event = .ok (next, emitted))
    (continued : exec step next rest = .ok (final, later)) :
    exec step state (event :: rest) = .ok (final, (event, emitted) :: later) := by
  simp [exec, taken, continued]

theorem events_exec {step : Step σ ε ω η} {state final : σ} {events : List ε}
    {history : History ε ω} (run : exec step state events = .ok (final, history)) :
    Machine.events history = events := by
  induction events generalizing state history with
  | nil =>
    cases run
    rfl
  | cons event rest ih =>
    obtain ⟨next, emitted, later, taken, continued, rfl⟩ := exec_cons_ok run
    rw [events_cons, ih continued]

theorem run_of_exec {step : Step σ ε ω η} {state final : σ} {events : List ε}
    {history : History ε ω} (run : exec step state events = .ok (final, history)) :
    Run step state history final := by
  induction events generalizing state history with
  | nil =>
    cases run
    exact .start
  | cons event rest ih =>
    obtain ⟨next, emitted, later, taken, continued, rfl⟩ := exec_cons_ok run
    exact (Run.single taken).trans (ih continued)

theorem exec_of_run {step : Step σ ε ω η} {initial final : σ} {history : History ε ω}
    (run : Run step initial history final) :
    exec step initial (events history) = .ok (final, history) := by
  have append (state middle final : σ) (left : List ε) (event : ε) (emitted : List ω)
      (history : History ε ω) (ran : exec step state left = .ok (middle, history))
      (taken : step middle event = .ok (final, emitted)) :
      exec step state (left ++ [event]) = .ok (final, history ++ [(event, emitted)]) := by
    induction left generalizing state history with
    | nil =>
      cases ran
      simp [exec, taken]
    | cons head rest ih =>
      obtain ⟨next, out, later, first, continued, rfl⟩ := exec_cons_ok ran
      exact exec_cons first (ih next later continued)
  induction run with
  | start => rfl
  | next event state' emitted before taken ih =>
    rw [events_append]
    exact append _ _ _ _ _ _ _ ih taken

/-- Every event finds a state that allows it, up to where the machine stops. -/
def Along (step : Step σ ε ω η) (Allowed : σ → ε → Prop) (state : σ) : List ε → Prop
  | [] => True
  | event :: rest =>
    Allowed state event ∧
      match step state event with
      | .error _ => True
      | .ok (next, _) => Along step Allowed next rest

theorem Along.next {step : Step σ ε ω η} {Allowed : σ → ε → Prop} {state state' : σ} {event : ε}
    {emitted : List ω} {rest : List ε} (along : Along step Allowed state (event :: rest))
    (taken : step state event = .ok (state', emitted)) : Along step Allowed state' rest := by
  have later := along.2
  rw [taken] at later
  exact later

instance Along.decidable (step : Step σ ε ω η) (Allowed : σ → ε → Prop)
    [each : ∀ state event, Decidable (Allowed state event)] (state : σ) (events : List ε) :
    Decidable (Along step Allowed state events) :=
  match events with
  | [] => isTrue trivial
  | event :: rest =>
    match taken : step state event with
    | .error _ => decidable_of_iff (Allowed state event) (by simp [Along, taken])
    | .ok (next, _) =>
      have := Along.decidable step Allowed next rest
      decidable_of_iff (Allowed state event ∧ Along step Allowed next rest) (by simp [Along, taken])

/-- What the steps on a list of events contribute, each seen from the state before it. -/
def collect {α : Type} (step : Step σ ε ω η) (part : σ → ε → List α) (state : σ) : List ε → List α
  | [] => []
  | event :: rest =>
    part state event ++
      match step state event with
      | .error _ => []
      | .ok (next, _) => collect step part next rest

theorem collect_exec {α : Type} {step : Step σ ε ω η} (part : σ → ε → List α) {state final : σ}
    {events : List ε} {history : History ε ω} (ran : exec step state events = .ok (final, history))
    (event : ε) :
    collect step part state (events ++ [event]) =
      collect step part state events ++ part final event := by
  induction events generalizing state history with
  | nil =>
    cases ran
    simp only [List.nil_append, collect]
    split <;> simp
  | cons head rest ih =>
    obtain ⟨next, emitted, later, taken, continued, rfl⟩ := exec_cons_ok ran
    simp only [List.cons_append, collect, taken, ih continued, List.append_assoc]

theorem Run.collect {α : Type} {step : Step σ ε ω η} (part : σ → ε → List α) {initial state : σ}
    {history : History ε ω} (run : Run step initial history state) (entry : ε × List ω) :
    Machine.collect step part initial (events (history ++ [entry])) =
      Machine.collect step part initial (events history) ++ part state entry.1 := by
  rw [events_append]
  exact collect_exec part (exec_of_run run) entry.1

theorem Run.same {step : Step σ ε ω η} {initial state state' : σ} {history history' : History ε ω}
    (run : Run step initial history state) (run' : Run step initial history' state')
    (same : events history = events history') : state = state' ∧ history = history' := by
  have executed := exec_of_run run
  rw [same, exec_of_run run'] at executed
  cases executed
  exact ⟨rfl, rfl⟩

theorem Run.deterministic {step : Step σ ε ω η} {initial state state' : σ} {history : History ε ω}
    (run : Run step initial history state) (run' : Run step initial history state') :
    state = state' :=
  (run.same run' rfl).1

theorem split_snoc {history before after : History ε ω} {entry last : ε × List ω}
    (split : history ++ [last] = before ++ entry :: after) :
    (history = before ∧ entry = last ∧ after = []) ∨
      ∃ rest, after = rest ++ [last] ∧ history = before ++ entry :: rest := by
  rcases List.eq_nil_or_concat after with rfl | ⟨rest, final, rfl⟩
  · obtain ⟨rfl, same⟩ := List.append_inj' split rfl
    cases same
    exact .inl ⟨rfl, rfl, rfl⟩
  · rw [List.concat_eq_append, ← List.cons_append, ← List.append_assoc] at split
    obtain ⟨rfl, same⟩ := List.append_inj' split rfl
    cases same
    exact .inr ⟨rest, List.concat_eq_append, rfl⟩

/-- Every step of a history was taken in a state that allows it. -/
def Guarded (step : Step σ ε ω η) (initial : σ) (Allowed : σ → ε → Prop)
    (history : History ε ω) : Prop :=
  ∀ before event emitted after state, history = before ++ (event, emitted) :: after →
    Run step initial before state → Allowed state event

theorem Guarded.before {step : Step σ ε ω η} {initial : σ} {Allowed : σ → ε → Prop}
    {history : History ε ω} {entry : ε × List ω}
    (guarded : Guarded step initial Allowed (history ++ [entry])) :
    Guarded step initial Allowed history := by
  intro before event emitted after state split ran
  exact guarded before event emitted (after ++ [entry]) state (by simp [split]) ran

theorem Guarded.last {step : Step σ ε ω η} {initial state : σ} {Allowed : σ → ε → Prop}
    {history : History ε ω} {event : ε} {emitted : List ω}
    (guarded : Guarded step initial Allowed (history ++ [(event, emitted)]))
    (run : Run step initial history state) : Allowed state event :=
  guarded history event emitted [] state rfl run

theorem Guarded.start (step : Step σ ε ω η) (initial : σ) (Allowed : σ → ε → Prop) :
    Guarded step initial Allowed [] := by
  intro before event emitted after state split
  simp at split

theorem Guarded.next {step : Step σ ε ω η} {initial state : σ} {Allowed : σ → ε → Prop}
    {history : History ε ω} {event : ε} {emitted : List ω}
    (guarded : Guarded step initial Allowed history) (run : Run step initial history state)
    (allowed : Allowed state event) :
    Guarded step initial Allowed (history ++ [(event, emitted)]) := by
  intro before event' emitted' after state' split ran
  rcases split_snoc split with ⟨rfl, same, _⟩ | ⟨rest, _, split⟩
  · cases same
    rw [← run.deterministic ran]
    exact allowed
  · exact guarded before event' emitted' rest state' split ran

end Machine
