import NetworkProj.Shared.Machine

set_option autoImplicit false

namespace Machine

variable {σ ε ω η : Type} {step : Step σ ε ω η} {Allowed : ε → Prop} {first middle last : σ}

def Reaches (step : Step σ ε ω η) (Allowed : ε → Prop) (first last : σ) : Prop :=
  ∃ history, Run step first history last ∧ ∀ event ∈ events history, Allowed event

theorem Reaches.refl (step : Step σ ε ω η) (Allowed : ε → Prop) (state : σ) :
    Reaches step Allowed state state :=
  ⟨[], .start, by simp⟩

theorem Reaches.trans (left : Reaches step Allowed first middle)
    (right : Reaches step Allowed middle last) : Reaches step Allowed first last := by
  obtain ⟨history, run, allowed⟩ := left
  obtain ⟨later, continued, allowed'⟩ := right
  refine ⟨history ++ later, run.trans continued, ?_⟩
  intro event member
  rw [events_append, List.mem_append] at member
  exact member.elim (allowed event) (allowed' event)

theorem Reaches.single {event : ε} {emitted : List ω}
    (taken : step first event = .ok (last, emitted)) (allowed : Allowed event) :
    Reaches step Allowed first last :=
  ⟨[(event, emitted)], Run.single taken, by simpa using allowed⟩

theorem Reaches.invariant (Holds : σ → Prop)
    (kept : ∀ state event state' emitted, Allowed event → Holds state →
      step state event = .ok (state', emitted) → Holds state')
    (reaches : Reaches step Allowed first last) (holds : Holds first) : Holds last := by
  obtain ⟨history, run, allowed⟩ := reaches
  induction run with
  | start => exact holds
  | next event state' emitted before taken ih =>
    rw [events_append] at allowed
    have earlier := ih fun event member => allowed event (List.mem_append_left _ member)
    exact kept _ event state' emitted (allowed event (by simp)) earlier taken

/-- A measure that can always be lowered can be brought to zero. -/
theorem Reaches.descend (Holds : σ → Prop) (measure : σ → Nat)
    (lower : ∀ state, Holds state → measure state ≠ 0 →
      ∃ state', Reaches step Allowed state state' ∧ Holds state' ∧ measure state' < measure state)
    (holds : Holds first) :
    ∃ last, Reaches step Allowed first last ∧ Holds last ∧ measure last = 0 := by
  induction bound : measure first using Nat.strongRecOn generalizing first with
  | ind count ih =>
    by_cases done : measure first = 0
    · exact ⟨first, .refl step Allowed first, holds, done⟩
    · obtain ⟨next, reaches, holds', less⟩ := lower first holds done
      obtain ⟨last, onwards, final⟩ := ih (measure next) (bound ▸ less) holds' rfl
      exact ⟨last, reaches.trans onwards, final⟩

/-- Where a measure can be lowered as long as the goal is not reached, the goal can be reached. -/
theorem exists_goal {α : Type} (Holds Goal : α → Prop) (measure : α → Nat)
    (lower : ∀ value, Holds value → Goal value ∨ ∃ next, Holds next ∧ measure next < measure value)
    {first : α} (holds : Holds first) : ∃ last, Holds last ∧ Goal last := by
  induction bound : measure first using Nat.strongRecOn generalizing first with
  | ind count ih =>
    rcases lower first holds with done | ⟨next, holds', less⟩
    · exact ⟨first, holds, done⟩
    · exact ih (measure next) (bound ▸ less) holds' rfl

/-- What every step lowers bounds how long a run can be. -/
theorem Run.bounded {history : History ε ω} (measure : σ → Nat)
    (lower : ∀ history state event state' emitted, Run step first history state →
      step state event = .ok (state', emitted) → measure state' < measure state)
    (run : Run step first history last) : history.length + measure last ≤ measure first := by
  induction run with
  | start => exact Nat.le_of_eq (Nat.zero_add _)
  | next event state' emitted before taken ih =>
    have less := lower _ _ event state' emitted before taken
    rw [List.length_append, List.length_singleton]
    omega

theorem run_of_computed {α : Type} {events : List ε} {value : α} (read : σ × History ε ω → α)
    (computed : (exec step first events).toOption.map read = some value) :
    ∃ history last, Run step first history last ∧ Machine.events history = events ∧
      read (last, history) = value := by
  cases executed : exec step first events with
  | error stop =>
    rw [executed] at computed
    cases computed
  | ok result =>
    rw [executed] at computed
    exact ⟨result.2, result.1, run_of_exec executed, events_exec executed, Option.some.inj computed⟩

/-- A machine that follows another one reaches what that one reaches. -/
theorem Reaches.lift {σ' ε' ω' : Type} {whole : Step σ' ε' ω' η} {Allowed' : ε' → Prop}
    (project : σ' → σ)
    (follow : ∀ state event next emitted, Allowed event →
      step (project state) event = .ok (next, emitted) →
      ∃ state', Reaches whole Allowed' state state' ∧ project state' = next)
    {state : σ'} (reaches : Reaches step Allowed (project state) last) :
    ∃ state', Reaches whole Allowed' state state' ∧ project state' = last := by
  obtain ⟨history, run, allowed⟩ := reaches
  induction run with
  | start => exact ⟨state, .refl whole Allowed' state, rfl⟩
  | next event state' emitted before taken ih =>
    rw [events_append] at allowed
    obtain ⟨middle, there, rfl⟩ := ih fun event member => allowed event (List.mem_append_left _ member)
    obtain ⟨final, onwards, same⟩ := follow middle event state' emitted (allowed event (by simp)) taken
    exact ⟨final, there.trans onwards, same⟩

end Machine
