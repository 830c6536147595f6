import Mathlib.Algebra.Order.Field.Rat
import Mathlib.Tactic.Linarith

set_option autoImplicit false

structure Estimate where
  rtt : Rat
  dev : Rat

namespace Estimate

def next (magnitude : Rat → Rat) (estimate : Estimate) (sample : Rat) : Estimate where
  rtt := 7 / 8 * estimate.rtt + 1 / 8 * sample
  dev := 3 / 4 * estimate.dev + 1 / 4 * magnitude (sample - estimate.rtt)

def timeout (estimate : Estimate) : Rat :=
  estimate.rtt + 4 * estimate.dev

def estimates (magnitude : Rat → Rat) : Estimate → List Rat → List Estimate
  | _, [] => []
  | estimate, sample :: rest =>
    estimate.next magnitude sample :: estimates magnitude (estimate.next magnitude sample) rest

def timeouts (magnitude : Rat → Rat) : Estimate → List Rat → List Rat
  | _, [] => []
  | estimate, sample :: rest =>
    estimate.timeout :: timeouts magnitude (estimate.next magnitude sample) rest

def deviations : Rat → List Rat → List Rat
  | _, [] => []
  | rtt, sample :: rest => (sample - rtt) :: deviations (7 / 8 * rtt + 1 / 8 * sample) rest

variable (left right : Rat → Rat)

theorem next_eq_iff (estimate : Estimate) (sample : Rat) :
    estimate.next left sample = estimate.next right sample ↔
      left (sample - estimate.rtt) = right (sample - estimate.rtt) := by
  constructor
  · intro same
    have dev := congrArg Estimate.dev same
    simp only [next] at dev
    linarith
  · intro same
    simp only [next, same]

/-- Two magnitudes give the same estimates when they agree on the deviations met. -/
theorem estimates_eq_iff (start : Estimate) (samples : List Rat) :
    start.estimates left samples = start.estimates right samples ↔
      ∀ deviation ∈ deviations start.rtt samples, left deviation = right deviation := by
  induction samples generalizing start with
  | nil => simp [estimates, deviations]
  | cons sample rest ih =>
    simp only [estimates, deviations, List.cons.injEq, List.forall_mem_cons]
    constructor
    · rintro ⟨here, later⟩
      rw [here] at later
      exact ⟨(next_eq_iff left right start sample).mp here, (ih _).mp later⟩
    · rintro ⟨here, later⟩
      have same := (next_eq_iff left right start sample).mpr here
      rw [same]
      exact ⟨rfl, (ih _).mpr later⟩

theorem timeouts_congr (start : Estimate) (samples : List Rat)
    (agree : ∀ deviation ∈ deviations start.rtt samples, left deviation = right deviation) :
    start.timeouts left samples = start.timeouts right samples := by
  induction samples generalizing start with
  | nil => rfl
  | cons sample rest ih =>
    obtain ⟨here, later⟩ := List.forall_mem_cons.mp agree
    have same := (next_eq_iff left right start sample).mpr here
    simp only [timeouts, List.cons.injEq, true_and, same]
    exact ih _ later

end Estimate
