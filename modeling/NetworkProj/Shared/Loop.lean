import Mathlib.Data.List.Basic

set_option autoImplicit false

/-!
# Bounded while loops

`body` is one test of the loop condition together with one pass through the
loop: `none` leaves the loop. A variant below the fuel shows that the fuel never
ends the loop.
-/

namespace Loop

variable {σ ω η : Type}

abbrev Body (σ ω η : Type) : Type := σ → Except η (Option (σ × List ω))

def run (body : Body σ ω η) : Nat → σ → Except η (σ × List ω)
  | 0, state => .ok (state, [])
  | fuel + 1, state =>
    match body state with
    | .error stop => .error stop
    | .ok none => .ok (state, [])
    | .ok (some (next, emitted)) =>
      match run body fuel next with
      | .error stop => .error stop
      | .ok (final, later) => .ok (final, emitted ++ later)

def Finished (body : Body σ ω η) (state : σ) : Prop :=
  body state = .ok none

theorem run_finished (body : Body σ ω η) (fuel : Nat) (state : σ)
    (finished : Finished body state) : run body fuel state = .ok (state, []) := by
  unfold Finished at finished
  cases fuel <;> simp [run, finished]

theorem run_next (body : Body σ ω η) (fuel : Nat) (state next : σ) (emitted : List ω)
    (pass : body state = .ok (some (next, emitted))) :
    run body (fuel + 1) state =
      match run body fuel next with
      | .error stop => .error stop
      | .ok (final, later) => .ok (final, emitted ++ later) := by
  simp [run, pass]

theorem run_succ_ok {body : Body σ ω η} {fuel : Nat} {state final : σ} {outputs : List ω}
    (ran : run body (fuel + 1) state = .ok (final, outputs)) :
    (Finished body state ∧ final = state ∧ outputs = []) ∨
      ∃ next emitted later, body state = .ok (some (next, emitted)) ∧
        run body fuel next = .ok (final, later) ∧ outputs = emitted ++ later := by
  simp only [run] at ran
  split at ran
  · cases ran
  · rename_i left
    cases ran
    exact .inl ⟨left, rfl, rfl⟩
  · rename_i next emitted pass
    split at ran
    · cases ran
    · rename_i last later continued
      cases ran
      exact .inr ⟨next, emitted, later, pass, continued, rfl⟩

/-- The invariant rule; the history is what the loop has emitted. -/
theorem run_invariant {body : Body σ ω η} (Holds : List ω → σ → Prop)
    (kept : ∀ outputs state next emitted, Holds outputs state →
      body state = .ok (some (next, emitted)) → Holds (outputs ++ emitted) next)
    {fuel : Nat} {state final : σ} {outputs : List ω} (prior : List ω)
    (start : Holds prior state) (ran : run body fuel state = .ok (final, outputs)) :
    Holds (prior ++ outputs) final := by
  induction fuel generalizing state outputs prior with
  | zero =>
    cases ran
    simpa using start
  | succ fuel ih =>
    rcases run_succ_ok ran with ⟨_, rfl, rfl⟩ | ⟨next, emitted, later, pass, continued, rfl⟩
    · simpa using start
    · simpa using ih (prior ++ emitted) (kept _ _ _ _ start pass) continued

/-- The variant rule: enough fuel and the loop was left by its own test. The variant need only fall
where the invariant holds. -/
theorem run_done_of {body : Body σ ω η} (Holds : σ → Prop) (variant : σ → Nat)
    (kept : ∀ state next emitted, Holds state → body state = .ok (some (next, emitted)) → Holds next)
    (falls : ∀ state next emitted, Holds state → body state = .ok (some (next, emitted)) →
      variant next < variant state)
    {fuel : Nat} {state final : σ} {outputs : List ω} (start : Holds state)
    (enough : variant state < fuel) (ran : run body fuel state = .ok (final, outputs)) :
    Finished body final := by
  induction fuel generalizing state outputs with
  | zero => omega
  | succ fuel ih =>
    rcases run_succ_ok ran with ⟨finished, rfl, rfl⟩ | ⟨next, emitted, later, pass, continued, rfl⟩
    · exact finished
    · have lower := falls _ _ _ start pass
      exact ih (kept _ _ _ start pass) (by omega) continued

theorem run_done {body : Body σ ω η} (variant : σ → Nat)
    (falls : ∀ state next emitted, body state = .ok (some (next, emitted)) →
      variant next < variant state)
    {fuel : Nat} {state final : σ} {outputs : List ω} (enough : variant state < fuel)
    (ran : run body fuel state = .ok (final, outputs)) : Finished body final :=
  run_done_of (fun _ => True) variant (fun _ _ _ _ _ => trivial)
    (fun state next emitted _ pass => falls state next emitted pass) trivial enough ran

theorem run_ok_of {body : Body σ ω η} (Holds : σ → Prop)
    (kept : ∀ state next emitted, Holds state → body state = .ok (some (next, emitted)) → Holds next)
    (safe : ∀ state stop, Holds state → body state ≠ .error stop)
    (fuel : Nat) {state : σ} (start : Holds state) :
    ∃ final outputs, run body fuel state = .ok (final, outputs) := by
  induction fuel generalizing state with
  | zero => exact ⟨_, _, rfl⟩
  | succ fuel ih =>
    match pass : body state with
    | .error stop => exact absurd pass (safe state stop start)
    | .ok none => exact ⟨_, _, run_finished body _ state pass⟩
    | .ok (some (next, emitted)) =>
      obtain ⟨final, outputs, continued⟩ := ih (kept _ _ _ start pass)
      exact ⟨final, emitted ++ outputs, by rw [run_next body _ _ _ _ pass, continued]⟩

theorem run_more {body : Body σ ω η} {fuel : Nat} {state final : σ} {outputs : List ω}
    (ran : run body fuel state = .ok (final, outputs)) (finished : Finished body final) (more : Nat) :
    run body (fuel + more) state = .ok (final, outputs) := by
  induction fuel generalizing state outputs with
  | zero =>
    cases ran
    exact run_finished body _ _ finished
  | succ fuel ih =>
    rcases run_succ_ok ran with ⟨here, rfl, rfl⟩ | ⟨next, emitted, later, pass, continued, rfl⟩
    · exact run_finished body _ _ here
    · rw [Nat.add_right_comm, run_next body _ _ _ _ pass, ih continued]

inductive Passes (body : Body σ ω η) : σ → List ω → σ → Prop where
  | done (state : σ) : Passes body state [] state
  | pass {state next final : σ} {emitted later : List ω}
      (taken : body state = .ok (some (next, emitted))) (rest : Passes body next later final) :
      Passes body state (emitted ++ later) final

theorem passes_of_run {body : Body σ ω η} {fuel : Nat} {state final : σ} {outputs : List ω}
    (ran : run body fuel state = .ok (final, outputs)) : Passes body state outputs final := by
  induction fuel generalizing state outputs with
  | zero =>
    cases ran
    exact .done _
  | succ fuel ih =>
    rcases run_succ_ok ran with ⟨_, rfl, rfl⟩ | ⟨next, emitted, later, pass, continued, rfl⟩
    · exact .done final
    · exact .pass pass (ih continued)

theorem run_of_passes {body : Body σ ω η} (variant : σ → Nat)
    (falls : ∀ state next emitted, body state = .ok (some (next, emitted)) →
      variant next < variant state)
    {state final : σ} {outputs : List ω} (passes : Passes body state outputs final)
    (finished : Finished body final) {fuel : Nat} (enough : variant state < fuel) :
    run body fuel state = .ok (final, outputs) := by
  induction passes generalizing fuel with
  | done state => exact run_finished body fuel state finished
  | @pass state next final emitted later taken rest ih =>
    obtain ⟨fuel, rfl⟩ : ∃ less, fuel = less + 1 := ⟨fuel - 1, by omega⟩
    have lower := falls state next emitted taken
    have continued := ih finished (show variant next < fuel by omega)
    simp [run_next body fuel state next emitted taken, continued]

end Loop
