import Mathlib.Algebra.Order.BigOperators.Group.List
import Mathlib.Algebra.Order.Ring.Nat
import Mathlib.Data.List.Perm.Basic
import NetworkProj.Shared.Machine

set_option autoImplicit false

namespace LossyQueue

section Flow

variable {α β : Type} {sent lost received waiting rest : List α} {item : α}

structure Flow (sent lost received waiting : List α) : Prop where
  order : (received ++ waiting).Sublist sent
  kept : (received ++ waiting ++ lost).Perm sent

theorem Flow.empty : Flow ([] : List α) [] [] [] :=
  ⟨.slnil, .nil⟩

theorem Flow.send (flow : Flow sent lost received waiting) (item : α) :
    Flow (sent ++ [item]) lost received (waiting ++ [item]) := by
  constructor
  · rw [← List.append_assoc]
    exact flow.order.append_right [item]
  · have behind : ([item] ++ lost).Perm (lost ++ [item]) := List.perm_append_comm
    have moved := behind.append_left (received ++ waiting)
    rw [← List.append_assoc, ← List.append_assoc] at moved
    rw [← List.append_assoc]
    exact moved.trans (flow.kept.append_right [item])

theorem Flow.lose (flow : Flow sent lost received waiting) {index : Nat}
    (found : waiting[index]? = some item) :
    Flow sent (lost ++ [item]) received (waiting.eraseIdx index) := by
  obtain ⟨inside, rfl⟩ := List.getElem?_eq_some_iff.mp found
  constructor
  · exact ((List.eraseIdx_sublist waiting index).append_left received).trans flow.order
  · have back : (waiting.eraseIdx index ++ (lost ++ [waiting[index]])).Perm (waiting ++ lost) := by
      rw [← List.append_assoc]
      refine (List.perm_append_singleton _ _).trans ?_
      rw [← List.cons_append]
      exact (List.getElem_cons_eraseIdx_perm inside).append_right lost
    rw [List.append_assoc]
    refine (back.append_left received).trans ?_
    rw [← List.append_assoc]
    exact flow.kept

theorem Flow.receive (flow : Flow sent lost received (item :: rest)) :
    Flow sent lost (received ++ [item]) rest := by
  constructor
  · simpa using flow.order
  · simpa using flow.kept

theorem Flow.map (flow : Flow sent lost received waiting) (f : α → β) :
    Flow (sent.map f) (lost.map f) (received.map f) (waiting.map f) := by
  constructor
  · simpa using flow.order.map f
  · simpa using flow.kept.map f

theorem Flow.filter (flow : Flow sent lost received waiting) (p : α → Bool) :
    Flow (sent.filter p) (lost.filter p) (received.filter p) (waiting.filter p) := by
  constructor
  · simpa using flow.order.filter p
  · simpa using flow.kept.filter p

theorem Flow.count (flow : Flow sent lost received waiting) :
    received.length + waiting.length + lost.length = sent.length := by
  have length := flow.kept.length_eq
  rwa [List.length_append, List.length_append] at length

theorem Flow.whole_iff (flow : Flow sent lost received waiting) :
    received ++ waiting = sent ↔ lost = [] := by
  have count := flow.count
  rw [← List.length_append] at count
  constructor
  · intro whole
    rw [whole] at count
    exact List.eq_nil_of_length_eq_zero (by omega)
  · rintro rfl
    exact flow.order.eq_of_length count

theorem Flow.arrived_iff (flow : Flow sent lost received waiting) :
    received = sent ↔ lost = [] ∧ waiting = [] := by
  constructor
  · rintro rfl
    have count := flow.count
    exact ⟨List.eq_nil_of_length_eq_zero (by omega), List.eq_nil_of_length_eq_zero (by omega)⟩
  · rintro ⟨none, rfl⟩
    simpa using flow.whole_iff.mpr none

end Flow

section Parts

variable {α : Type}

/-- Where only the last of the items does without the property, a part of them with all that have it
is a first part. -/
theorem prefix_of_filter {p : α → Bool} {part whole : List α} (sublist : part.Sublist whole)
    (last : whole.Pairwise fun item _ => p item) (all : part.filter p = whole.filter p) :
    part <+: whole := by
  induction sublist with
  | slnil => exact List.prefix_rfl
  | @cons part whole item sublist ih =>
    have fewer := (sublist.filter p).length_le
    by_cases has : p item
    · rw [List.filter_cons_of_pos has] at all
      rw [all, List.length_cons] at fewer
      omega
    · cases whole with
      | nil =>
        rw [List.sublist_nil.mp sublist]
        exact List.nil_prefix
      | cons next rest => exact absurd ((List.pairwise_cons.mp last).1 next (.head rest)) has
  | @cons_cons part whole item sublist ih =>
    have more : part.filter p = whole.filter p := by
      simp only [List.filter_cons] at all
      split at all
      · exact (List.cons.inj all).2
      · exact all
    exact (List.prefix_cons_inj item).mpr (ih (List.pairwise_cons.mp last).2 more)

theorem filter_of_weight (weight : α → Nat) {part whole : List α} (sublist : part.Sublist whole)
    (total : (part.map weight).sum = (whole.map weight).sum) :
    part.filter (0 < weight ·) = whole.filter (0 < weight ·) := by
  induction sublist with
  | slnil => rfl
  | @cons part whole item sublist ih =>
    have less := (sublist.map weight).sum_le_sum (by simp)
    rw [List.map_cons, List.sum_cons] at total
    have nothing : ¬ 0 < weight item := by omega
    rw [ih (by omega), List.filter_cons_of_neg (by simpa using nothing)]
  | @cons_cons part whole item sublist ih =>
    rw [List.map_cons, List.map_cons, List.sum_cons, List.sum_cons] at total
    simp only [List.filter_cons, ih (Nat.add_left_cancel total)]

end Parts

section Effects

variable {α ε : Type}

inductive Effect (α : Type) where
  | sent (item : α)
  | lost (item : α)
  | received (item : α)

def Effect.sent? : Effect α → Option α
  | .sent item => some item
  | .lost _ | .received _ => none

def Effect.lost? : Effect α → Option α
  | .lost item => some item
  | .sent _ | .received _ => none

def Effect.received? : Effect α → Option α
  | .received item => some item
  | .sent _ | .lost _ => none

def sent (history : Machine.History ε (Effect α)) : List α :=
  (Machine.outputs history).filterMap Effect.sent?

def lost (history : Machine.History ε (Effect α)) : List α :=
  (Machine.outputs history).filterMap Effect.lost?

def received (history : Machine.History ε (Effect α)) : List α :=
  (Machine.outputs history).filterMap Effect.received?

theorem sent_snoc (history : Machine.History ε (Effect α)) (event : ε) (emitted : List (Effect α)) :
    sent (history ++ [(event, emitted)]) = sent history ++ emitted.filterMap Effect.sent? := by
  simp [sent]

theorem lost_snoc (history : Machine.History ε (Effect α)) (event : ε) (emitted : List (Effect α)) :
    lost (history ++ [(event, emitted)]) = lost history ++ emitted.filterMap Effect.lost? := by
  simp [lost]

theorem received_snoc (history : Machine.History ε (Effect α)) (event : ε)
    (emitted : List (Effect α)) :
    received (history ++ [(event, emitted)]) =
      received history ++ emitted.filterMap Effect.received? := by
  simp [received]

inductive Passes (waiting : List α) : List (Effect α) → List α → Prop where
  | idle : Passes waiting [] waiting
  | send (item : α) : Passes waiting [.sent item] (waiting ++ [item])
  | lose (index : Nat) (item : α) (found : waiting[index]? = some item) :
      Passes waiting [.lost item] (waiting.eraseIdx index)
  | receive (item : α) (rest : List α) (first : waiting = item :: rest) :
      Passes waiting [.received item] rest

theorem Flow.passes {history : Machine.History ε (Effect α)} {waiting waiting' : List α}
    {emitted : List (Effect α)}
    (flow : Flow (sent history) (lost history) (received history) waiting)
    (passes : Passes waiting emitted waiting') (event : ε) :
    Flow (sent (history ++ [(event, emitted)])) (lost (history ++ [(event, emitted)]))
      (received (history ++ [(event, emitted)])) waiting' := by
  rw [sent_snoc, lost_snoc, received_snoc]
  cases passes with
  | idle => simpa using flow
  | send item =>
    simpa [List.filterMap_cons, Effect.sent?, Effect.lost?, Effect.received?] using flow.send item
  | lose index item found =>
    simpa [List.filterMap_cons, Effect.sent?, Effect.lost?, Effect.received?] using flow.lose found
  | receive item rest first =>
    subst first
    simpa [List.filterMap_cons, Effect.sent?, Effect.lost?, Effect.received?] using flow.receive

end Effects

end LossyQueue
