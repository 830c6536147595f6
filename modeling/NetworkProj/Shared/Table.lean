import Mathlib.Data.List.Nodup
import Mathlib.Algebra.GroupWithZero.Nat
import Mathlib.Algebra.Order.BigOperators.Group.List
import Mathlib.Algebra.Order.Group.Nat
import Mathlib.Logic.Function.Basic

set_option autoImplicit false

structure Table (κ α : Type) where
  keys : List κ
  find : κ → Option α
  nodup : keys.Nodup
  present : ∀ key, key ∈ keys ↔ (find key).isSome

/-- An iteration order visits every key exactly once. -/
structure IterOrder (κ : Type) where
  visit : List κ → List κ
  perm : ∀ keys, (visit keys).Perm keys

namespace IterOrder

variable {κ : Type} (order : IterOrder κ)

theorem nodup {α : Type} (table : Table κ α) : (order.visit table.keys).Nodup :=
  (order.perm table.keys).nodup_iff.mpr table.nodup

theorem mem {α : Type} (table : Table κ α) (key : κ) :
    key ∈ order.visit table.keys ↔ (table.find key).isSome := by
  rw [(order.perm table.keys).mem_iff, table.present]

def insertion (κ : Type) : IterOrder κ := ⟨id, fun _ => .refl _⟩

end IterOrder

namespace Table

variable {κ α : Type}

def empty : Table κ α where
  keys := []
  find _ := none
  nodup := .nil
  present := by simp

@[simp] theorem find_empty (key : κ) : (empty : Table κ α).find key = none := rfl

theorem eq_of_fields {left right : Table κ α} (keys : left.keys = right.keys)
    (find : left.find = right.find) : left = right := by
  cases left
  cases right
  cases keys
  cases find
  rfl

variable [DecidableEq κ]

def insert (table : Table κ α) (key : κ) (value : α) : Table κ α where
  keys := if key ∈ table.keys then table.keys else table.keys ++ [key]
  find := Function.update table.find key (some value)
  nodup := by
    split
    · exact table.nodup
    · rename_i fresh
      exact List.nodup_append.mpr ⟨table.nodup, by simp, by
        rintro old member _ (_ | ⟨_, ⟨⟩⟩) rfl
        exact fresh member⟩
  present other := by
    by_cases same : other = key
    · subst same
      by_cases old : other ∈ table.keys <;> simp [old]
    · by_cases old : key ∈ table.keys <;> simp [old, same, table.present]

@[simp] theorem find_insert (table : Table κ α) (key : κ) (value : α) :
    (table.insert key value).find key = some value := by
  simp [insert]

@[simp] theorem find_insert_of_ne (table : Table κ α) (key other : κ) (value : α)
    (different : other ≠ key) : (table.insert key value).find other = table.find other := by
  simp [insert, different]

theorem find_insert_eq (table : Table κ α) (key other : κ) (value : α) :
    (table.insert key value).find other = if other = key then some value else table.find other := by
  by_cases same : other = key <;> simp [same]

theorem find_insert_some {table : Table κ α} {key other : κ} {value found : α}
    (present : (table.insert key value).find other = some found) :
    other = key ∧ found = value ∨ other ≠ key ∧ table.find other = some found := by
  rw [find_insert_eq] at present
  split at present
  next same =>
    cases present
    exact .inl ⟨same, rfl⟩
  next different => exact .inr ⟨different, present⟩

theorem find_unchanged {table : Table κ α} {key : κ} {value : α}
    (found : table.find key = some value) (other : κ) :
    table.find other = if other = key then some value else table.find other := by
  split
  next same => rw [same, found]
  · rfl

omit [DecidableEq κ] in
theorem mem_keys_of_find {table : Table κ α} {key : κ} {value : α}
    (found : table.find key = some value) : key ∈ table.keys := by
  simp [table.present, found]

theorem keys_insert_old {table : Table κ α} {key : κ} {old : α} (value : α)
    (found : table.find key = some old) : (table.insert key value).keys = table.keys := by
  simp [insert, mem_keys_of_find found]

theorem keys_insert_new {table : Table κ α} {key : κ} (value : α)
    (absent : table.find key = none) : (table.insert key value).keys = table.keys ++ [key] := by
  have fresh : key ∉ table.keys := by simp [table.present, absent]
  simp [insert, fresh]

theorem insert_found {table : Table κ α} {key : κ} {value : α}
    (found : table.find key = some value) : table.insert key value = table := by
  have keys := keys_insert_old value found
  have find : (table.insert key value).find = table.find := by
    funext other
    rw [find_insert_eq, ← find_unchanged found]
  exact eq_of_fields keys find

section Total

def total (weight : α → Nat) (table : Table κ α) : Nat :=
  (table.keys.map fun key => (table.find key).elim 0 weight).sum

variable (weight : α → Nat)

omit [DecidableEq κ] in
theorem total_congr {table final : Table κ α} (keys : final.keys = table.keys)
    (values : ∀ key, (final.find key).elim 0 weight = (table.find key).elim 0 weight) :
    final.total weight = table.total weight := by
  simp only [total, keys, values]

omit [DecidableEq κ] in
theorem total_eq_zero {table : Table κ α}
    (light : ∀ key value, table.find key = some value → weight value = 0) :
    table.total weight = 0 := by
  apply List.sum_eq_zero
  intro value member
  obtain ⟨key, _, rfl⟩ := List.mem_map.mp member
  cases found : table.find key with
  | none => rfl
  | some value => exact light key value found

theorem total_insert_new (table : Table κ α) (key : κ) (value : α)
    (absent : table.find key = none) :
    (table.insert key value).total weight = table.total weight + weight value := by
  have unchanged : (table.keys.map fun other =>
      ((table.insert key value).find other).elim 0 weight) =
      table.keys.map fun other => (table.find other).elim 0 weight := by
    apply List.map_congr_left
    intro other member
    have different : other ≠ key := by
      rintro rfl
      simp [table.present, absent] at member
    simp [different]
  simp [total, keys_insert_new value absent, unchanged]

theorem total_insert_old (table : Table κ α) (key : κ) (old value : α)
    (found : table.find key = some old) :
    (table.insert key value).total weight + weight old = table.total weight + weight value := by
  have apart (keys : List κ) (nodup : keys.Nodup) (member : key ∈ keys) :
      (keys.map fun other => ((table.insert key value).find other).elim 0 weight).sum + weight old =
        (keys.map fun other => (table.find other).elim 0 weight).sum + weight value := by
    induction keys with
    | nil => simp at member
    | cons head rest ih =>
      obtain ⟨fresh, nodup⟩ := List.nodup_cons.mp nodup
      by_cases here : head = key
      · subst here
        have unchanged : (rest.map fun other =>
            ((table.insert head value).find other).elim 0 weight) =
            rest.map fun other => (table.find other).elim 0 weight := by
          apply List.map_congr_left
          intro other inside
          have different : other ≠ head := fun same => fresh (same ▸ inside)
          simp [different]
        simp only [List.map_cons, List.sum_cons, unchanged, find_insert, found, Option.elim_some]
        omega
      · have later := ih nodup (by simpa [Ne.symm here] using member)
        simp only [List.map_cons, List.sum_cons, find_insert_of_ne _ _ _ _ here]
        omega
  simpa [total, keys_insert_old value found] using apart table.keys table.nodup (mem_keys_of_find found)

omit [DecidableEq κ] in
theorem weight_le_total {table : Table κ α} {key : κ} {value : α}
    (found : table.find key = some value) : weight value ≤ table.total weight := by
  have member : weight value ∈ table.keys.map fun key => (table.find key).elim 0 weight :=
    List.mem_map.mpr ⟨key, by simp [table.present, found], by simp [found]⟩
  exact List.le_sum_of_mem member

end Total

section Gather

variable {β : Type} (part : α → List β)

def gather (table : Table κ α) : List β :=
  table.keys.flatMap fun key => (table.find key).elim [] part

theorem gather_insert_new (table : Table κ α) (key : κ) (value : α)
    (absent : table.find key = none) :
    (table.insert key value).gather part = table.gather part ++ part value := by
  have unchanged : (table.keys.flatMap fun other =>
      ((table.insert key value).find other).elim [] part) = table.gather part := by
    apply List.flatMap_congr
    intro other member
    have different : other ≠ key := by
      rintro rfl
      simp [table.present, absent] at member
    rw [find_insert_of_ne _ _ _ _ different]
  rw [gather, keys_insert_new value absent, List.flatMap_append, unchanged]
  simp

theorem gather_insert_old (table : Table κ α) (key : κ) (old value : α)
    (found : table.find key = some old) :
    (table.gather part ++ part value).Perm ((table.insert key value).gather part ++ part old) := by
  have first := List.perm_cons_erase (mem_keys_of_find found)
  -- The other keys keep their parts.
  have others : ((table.keys.erase key).flatMap fun other =>
      ((table.insert key value).find other).elim [] part) =
      (table.keys.erase key).flatMap fun other => (table.find other).elim [] part := by
    apply List.flatMap_congr
    intro other member
    have different : other ≠ key := by
      rintro rfl
      exact List.Nodup.not_mem_erase table.nodup member
    rw [find_insert_of_ne _ _ _ _ different]
  have before : (table.gather part).Perm
      (part old ++ (table.keys.erase key).flatMap fun other => (table.find other).elim [] part) := by
    simpa [gather, found] using first.flatMap_right fun other => (table.find other).elim [] part
  have after : ((table.insert key value).gather part).Perm
      (part value ++ (table.keys.erase key).flatMap fun other => (table.find other).elim [] part) := by
    have whole := first.flatMap_right fun other => ((table.insert key value).find other).elim [] part
    rw [List.flatMap_cons, others] at whole
    simpa [gather, keys_insert_old value found] using whole
  apply (before.append_right _).trans
  apply List.Perm.trans _ (after.append_right _).symm
  rw [List.append_assoc]
  apply List.perm_append_comm.trans
  rw [List.append_assoc, List.append_assoc]
  exact (List.perm_append_comm_assoc _ _ _)

/-- What one value gains and loses, the table gains and loses. -/
theorem gather_insert (table : Table κ α) (key : κ) {old value : α} {gained lost : List β}
    (found : table.find key = some old)
    (moved : (part old ++ gained).Perm (part value ++ lost)) :
    (table.gather part ++ gained).Perm ((table.insert key value).gather part ++ lost) := by
  have exchanged := table.gather_insert_old part key old value found
  apply (List.perm_append_right_iff (part value)).mp
  calc ((table.gather part ++ gained) ++ part value).Perm
        (table.gather part ++ (part value ++ gained)) := by
        rw [List.append_assoc]
        exact List.perm_append_comm.append_left _
    List.Perm _ ((table.insert key value).gather part ++ (part old ++ gained)) := by
        rw [← List.append_assoc, ← List.append_assoc]
        exact exchanged.append_right _
    List.Perm _ ((table.insert key value).gather part ++ (part value ++ lost)) :=
        moved.append_left _
    List.Perm _ ((table.insert key value).gather part ++ lost ++ part value) := by
        rw [List.append_assoc]
        exact List.perm_append_comm.append_left _

end Gather

section Sweep

variable {γ ω η : Type}

/-- Visit the keys in turn, replacing each value in place and threading shared state. -/
def sweep (visit : γ → κ → α → Except η (γ × α × List ω)) :
    List κ → γ → Table κ α → Except η (γ × Table κ α × List ω)
  | [], shared, table => .ok (shared, table, [])
  | key :: rest, shared, table =>
    match table.find key with
    | none => sweep visit rest shared table
    | some value =>
      match visit shared key value with
      | .error stop => .error stop
      | .ok (next, value', emitted) =>
        match sweep visit rest next (table.insert key value') with
        | .error stop => .error stop
        | .ok (last, final, later) => .ok (last, final, emitted ++ later)

variable {visit : γ → κ → α → Except η (γ × α × List ω)}

theorem sweep_cons_ok {key : κ} {rest : List κ} {shared last : γ} {table final : Table κ α}
    {outputs : List ω} (swept : sweep visit (key :: rest) shared table = .ok (last, final, outputs)) :
    (table.find key = none ∧ sweep visit rest shared table = .ok (last, final, outputs)) ∨
      ∃ value next value' emitted later, table.find key = some value ∧
        visit shared key value = .ok (next, value', emitted) ∧
        sweep visit rest next (table.insert key value') = .ok (last, final, later) ∧
        outputs = emitted ++ later := by
  simp only [sweep] at swept
  split at swept
  · rename_i absent
    exact .inl ⟨absent, swept⟩
  · rename_i value found
    split at swept
    · cases swept
    · rename_i next value' emitted visited
      split at swept
      · cases swept
      · rename_i last' final' later continued
        cases swept
        exact .inr ⟨value, next, value', emitted, later, found, visited, continued, rfl⟩

theorem sweep_invariant (Holds : γ → Table κ α → List ω → Prop)
    (kept : ∀ shared table outputs key value next value' emitted, Holds shared table outputs →
      table.find key = some value → visit shared key value = .ok (next, value', emitted) →
      Holds next (table.insert key value') (outputs ++ emitted))
    {keys : List κ} {shared last : γ} {table final : Table κ α} {outputs : List ω}
    (prior : List ω) (start : Holds shared table prior)
    (swept : sweep visit keys shared table = .ok (last, final, outputs)) :
    Holds last final (prior ++ outputs) := by
  induction keys generalizing shared table prior outputs with
  | nil =>
    cases swept
    simpa using start
  | cons key rest ih =>
    rcases sweep_cons_ok swept with
      ⟨_, continued⟩ | ⟨value, next, value', emitted, later, found, visited, continued, rfl⟩
    · exact ih prior start continued
    · simpa using ih (prior ++ emitted) (kept _ _ _ _ _ _ _ _ start found visited) continued

theorem sweep_keys {keys : List κ} {shared last : γ} {table final : Table κ α} {outputs : List ω}
    (swept : sweep visit keys shared table = .ok (last, final, outputs)) :
    final.keys = table.keys :=
  sweep_invariant (fun _ current _ => current.keys = table.keys)
    (fun _ _ _ _ _ _ value' _ same found _ => (keys_insert_old value' found).trans same)
    [] rfl swept

theorem sweep_unvisited {keys : List κ} {shared last : γ} {table final : Table κ α}
    {outputs : List ω} (swept : sweep visit keys shared table = .ok (last, final, outputs))
    {key : κ} (outside : key ∉ keys) : final.find key = table.find key := by
  induction keys generalizing shared table outputs with
  | nil =>
    cases swept
    rfl
  | cons head rest ih =>
    have different : key ≠ head := fun same => outside (by simp [same])
    have later : key ∉ rest := fun inside => outside (by simp [inside])
    rcases sweep_cons_ok swept with
      ⟨_, continued⟩ | ⟨_, _, _, _, _, _, _, continued, rfl⟩
    · exact ih continued later
    · rw [ih continued later, find_insert_of_ne _ _ _ _ different]

def Foreign {χ : Type} (visit : γ → κ → α → Except η (γ × α × List ω)) (own : ω → Option χ)
    (key : κ) (keys : List κ) (table : Table κ α) : Prop :=
  ∀ other ∈ keys, other ≠ key → ∀ old, table.find other = some old →
    ∀ shared next new emitted, visit shared other old = .ok (next, new, emitted) →
      emitted.filterMap own = []

theorem Foreign.rest {χ : Type} {own : ω → Option χ} {key head : κ} {rest : List κ}
    {table : Table κ α} (foreign : Foreign visit own key (head :: rest) table)
    (fresh : head ∉ rest) (value : α) : Foreign visit own key rest (table.insert head value) := by
  intro other inside different old found
  have apart : other ≠ head := fun same => fresh (same ▸ inside)
  rw [find_insert_of_ne _ _ _ _ apart] at found
  exact foreign other (List.mem_cons_of_mem _ inside) different old found

theorem sweep_emits {keys : List κ} (nodup : keys.Nodup) {shared last : γ} {table final : Table κ α}
    {outputs : List ω} (swept : sweep visit keys shared table = .ok (last, final, outputs))
    {output : ω} (member : output ∈ outputs) :
    ∃ key ∈ keys, ∃ value, table.find key = some value ∧
      ∃ before after result emitted, visit before key value = .ok (after, result, emitted) ∧
        output ∈ emitted := by
  induction keys generalizing shared table outputs with
  | nil =>
    cases swept
    cases member
  | cons head rest ih =>
    obtain ⟨fresh, nodup⟩ := List.nodup_cons.mp nodup
    rcases sweep_cons_ok swept with
      ⟨_, continued⟩ | ⟨old, next, new, emitted, later, found, visited, continued, rfl⟩
    · obtain ⟨key, inside, found⟩ := ih nodup continued member
      exact ⟨key, List.mem_cons_of_mem _ inside, found⟩
    · rcases List.mem_append.mp member with first | others
      · exact ⟨head, by simp, old, found, _, _, _, emitted, visited, first⟩
      · obtain ⟨key, inside, value, foundLater, visits⟩ := ih nodup continued others
        have apart : key ≠ head := fun same => fresh (same ▸ inside)
        rw [find_insert_of_ne _ _ _ _ apart] at foundLater
        exact ⟨key, List.mem_cons_of_mem _ inside, value, foundLater, visits⟩

theorem sweep_foreign {χ : Type} {key : κ} {own : ω → Option χ} {keys : List κ}
    (nodup : keys.Nodup) {shared last : γ} {table final : Table κ α} {outputs : List ω}
    (foreign : Foreign visit own key keys table) (outside : key ∉ keys)
    (swept : sweep visit keys shared table = .ok (last, final, outputs)) :
    outputs.filterMap own = [] := by
  apply List.filterMap_eq_nil_iff.mpr
  intro output member
  obtain ⟨other, inside, value, found, _, _, _, emitted, visited, emits⟩ :=
    sweep_emits nodup swept member
  have different : other ≠ key := fun same => outside (same ▸ inside)
  exact List.filterMap_eq_nil_iff.mp (foreign other inside different value found _ _ _ _ visited)
    output emits

/-- A sweep visits a key exactly once, and the outputs that belong to the key are that visit's. -/
theorem sweep_visited {χ : Type} {key : κ} {own : ω → Option χ} {keys : List κ}
    (nodup : keys.Nodup) {shared last : γ} {table final : Table κ α} {outputs : List ω}
    (foreign : Foreign visit own key keys table)
    (swept : sweep visit keys shared table = .ok (last, final, outputs))
    {value : α} (inside : key ∈ keys) (found : table.find key = some value) :
    ∃ before after result emitted, visit before key value = .ok (after, result, emitted) ∧
      final.find key = some result ∧ outputs.filterMap own = emitted.filterMap own := by
  induction keys generalizing shared table outputs with
  | nil => simp at inside
  | cons head rest ih =>
    obtain ⟨fresh, distinct⟩ := List.nodup_cons.mp nodup
    rcases sweep_cons_ok swept with
      ⟨absent, continued⟩ | ⟨old, next, new, emitted, later, foundHead, visited, continued, rfl⟩
    · have different : key ≠ head := by
        intro same
        rw [← same, found] at absent
        cases absent
      exact ih distinct (fun other inside => foreign other (by simp [inside])) continued
        (by simpa [different] using inside) found
    · by_cases here : key = head
      · subst here
        obtain rfl : old = value := by simpa [foundHead] using found
        refine ⟨shared, next, new, emitted, visited, ?_, ?_⟩
        · rw [sweep_unvisited continued fresh, find_insert]
        · rw [List.filterMap_append, sweep_foreign distinct (foreign.rest fresh new) fresh continued,
            List.append_nil]
      · have foundLater : (table.insert head new).find key = some value := by
          rw [find_insert_of_ne _ _ _ _ here, found]
        obtain ⟨before, after, result, own', visited', found', same⟩ :=
          ih distinct (foreign.rest fresh new) continued (by simpa [here] using inside) foundLater
        refine ⟨before, after, result, own', visited', found', ?_⟩
        rw [List.filterMap_append,
          foreign head (by simp) (Ne.symm here) old foundHead _ _ _ _ visited, List.nil_append, same]

theorem sweep_still (keys : List κ) (shared : γ) (table : Table κ α)
    (still : ∀ key ∈ keys, ∀ value, table.find key = some value →
      visit shared key value = .ok (shared, value, [])) :
    sweep visit keys shared table = .ok (shared, table, []) := by
  induction keys with
  | nil => rfl
  | cons key rest ih =>
    have later := ih fun other inside => still other (by simp [inside])
    cases found : table.find key with
    | none => simp [sweep, found, later]
    | some value =>
      have here := still key (by simp) value found
      simp [sweep, found, here, insert_found found, later]

theorem sweep_total {keys : List κ} (nodup : keys.Nodup) (shared : γ) (table : Table κ α)
    (visits : ∀ key ∈ keys, ∀ value, table.find key = some value →
      ∀ shared, ∃ answer, visit shared key value = .ok answer) :
    ∃ answer, sweep visit keys shared table = .ok answer := by
  induction keys generalizing shared table with
  | nil => exact ⟨_, rfl⟩
  | cons key rest ih =>
    obtain ⟨fresh, nodup⟩ := List.nodup_cons.mp nodup
    cases found : table.find key with
    | none =>
      obtain ⟨answer, swept⟩ := ih nodup shared table fun other inside => visits other (by simp [inside])
      exact ⟨answer, by simp [sweep, found, swept]⟩
    | some value =>
      obtain ⟨⟨next, value', emitted⟩, visited⟩ := visits key (by simp) value found shared
      obtain ⟨⟨last, final, later⟩, swept⟩ := ih nodup next (table.insert key value') (by
        intro other inside old foundOther
        have different : other ≠ key := fun same => fresh (same ▸ inside)
        rw [find_insert_of_ne _ _ _ _ different] at foundOther
        exact visits other (by simp [inside]) old foundOther)
      exact ⟨(last, final, emitted ++ later), by simp [sweep, found, visited, swept]⟩

end Sweep

end Table
