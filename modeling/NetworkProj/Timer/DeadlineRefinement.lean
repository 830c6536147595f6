import NetworkProj.Shared.DeltaList
import NetworkProj.Model.Timer

set_option autoImplicit false

namespace NetworkProj.Timer

open DeltaList

abbrev TimerItem : Type := SockAddr × TimerExpired

/-- The reference machine keeps one remaining time for each key, in insertion order. -/
abbrev Deadlines : Type := List (TimerItem × Rat)

def deadlineRequest (table : Deadlines) : Option (TimerRequest × SockAddr) → Deadlines
  | none => table
  | some (request, requestAddr) =>
    let key : TimerExpired := ⟨request.session, request.seqNum⟩
    match request.type with
    | .start =>
      if table.any (fun entry => entry.1.2 = key) then table
      else table ++ [((requestAddr, key), request.seconds)]
    | .cancel => table.filter fun entry => entry.1.2 ≠ key

def deadlineRound (table : Deadlines) (round : TimerRound) : Deadlines × List TimerItem :=
  let table := deadlineRequest (table.map fun entry => (entry.1, entry.2 - round.elapsedSeconds))
    round.request
  (table.filter fun entry => 0 < entry.2,
    ((byDeadline table).filter fun entry => entry.2 ≤ 0).map Prod.fst)

def deadlineStep : Machine.Step Deadlines TimerRound TimerItem Stop :=
  fun table round => .ok (deadlineRound table round)

section Entries

def entry (node : TimerNode) : TimerItem × Rat :=
  ((node.requestAddr, node.expired), node.remainSeconds)

def entries (list : List TimerNode) : List (TimerItem × Rat) :=
  list.map entry

theorem entries_insertNode (now : TimerNode) (list : List TimerNode) :
    entries (insertNode now list) =
      insertDelta (now.requestAddr, now.expired) now.remainSeconds (entries list) := by
  induction list generalizing now with
  | nil => rfl
  | cons l rest ih =>
    by_cases before : now.remainSeconds < l.remainSeconds
    · simp [insertNode, before, entries, entry, insertDelta, TimerNode.expired]
    · have later := ih { now with remainSeconds := now.remainSeconds - l.remainSeconds }
      simpa [insertNode, before, entries, entry, insertDelta, TimerNode.expired] using later

theorem named_iff (session seqNum : Int32) (node : TimerNode) :
    node.named session seqNum = decide (node.expired = ⟨session, seqNum⟩) := by
  rw [Bool.eq_iff_iff]
  simp [TimerNode.named, TimerNode.expired]

theorem entries_cancelNode (session seqNum : Int32) (list : List TimerNode) :
    entries (cancelNode session seqNum list) =
      remove (fun item => item.2 = ⟨session, seqNum⟩) (entries list) := by
  induction list with
  | nil => rfl
  | cons l rest ih =>
    by_cases here : l.expired = ⟨session, seqNum⟩
    · cases rest with
      | nil => simp [cancelNode, named_iff, here, entries, entry, remove]
      | cons next others =>
        simp only [cancelNode, named_iff, here, decide_true, if_true, entries, List.map_cons, entry,
          remove]
        rfl
    · simpa [cancelNode, named_iff, here, entries, entry, remove] using ih

theorem entries_carryOver (leftover : Rat) (list : List TimerNode) :
    entries (carryOver leftover list) = carry leftover (entries list) := by
  induction list generalizing leftover with
  | nil => rfl
  | cons l rest ih =>
    by_cases ahead : 0 < l.remainSeconds + leftover
    · simp [carryOver, ahead, entries, entry, carry, TimerNode.expired]
    · simpa [carryOver, ahead, entries, entry, carry, TimerNode.expired] using ih _

theorem entries_sendCallbacks (list : List TimerNode) :
    entries (sendCallbacks list).1 = (popDue (entries list)).1 ∧
      (sendCallbacks list).2 = (popDue (entries list)).2 := by
  induction list with
  | nil => exact ⟨rfl, rfl⟩
  | cons l rest ih =>
    by_cases ahead : 0 < l.remainSeconds
    · simp [sendCallbacks, ahead, entries, entry, popDue]
    · simpa [sendCallbacks, ahead, entries, entry, popDue] using ih

end Entries

section Refinement

def ValidRound (round : TimerRound) : Prop :=
  0 ≤ round.elapsedSeconds ∧
    ∀ request requestAddr, round.request = some (request, requestAddr) → request.type = .start →
      0 ≤ request.seconds ∧ request.seconds < 2 ^ 32

structure Refines (list : List TimerNode) (table : Deadlines) : Prop where
  nonneg : Nonneg (entries list)
  first : ∀ node ∈ list.head?, 0 < node.remainSeconds
  times : absolute 0 (entries list) = byDeadline table
  keys : (table.map fun entry => entry.1.2).Nodup
  bounded : ∀ entry ∈ table, entry.2 < 2 ^ 32

theorem any_named_iff {list : List TimerNode} {table : Deadlines}
    (tracks : Tracks (entries list) table) (session seqNum : Int32) :
    list.any (TimerNode.named session seqNum) =
      table.any fun entry => entry.1.2 = ⟨session, seqNum⟩ := by
  have items : list.map TimerNode.expired = (byDeadline table).map fun entry => entry.1.2 := by
    have same := congrArg (List.map Prod.snd) (absolute_items 0 (entries list))
    rw [tracks.times] at same
    simpa [entries, entry, Function.comp_def] using same.symm
  rw [Bool.eq_iff_iff, List.any_eq_true, List.any_eq_true]
  constructor
  · rintro ⟨node, member, named⟩
    rw [named_iff, decide_eq_true_eq] at named
    have inside : node.expired ∈ list.map TimerNode.expired := List.mem_map_of_mem member
    rw [items] at inside
    obtain ⟨entry, present, same⟩ := List.mem_map.mp inside
    exact ⟨entry, (byDeadline_perm table).mem_iff.mp present, by simp [same, named]⟩
  · rintro ⟨entry, present, same⟩
    have inside : entry.1.2 ∈ (byDeadline table).map fun entry => entry.1.2 :=
      List.mem_map_of_mem ((byDeadline_perm table).mem_iff.mpr present)
    rw [← items] at inside
    obtain ⟨node, member, expired⟩ := List.mem_map.mp inside
    exact ⟨node, member, by rw [named_iff, expired]; exact same⟩

theorem request_tracks {list : List TimerNode} {table : Deadlines}
    (tracks : Tracks (entries list) table) (keys : (table.map fun entry => entry.1.2).Nodup)
    (bounded : ∀ entry ∈ table, entry.2 < 2 ^ 32) (request : Option (TimerRequest × SockAddr))
    (valid : ∀ body requestAddr, request = some (body, requestAddr) → body.type = .start →
      0 ≤ body.seconds ∧ body.seconds < 2 ^ 32) :
    Tracks (entries (receiveRequest list request)) (deadlineRequest table request) ∧
      ((deadlineRequest table request).map fun entry => entry.1.2).Nodup ∧
      ∀ entry ∈ deadlineRequest table request, entry.2 < 2 ^ 32 := by
  rcases request with _ | ⟨body, requestAddr⟩
  · exact ⟨tracks, keys, bounded⟩
  · cases kind : body.type with
    | start =>
      obtain ⟨start, limit⟩ := valid body requestAddr rfl kind
      simp only [receiveRequest, deadlineRequest, kind, insertRequest,
        any_named_iff tracks body.session body.seqNum]
      split
      · exact ⟨tracks, keys, bounded⟩
      · rename_i absent
        refine ⟨?_, ?_, ?_⟩
        · rw [entries_insertNode]
          exact tracks_insertDelta _ start tracks
        · have fresh : (⟨body.session, body.seqNum⟩ : TimerExpired) ∉
              table.map fun entry => entry.1.2 := by
            rintro member
            obtain ⟨entry, present, same⟩ := List.mem_map.mp member
            exact absent (List.any_eq_true.mpr ⟨entry, present, by simp [same]⟩)
          rw [List.map_append]
          exact List.nodup_append.mpr ⟨keys, by simp, by
            rintro old member _ (_ | ⟨_, ⟨⟩⟩) rfl
            exact fresh member⟩
        · intro entry member
          rcases List.mem_append.mp member with old | new
          · exact bounded entry old
          · obtain rfl := List.mem_singleton.mp new
            exact limit
    | cancel =>
      simp only [receiveRequest, deadlineRequest, kind, cancelRequest]
      refine ⟨?_, ?_, ?_⟩
      · rw [entries_cancelNode]
        exact tracks_remove Prod.snd _ keys tracks
      · exact keys.sublist (List.filter_sublist.map _)
      · exact fun entry member => bounded entry (List.mem_of_mem_filter member)

theorem round_refines {list : List TimerNode} {table : Deadlines} (refines : Refines list table)
    (round : TimerRound) (valid : ValidRound round) :
    (timerRound list round).2 = (deadlineRound table round).2 ∧
      Refines (timerRound list round).1 (deadlineRound table round).1 := by
  obtain ⟨elapsed, requests⟩ := valid
  have updated : Tracks (entries (updateTimerList round.elapsedSeconds list))
      (table.map fun entry => (entry.1, entry.2 - round.elapsedSeconds)) := by
    rw [updateTimerList, entries_carryOver]
    exact tracks_advance _ refines.nonneg refines.times
  have keys : ((table.map fun entry => (entry.1, entry.2 - round.elapsedSeconds)).map
      fun entry => entry.1.2).Nodup := by
    simpa [Function.comp_def] using refines.keys
  have bounded : ∀ entry ∈ table.map fun entry => (entry.1, entry.2 - round.elapsedSeconds),
      entry.2 < 2 ^ 32 := by
    intro entry member
    obtain ⟨old, present, rfl⟩ := List.mem_map.mp member
    have limit := refines.bounded old present
    simp only
    linarith
  obtain ⟨tracks, keys, bounded⟩ := request_tracks updated keys bounded round.request requests
  obtain ⟨kept, sent⟩ := entries_sendCallbacks
    (receiveRequest (updateTimerList round.elapsedSeconds list) round.request)
  obtain ⟨times, due⟩ := tracks_fire tracks
  constructor
  · exact sent.trans due
  · constructor
    · show Nonneg (entries (sendCallbacks _).1)
      rw [kept]
      exact popDue_nonneg tracks.nonneg
    · intro node member
      have first := popDue_first_pos
        (entries (receiveRequest (updateTimerList round.elapsedSeconds list) round.request)) (entry node)
      rw [← kept] at first
      exact first (by
        simp only [entries, List.head?_map, Option.mem_def, Option.map_eq_some_iff]
        exact ⟨node, member, rfl⟩)
    · show absolute 0 (entries (sendCallbacks _).1) = _
      rw [kept]
      exact times
    · exact keys.sublist (List.filter_sublist.map _)
    · exact fun entry member => bounded entry (List.mem_of_mem_filter member)

/-- The timeout that `select` waits for: no longer than the first node has left, and shorter by
less than a microsecond. -/
structure SleepsUntil (first : TimerNode) (sec usec : Nat) : Prop where
  fraction : usec < 1000000
  early : (sec : Rat) + usec / 1000000 ≤ first.remainSeconds
  prompt : first.remainSeconds < (sec : Rat) + (usec + 1) / 1000000

theorem toUnsigned_floor (value : Rat) (nonneg : 0 ≤ value) (bound : value < 2 ^ 32) :
    ∃ whole : Nat, toUnsigned value = some whole ∧ (whole : Rat) ≤ value ∧ value < whole + 1 := by
  have floorNonneg : 0 ≤ value.floor := Rat.le_floor_iff.mpr (by simpa using nonneg)
  have cast : ((value.floor.toNat : Nat) : Rat) = (value.floor : Rat) := by
    exact_mod_cast congrArg (Int.cast : Int → Rat) (Int.toNat_of_nonneg floorNonneg)
  have above := Rat.lt_floor_add_one value
  push_cast at above
  refine ⟨value.floor.toNat, by simp [toUnsigned, nonneg, bound], ?_, ?_⟩
  · rw [cast]
    exact Rat.floor_le value
  · rw [cast]
    exact above

theorem sleepTime_first {first : TimerNode} {rest : List TimerNode}
    (nonneg : 0 ≤ first.remainSeconds) (bound : first.remainSeconds < 2 ^ 32) :
    ∃ sec usec, sleepTime (first :: rest) = some (sec, usec) ∧ SleepsUntil first sec usec := by
  obtain ⟨sec, seconds, secLe, ltSec⟩ := toUnsigned_floor first.remainSeconds nonneg bound
  obtain ⟨usec, micros, usecLe, ltUsec⟩ := toUnsigned_floor
    (sec2Usec * (first.remainSeconds - sec)) (by unfold sec2Usec; linarith) (by unfold sec2Usec; linarith)
  unfold sec2Usec at usecLe ltUsec
  refine ⟨sec, usec, by simp [sleepTime, seconds, micros], ?_, ?_, ?_⟩
  · have limit : (usec : Rat) < 1000000 := by linarith
    exact_mod_cast limit
  · linarith
  · linarith

theorem exec_refines {list : List TimerNode} {table : Deadlines} (refines : Refines list table)
    (rounds : List TimerRound) (valid : ∀ round ∈ rounds, ValidRound round) :
    ∃ list' table' history, Machine.exec timerStep list rounds = .ok (list', history) ∧
      Machine.exec deadlineStep table rounds = .ok (table', history) ∧ Refines list' table' := by
  induction rounds generalizing list table with
  | nil => exact ⟨list, table, [], rfl, rfl, refines⟩
  | cons round rest ih =>
    obtain ⟨sent, next⟩ := round_refines refines round (valid round (by simp))
    obtain ⟨list', table', history, timer, deadlines, final⟩ :=
      ih next fun later member => valid later (by simp [member])
    refine ⟨list', table', (round, (timerRound list round).2) :: history, ?_, ?_, final⟩
    · exact Machine.exec_cons rfl timer
    · rw [sent]
      exact Machine.exec_cons rfl deadlines

theorem insertRequest_rejected {list : List TimerNode} {request : TimerRequest}
    (duplicate : list.any (TimerNode.named request.session request.seqNum)) (addr : SockAddr) :
    insertRequest list request addr = list := by
  simp [insertRequest, duplicate]

theorem cancelRequest_unknown {list : List TimerNode} {request : TimerRequest}
    (unknown : ¬ list.any (TimerNode.named request.session request.seqNum)) :
    cancelRequest list request = list := by
  unfold cancelRequest
  induction list with
  | nil => rfl
  | cons l rest ih =>
    simp only [List.any_cons, Bool.or_eq_true, not_or] at unknown
    simp [cancelNode, unknown.1, ih unknown.2]

/-- The delta list sends in every pass of the main loop what the table of deadlines sends, and at
every loop head the timeout for `select` can be taken from the first node. -/
theorem timer_refines_deadlines (rounds : List TimerRound)
    (valid : ∀ round ∈ rounds, ValidRound round) :
    ∃ list table history, Machine.exec timerStep [] rounds = .ok (list, history) ∧
      Machine.exec deadlineStep [] rounds = .ok (table, history) ∧
      absolute 0 (entries list) = byDeadline table ∧
      (∀ node ∈ list, 0 ≤ node.remainSeconds) ∧
      (∀ first rest, list = first :: rest → 0 < first.remainSeconds ∧
        ∃ sec usec, sleepTime list = some (sec, usec) ∧ SleepsUntil first sec usec) ∧
      (∀ list request addr, list.any (TimerNode.named request.session request.seqNum) →
        insertRequest list request addr = list) ∧
      ∀ list request, ¬ list.any (TimerNode.named request.session request.seqNum) →
        cancelRequest list request = list := by
  have start : Refines [] [] :=
    { nonneg := by simp [Nonneg, entries]
      first := by simp
      times := rfl
      keys := .nil
      bounded := by simp }
  obtain ⟨list, table, history, timer, deadlines, refines⟩ := exec_refines start rounds valid
  refine ⟨list, table, history, timer, deadlines, refines.times, ?_, ?_,
    fun _ _ addr duplicate => insertRequest_rejected duplicate addr,
    fun _ _ unknown => cancelRequest_unknown unknown⟩
  · intro node member
    exact refines.nonneg (entry node) (List.mem_map_of_mem member)
  · rintro first rest rfl
    have ahead : 0 < first.remainSeconds := refines.first first (by simp)
    have inside : ((first.requestAddr, first.expired), 0 + first.remainSeconds) ∈ byDeadline table := by
      rw [← refines.times]
      simp [entries, entry, absolute]
    have bound := refines.bounded _ ((byDeadline_perm table).mem_iff.mp inside)
    exact ⟨ahead, sleepTime_first ahead.le (by simpa using bound)⟩

-- The requests of `driver.c` with its two pauses, and the passes in which the timers run out.
def driverRounds : List TimerRound :=
  let request (elapsed : Rat) (type : TimerRequestType) (seqNum : Int32) (seconds : Rat) : TimerRound :=
    ⟨elapsed, some (⟨type, 7, seqNum, seconds⟩, default)⟩
  [request 0 .start 1 20, request 0 .start 2 10, request 0 .start 3 30,
    request 5 .cancel 2 0, request 0 .start 4 20, request 5 .start 5 18,
    request 0 .cancel 4 0, request 0 .cancel 8 0, ⟨10, none⟩, ⟨8, none⟩, ⟨2, none⟩]

theorem timer_refines_deadlines_driver :
    ∃ list table history, Machine.exec timerStep [] driverRounds = .ok (list, history) ∧
      Machine.exec deadlineStep [] driverRounds = .ok (table, history) ∧
      absolute 0 (entries list) = byDeadline table ∧
      (∀ node ∈ list, 0 ≤ node.remainSeconds) ∧
      (∀ first rest, list = first :: rest → 0 < first.remainSeconds ∧
        ∃ sec usec, sleepTime list = some (sec, usec) ∧ SleepsUntil first sec usec) ∧
      (∀ list request addr, list.any (TimerNode.named request.session request.seqNum) →
        insertRequest list request addr = list) ∧
      ∀ list request, ¬ list.any (TimerNode.named request.session request.seqNum) →
        cancelRequest list request = list :=
  timer_refines_deadlines driverRounds (by simp [driverRounds, ValidRound]; norm_num)

example : ((Machine.exec timerStep [] driverRounds).toOption.map fun result =>
    result.2.map fun (_, sent) => sent.map fun item => item.2.seqNum) =
      some [[], [], [], [], [], [], [], [], [1], [5], [3]] := by
  decide +kernel

end Refinement

end NetworkProj.Timer
