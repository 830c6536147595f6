import Mathlib.Tactic.NormNum
import Mathlib.Tactic.Ring
import NetworkProj.Shared.Jacobson
import NetworkProj.Sender.Moves

set_option autoImplicit false

namespace NetworkProj.Sending

section Readings

/-- What changes the estimator: the clock is read for an ack that comes in and for a package that
is sent. -/
inductive Reading where
  | ack (now : TimeVal)
  | send (now : TimeVal)

def read (estimator : Estimator) : Reading → Estimator
  | .ack now => estimator.acked now
  | .send now => estimator.sent now

def iterations : Estimator → List Reading → List Estimator
  | _, [] => []
  | estimator, .ack now :: rest => iterations (estimator.acked now) rest
  | estimator, .send now :: rest => estimator.sent now :: iterations (estimator.sent now) rest

def sampleOf (estimator : Estimator) : Rat :=
  if estimator.elapsedSeconds ≤ 0 then 1 / 100 else estimator.elapsedSeconds

def samples : Estimator → List Reading → List Rat
  | _, [] => []
  | estimator, .ack now :: rest => samples (estimator.acked now) rest
  | estimator, .send now :: rest => sampleOf estimator :: samples (estimator.sent now) rest

theorem iterations_append (estimator : Estimator) (left right : List Reading) :
    iterations estimator (left ++ right) =
      iterations estimator left ++ iterations (left.foldl read estimator) right := by
  induction left generalizing estimator with
  | nil => rfl
  | cons reading rest ih =>
    cases reading with
    | ack now => exact ih _
    | send now => exact congrArg (estimator.sent now :: ·) (ih _)

def previous (estimator : Estimator) : Estimate where
  rtt := estimator.estimatedRTTprev
  dev := estimator.estimatedDEVprev

theorem previous_sent (estimator : Estimator) (now : TimeVal) :
    previous (estimator.sent now) = (previous estimator).next intAbs (sampleOf estimator) := by
  simp only [previous, Estimator.sent, Estimate.next, sampleOf, Estimate.mk.injEq]
  constructor
  · norm_num
  · norm_num

theorem iterations_previous (estimator : Estimator) (readings : List Reading) :
    (iterations estimator readings).map previous =
      (previous estimator).estimates intAbs (samples estimator readings) := by
  induction readings generalizing estimator with
  | nil => rfl
  | cons reading rest ih =>
    cases reading with
    | ack now => exact ih (estimator.acked now)
    | send now =>
      simp only [iterations, samples, List.map_cons, Estimate.estimates, ih, previous_sent]

theorem iterations_timeouts (estimator : Estimator) (readings : List Reading) :
    (iterations estimator readings).map Estimator.estimatedRTO =
      (previous estimator).timeouts intAbs (samples estimator readings) := by
  induction readings generalizing estimator with
  | nil => rfl
  | cons reading rest ih =>
    cases reading with
    | ack now => exact ih (estimator.acked now)
    | send now =>
      simp only [iterations, samples, List.map_cons, Estimate.timeouts, ih, previous_sent]
      rfl

def sendReadings (clock : Nat → TimeVal) (first count : Nat) : List Reading :=
  (List.range' first count).map fun index => .send (clock index)

theorem sendReadings_append (clock : Nat → TimeVal) (first left right : Nat) :
    sendReadings clock first (left + right) =
      sendReadings clock first left ++ sendReadings clock (first + left) right := by
  simp [sendReadings, ← List.range'_append_1]

theorem sendReadings_succ (clock : Nat → TimeVal) (first count : Nat) :
    sendReadings clock first (count + 1) =
      .send (clock first) :: sendReadings clock (first + 1) count := by
  simp [sendReadings, List.range'_succ]

theorem length_iterations (estimator : Estimator) (clock : Nat → TimeVal) (first count : Nat) :
    (iterations estimator (sendReadings clock first count)).length = count := by
  induction count generalizing estimator first with
  | zero => rfl
  | succ count ih => rw [sendReadings_succ, iterations, List.length_cons, ih]

end Readings

section Callback

def startSeconds : SenderEffect → Option Rat
  | .timer request => if request.type = .start then some request.seconds else none
  | _ => none

theorem sendPending_estimator (clock : Nat → TimeVal) (sockfd : Int32) (limit : UInt32)
    (shared : SendShared) (packages : List TrollMessage) :
    ∃ count, (sendPending clock sockfd limit shared packages).1 =
        ((sendReadings clock shared.2 count).foldl read shared.1, shared.2 + count) ∧
      (sendPending clock sockfd limit shared packages).2.2.2.filterMap startSeconds =
        (iterations shared.1 (sendReadings clock shared.2 count)).map Estimator.estimatedRTO := by
  induction packages generalizing shared with
  | nil => exact ⟨0, rfl, rfl⟩
  | cons now rest ih =>
    by_cases outside : now.seqNum ≥ limit
    · simpa only [sendPending, outside, if_true] using ih shared
    · obtain ⟨count, estimator, starts⟩ := ih (shared.1.sent (clock shared.2), shared.2 + 1)
      have first := sendReadings_succ clock shared.2 count
      refine ⟨count + 1, ?_, ?_⟩
      · simp only [sendPending, outside, if_false, estimator, first, List.foldl_cons, read]
        rw [Nat.add_right_comm, Nat.add_assoc]
      · simp only [sendPending, outside, if_false, first, iterations, List.map_cons,
          List.filterMap_cons, startSeconds, starts]
        rfl

theorem solveSend_estimator {order : IterOrder Int32} {state state' : Sender}
    {clock : Nat → TimeVal} {effects : List SenderEffect}
    (ran : solveSendCallback order state clock = .ok (state', effects)) :
    ∃ count, state'.estimator = (sendReadings clock 0 count).foldl read state.estimator ∧
      effects.filterMap startSeconds =
        (iterations state.estimator (sendReadings clock 0 count)).map Estimator.estimatedRTO := by
  obtain ⟨shared, sockets, swept, rfl⟩ := solveSend_swept ran
  have whole := Table.sweep_invariant (fun (shared : SendShared) _ effects =>
      shared.1 = (sendReadings clock 0 shared.2).foldl read state.estimator ∧
      effects.filterMap startSeconds =
        (iterations state.estimator (sendReadings clock 0 shared.2)).map Estimator.estimatedRTO)
    (by
      rintro before table effects sockfd sock after final emitted ⟨estimator, starts⟩ found visited
      obtain ⟨count, counted, sent⟩ := sendPending_estimator clock sock.socketFD (limitOf sock)
        before sock.pendingPackages
      have moved : after = (solveSendSocket clock before sock).1 :=
        (congrArg Prod.fst (Except.ok.inj visited)).symm
      have here : after = ((sendReadings clock before.2 count).foldl read before.1,
        before.2 + count) := moved.trans counted
      have said : emitted.filterMap startSeconds =
          (iterations before.1 (sendReadings clock before.2 count)).map Estimator.estimatedRTO := by
        rw [(visitSocket_ok visited).2]
        exact sent
      have longer := sendReadings_append clock 0 before.2 count
      rw [Nat.zero_add] at longer
      subst here
      constructor
      · simp only [longer, List.foldl_append, ← estimator]
      · simp only [longer, iterations_append, List.map_append, List.filterMap_append, starts, said,
          ← estimator])
    [] ⟨rfl, rfl⟩ swept
  exact ⟨shared.2, whole⟩

end Callback

section Runs

def readingsOf : SenderEvent × List SenderEffect → List Reading
  | (.ack _ _ now, _) => [.ack now]
  | (.solveSend clock, emitted) => sendReadings clock 0 (emitted.filterMap startSeconds).length
  | _ => []

def readings (history : Machine.History SenderEvent SenderEffect) : List Reading :=
  history.flatMap readingsOf

def startTimeouts (history : Machine.History SenderEvent SenderEffect) : List Rat :=
  (Machine.outputs history).filterMap startSeconds

theorem freeAcked_estimator (state : Sender) (sockfd : Int32) (sock : ConnectedSocket)
    (ack : TrollAck) : (freeAcked state sockfd sock ack).1.estimator = state.estimator ∧
      (freeAcked state sockfd sock ack).2.filterMap startSeconds = [] := by
  unfold freeAcked
  split
  · exact ⟨rfl, rfl⟩
  · exact ⟨rfl, rfl⟩

theorem step_estimator {order : IterOrder Int32} {state state' : Sender} {event : SenderEvent}
    {emitted : List SenderEffect} (taken : Sender.step order state event = .ok (state', emitted)) :
    state'.estimator = (readingsOf (event, emitted)).foldl read state.estimator ∧
      emitted.filterMap startSeconds =
        (iterations state.estimator (readingsOf (event, emitted))).map Estimator.estimatedRTO := by
  cases event with
  | connect front sockfd addr rand | send front sockfd len buf malloc | expired expired =>
    cases step_move taken <;> exact ⟨rfl, rfl⟩
  | ack sockfd ack now =>
    simp only [Sender.step, recvAck] at taken
    split at taken
    · cases taken
    next sock found =>
      split at taken
      next intact =>
        obtain ⟨estimator, silent⟩ :=
          freeAcked_estimator { state with estimator := state.estimator.acked now } sockfd sock ack
        rw [Except.ok.inj taken] at estimator silent
        exact ⟨estimator, silent⟩
      next damaged =>
        cases taken
        exact ⟨rfl, rfl⟩
  | solveSend clock =>
    obtain ⟨count, estimator, starts⟩ := solveSend_estimator taken
    have counted : (emitted.filterMap startSeconds).length = count := by
      rw [starts, List.length_map, length_iterations]
    rw [readingsOf, counted]
    exact ⟨estimator, starts⟩

theorem run_estimator {order : IterOrder Int32}
    {history : Machine.History SenderEvent SenderEffect} {state : Sender}
    (run : Machine.Run (Sender.step order) .initial history state) :
    state.estimator = (readings history).foldl read .initial ∧
      startTimeouts history =
        (iterations .initial (readings history)).map Estimator.estimatedRTO := by
  induction run with
  | start => exact ⟨rfl, rfl⟩
  | next event state' emitted before taken ih =>
    obtain ⟨estimator, starts⟩ := ih
    obtain ⟨estimator', starts'⟩ := step_estimator taken
    constructor
    · simp only [readings, List.flatMap_append, List.foldl_append] at estimator ⊢
      simpa [← estimator] using estimator'
    · simp only [readings, startTimeouts, List.flatMap_append, Machine.outputs_append,
        List.filterMap_append, iterations_append, List.map_append] at estimator starts ⊢
      simpa [← estimator, starts] using starts'

/-- A difference that the conversion to `int` and `abs` keep. -/
def Whole (deviation : Rat) : Prop :=
  ∃ seconds : Nat, seconds < 2 ^ 31 ∧ |deviation| = seconds

theorem intAbs_intCast {whole : Int} (inside : whole.natAbs < 2 ^ 31) :
    intAbs whole = |(whole : Rat)| := by
  have truncated : (if (0 : Rat) ≤ whole then (whole : Rat).floor else (whole : Rat).ceil) = whole := by
    split
    · exact Rat.floor_intCast whole
    · exact Rat.ceil_intCast whole
  simp only [intAbs, truncated, inside, if_true, Nat.cast_natAbs, Int.cast_abs]

theorem intAbs_eq_abs_iff (deviation : Rat) : intAbs deviation = |deviation| ↔ Whole deviation := by
  constructor
  · intro same
    simp only [intAbs] at same
    generalize (if 0 ≤ deviation then deviation.floor else deviation.ceil) = truncated at same
    by_cases inside : truncated.natAbs < 2 ^ 31
    · rw [if_pos inside] at same
      exact ⟨_, inside, same.symm⟩
    · have positive := abs_nonneg deviation
      rw [← same, if_neg inside] at positive
      norm_num at positive
  · rintro ⟨seconds, inside, whole⟩
    rcases abs_choice deviation with positive | negative
    · have exactly : deviation = (seconds : Int) := by rw [← positive, whole, Int.cast_natCast]
      rw [exactly]
      exact intAbs_intCast (by simpa using inside)
    · have exactly : deviation = (-seconds : Int) := by
        rw [Int.cast_neg, Int.cast_natCast, ← whole, negative, neg_neg]
      rw [exactly]
      exact intAbs_intCast (by simpa using inside)

def firstEstimate : Estimate where
  rtt := 1 / 100
  dev := 1 / 100

theorem iterations_jacobson_iff (readings : List Reading) :
    (iterations .initial readings).map previous =
        firstEstimate.estimates abs (samples .initial readings) ↔
      ∀ deviation ∈ Estimate.deviations firstEstimate.rtt (samples .initial readings),
        Whole deviation := by
  have agree := Estimate.estimates_eq_iff intAbs abs firstEstimate (samples .initial readings)
  simp only [intAbs_eq_abs_iff] at agree
  rw [← agree, iterations_previous]
  rfl

theorem timeout_recurrence {order : IterOrder Int32}
    {history : Machine.History SenderEvent SenderEffect} {state : Sender}
    (run : Machine.Run (Sender.step order) .initial history state) :
    state.estimator = (readings history).foldl read .initial ∧
      ((iterations .initial (readings history)).map previous =
            firstEstimate.estimates abs (samples .initial (readings history)) ∧
          startTimeouts history =
            firstEstimate.timeouts abs (samples .initial (readings history)) ↔
        ∀ deviation ∈ Estimate.deviations firstEstimate.rtt (samples .initial (readings history)),
          Whole deviation) := by
  obtain ⟨estimator, starts⟩ := run_estimator run
  refine ⟨estimator, ?_⟩
  constructor
  · rintro ⟨same, _⟩
    exact (iterations_jacobson_iff (readings history)).mp same
  · intro whole
    refine ⟨(iterations_jacobson_iff (readings history)).mpr whole, ?_⟩
    rw [starts, iterations_timeouts]
    apply Estimate.timeouts_congr
    intro deviation member
    exact (intAbs_eq_abs_iff deviation).mpr (whole deviation member)

/-- Each ack comes exactly one second later than estimated. -/
def wholeSeconds : List Reading :=
  [.send ⟨100, 0⟩, .ack ⟨101, 10000⟩, .send ⟨102, 0⟩, .ack ⟨103, 135000⟩, .send ⟨104, 0⟩]

theorem timeout_recurrence_seconds :
    ∃ history state, Machine.Run (Sender.step (.insertion Int32)) .initial history state ∧
      readings history = wholeSeconds ∧ startTimeouts history = [1 / 20, 1 / 25, 463 / 400] := by
  have run : Machine.Run (Sender.step (.insertion Int32)) .initial [] .initial := .start
  have run := run.next (.connect default 5 default 7) _ _ rfl
  have run := run.next (.send default 5 1 default default) _ _ rfl
  have run := run.next (.solveSend fun _ => ⟨100, 0⟩) _ _ rfl
  have run := run.next _ _ _
    (step_ack 5 rfl (TrollAck.sealed_intact ⟨default, 0, 7, 0⟩) ⟨101, 10000⟩)
  have run := run.next (.send default 5 1 default default) _ _ rfl
  have run := run.next (.solveSend fun _ => ⟨102, 0⟩) _ _ rfl
  have run := run.next _ _ _
    (step_ack 5 rfl (TrollAck.sealed_intact ⟨default, 0, 7, 1⟩) ⟨103, 135000⟩)
  have run := run.next (.send default 5 1 default default) _ _ rfl
  have run := run.next (.solveSend fun _ => ⟨104, 0⟩) _ _ rfl
  obtain ⟨history, state, run, seconds⟩ : ∃ history state,
      Machine.Run (Sender.step (.insertion Int32)) .initial history state ∧
      readings history = wholeSeconds := ⟨_, _, run, rfl⟩
  refine ⟨history, state, run, seconds, ?_⟩
  obtain ⟨_, starts⟩ := (timeout_recurrence run).2.mpr (by
    rw [seconds, show Estimate.deviations firstEstimate.rtt (samples .initial wholeSeconds) =
      [0, 1, 1] by decide +kernel]
    intro deviation member
    rcases List.mem_cons.mp member with rfl | member
    · exact ⟨0, by norm_num, by norm_num⟩
    · rw [show deviation = 1 by simpa using member]
      exact ⟨1, by norm_num, by norm_num⟩)
  rw [starts, seconds]
  decide +kernel

/-- The ack of the first package comes in 50 ms after it was sent, 40 ms later than estimated. -/
theorem timeout_not_jacobson :
    ∃ history state, Machine.Run (Sender.step (.insertion Int32)) .initial history state ∧
      Machine.events history = [.connect default 5 default 7, .send default 5 1 default default,
        .solveSend fun _ => ⟨100, 0⟩, .ack 5 (TrollAck.sealed ⟨default, 0, 7, 0⟩) ⟨100, 50000⟩,
        .send default 5 1 default default, .solveSend fun _ => ⟨101, 0⟩] ∧
      (iterations .initial (readings history)).map previous ≠
        firstEstimate.estimates abs (samples .initial (readings history)) := by
  have run : Machine.Run (Sender.step (.insertion Int32)) .initial [] .initial := .start
  have run := run.next (.connect default 5 default 7) _ _ rfl
  have run := run.next (.send default 5 1 default default) _ _ rfl
  have run := run.next (.solveSend fun _ => ⟨100, 0⟩) _ _ rfl
  have run := run.next _ _ _
    (step_ack 5 rfl (TrollAck.sealed_intact ⟨default, 0, 7, 0⟩) ⟨100, 50000⟩)
  have run := run.next (.send default 5 1 default default) _ _ rfl
  have run := run.next (.solveSend fun _ => ⟨101, 0⟩) _ _ rfl
  refine ⟨_, _, run, rfl, ?_⟩
  have late : Estimate.deviations firstEstimate.rtt
      (samples .initial [.send ⟨100, 0⟩, .ack ⟨100, 50000⟩, .send ⟨101, 0⟩]) = [0, 1 / 25] := by
    decide +kernel
  intro same
  obtain ⟨seconds, _, whole⟩ := (iterations_jacobson_iff _).mp same (1 / 25) (by
    rw [show readings _ = [.send ⟨100, 0⟩, .ack ⟨100, 50000⟩, .send ⟨101, 0⟩] from rfl, late]
    simp)
  have integral : (25 : Rat) * seconds = 1 := by
    rw [← whole]
    norm_num
  have impossible : 25 * seconds = 1 := by exact_mod_cast integral
  omega

end Runs

end NetworkProj.Sending
