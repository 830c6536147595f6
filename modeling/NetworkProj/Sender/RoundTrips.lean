import NetworkProj.Sender.Estimation

set_option autoImplicit false

namespace NetworkProj.Sending

section Occurrences

inductive Occurrence where
  | ack (ack : TrollAck) (now : TimeVal)
  | sent (message : TrollMessage) (now : TimeVal)

@[simp] def Occurrence.reading : Occurrence → Reading
  | .ack _ now => .ack now
  | .sent _ now => .send now

def occurrencesOf : SenderEvent × List SenderEffect → List Occurrence
  | (.ack _ ack now, _) => [.ack ack now]
  | (.solveSend clock, emitted) =>
    (emitted.filterMap SenderEffect.frame?).mapIdx fun index message => .sent message (clock index)
  | _ => []

def occurrences (history : Machine.History SenderEvent SenderEffect) : List Occurrence :=
  history.flatMap occurrencesOf

theorem sendPending_paired (clock : Nat → TimeVal) (sockfd : Int32) (limit : UInt32)
    (shared : SendShared) (packages : List TrollMessage) :
    ((sendPending clock sockfd limit shared packages).2.2.2.filterMap SenderEffect.frame?).length =
      ((sendPending clock sockfd limit shared packages).2.2.2.filterMap startSeconds).length := by
  induction packages generalizing shared with
  | nil => rfl
  | cons now rest ih =>
    by_cases outside : now.seqNum ≥ limit
    next => simpa only [sendPending, outside, if_true] using ih shared
    next =>
      have later := ih (shared.1.sent (clock shared.2), shared.2 + 1)
      simpa [sendPending, outside, List.filterMap_cons, SenderEffect.frame?, startSeconds,
        sendTimerRequest] using later

theorem solveSend_paired {order : IterOrder Int32} {state state' : Sender}
    {clock : Nat → TimeVal} {effects : List SenderEffect}
    (ran : solveSendCallback order state clock = .ok (state', effects)) :
    (effects.filterMap SenderEffect.frame?).length =
      (effects.filterMap startSeconds).length := by
  obtain ⟨shared, sockets, swept, rfl⟩ := solveSend_swept ran
  apply Table.sweep_invariant (fun (_ : SendShared) _ (effects : List SenderEffect) =>
    (effects.filterMap SenderEffect.frame?).length = (effects.filterMap startSeconds).length)
    _ [] rfl swept
  intro before table effects sockfd sock after final emitted paired found visited
  have here := sendPending_paired clock sock.socketFD (limitOf sock) before sock.pendingPackages
  rw [(visitSocket_ok visited).2]
  simp only [List.filterMap_append, List.length_append, paired]
  exact congrArg _ here

theorem readings_sent (clock : Nat → TimeVal) (messages : List TrollMessage) (first : Nat) :
    (messages.mapIdx fun index message => Occurrence.sent message (clock (first + index))).map
        Occurrence.reading = sendReadings clock first messages.length := by
  induction messages generalizing first with
  | nil => rfl
  | cons message rest ih =>
    rw [List.length_cons, sendReadings_succ, ← ih (first + 1), List.mapIdx_cons, List.map_cons]
    simp only [Nat.add_zero, Nat.add_comm, Nat.add_left_comm]
    rfl

theorem step_readings {order : IterOrder Int32} {state state' : Sender} {event : SenderEvent}
    {emitted : List SenderEffect} (taken : Sender.step order state event = .ok (state', emitted)) :
    (occurrencesOf (event, emitted)).map Occurrence.reading = readingsOf (event, emitted) := by
  cases event with
  | connect | send | expired | ack => rfl
  | solveSend clock =>
    rw [readingsOf, ← solveSend_paired taken, ← readings_sent]
    simp [occurrencesOf]

theorem run_readings {order : IterOrder Int32} {history : Machine.History SenderEvent SenderEffect}
    {state : Sender} (run : Machine.Run (Sender.step order) .initial history state) :
    (occurrences history).map Occurrence.reading = readings history := by
  induction run with
  | start => rfl
  | next event state' emitted before taken ih =>
    simp only [occurrences, readings, List.flatMap_append, List.map_append] at ih ⊢
    rw [ih]
    simpa using step_readings taken

end Occurrences

section Samples

def lastSent (keep : TrollMessage → Bool) (before : List Occurrence) : Option TimeVal :=
  (before.filterMap fun
    | .sent message now => if keep message then some now else none
    | .ack _ _ => none).getLast?

def transmissions (before : List Occurrence) : Nat :=
  before.countP fun
    | .sent _ _ => true
    | .ack _ _ => false

def sampleUsed (history : Machine.History SenderEvent SenderEffect)
    (before : List Occurrence) : Option Rat :=
  (samples .initial (readings history))[transmissions before]?

/-- A sample after `before` is taken when an ack comes in, a valid one for a package sent before;
it is the time since that package was last sent, and no transmission has used it yet. -/
def RealSample (before : List Occurrence) (sample : Rat) : Prop :=
  ∃ earlier ack now later sent, before = earlier ++ .ack ack now :: later ∧
    (∀ other now, .ack other now ∉ later) ∧ (∀ message now, .sent message now ∉ later) ∧
    ack.Intact ∧ lastSent (TrollMessage.named ack.session ack.seqNum) earlier = some sent ∧
    sample = |sent.since now|

def RealSamples (history : Machine.History SenderEvent SenderEffect) : Prop :=
  ∀ before message now after, occurrences history = before ++ .sent message now :: after →
    ∃ sample, sampleUsed history before = some sample ∧ RealSample before sample

/-- The last transmission of any package is as far from the ack as the one of its own package.
The default stands for no time at all. -/
def SameGap (own last now : TimeVal) : Prop :=
  0 < |last.since now| ∧ |own.since now| = |last.since now| ∨
    last.since now = 0 ∧ |own.since now| = 1 / 100

/-- A valid ack has come in since the last transmission, the last of the acks, and what was
transmitted last is its package. -/
def Fresh (before : List Occurrence) : Prop :=
  ∃ earlier ack now own last, before = earlier ++ [.ack ack now] ∧ ack.Intact ∧
    lastSent (TrollMessage.named ack.session ack.seqNum) earlier = some own ∧
    lastSent (fun _ => true) earlier = some last ∧ SameGap own last now

theorem samples_at (estimator : Estimator) (before after : List Occurrence)
    (message : TrollMessage) (now : TimeVal) :
    (samples estimator ((before ++ .sent message now :: after).map Occurrence.reading))[
        transmissions before]? =
      some (sampleOf ((before.map Occurrence.reading).foldl read estimator)) := by
  induction before generalizing estimator with
  | nil => rfl
  | cons first rest ih =>
    cases first with
    | ack ack now => simpa [transmissions, samples, read] using ih (estimator.acked now)
    | sent message now => simpa [transmissions, samples, read] using ih (estimator.sent now)

theorem read_sendTime (before : List Occurrence) :
    ((before.map Occurrence.reading).foldl read .initial).sendTime =
      (lastSent (fun _ => true) before).getD Estimator.initial.sendTime := by
  induction before using List.reverseRecOn with
  | nil => rfl
  | append_singleton rest last ih =>
    rw [List.map_append, List.foldl_append]
    cases last with
    | ack ack now => simpa [lastSent, read, Estimator.acked] using ih
    | sent message now => simp [lastSent, read, Estimator.sent, Occurrence.reading]

theorem lastSent_any {keep : TrollMessage → Bool} {before : List Occurrence} {sent : TimeVal}
    (found : lastSent keep before = some sent) :
    ∃ last, lastSent (fun _ => true) before = some last := by
  rw [← Option.ne_none_iff_exists']
  intro none
  rw [lastSent, List.getLast?_eq_none_iff, List.filterMap_eq_nil_iff] at none
  obtain ⟨occurrence, member, same⟩ := List.mem_filterMap.mp (List.mem_of_getLast? found)
  cases occurrence with
  | ack => cases same
  | sent message now => simpa using none _ member

theorem sampleOf_acked (estimator : Estimator) (now : TimeVal) :
    sampleOf (estimator.acked now) =
      if estimator.sendTime.since now = 0 then 1 / 100 else |estimator.sendTime.since now| := by
  have absolute : (estimator.acked now).elapsedSeconds = |estimator.sendTime.since now| := by
    simp only [Estimator.acked]
    split
    next negative => rw [abs_of_neg negative]
    next positive => rw [abs_of_nonneg (not_lt.mp positive)]
  simp only [sampleOf, absolute, abs_nonpos_iff]

theorem sameGap_iff (own last now : TimeVal) :
    (if last.since now = 0 then (1 / 100 : Rat) else |last.since now|) = |own.since now| ↔
      SameGap own last now := by
  by_cases none : last.since now = 0
  next => simp [SameGap, none, eq_comm]
  next => simp [SameGap, none, eq_comm]

theorem realSample_iff (before : List Occurrence) :
    RealSample before (sampleOf ((before.map Occurrence.reading).foldl read .initial)) ↔
      Fresh before := by
  have used (earlier : List Occurrence) (ack : TrollAck) (now last : TimeVal)
      (found : lastSent (fun _ => true) earlier = some last) :
      sampleOf (((earlier ++ [Occurrence.ack ack now]).map Occurrence.reading).foldl read .initial) =
        if last.since now = 0 then 1 / 100 else |last.since now| := by
    rw [List.map_append, List.foldl_append]
    change sampleOf (Estimator.acked _ now) = _
    rw [sampleOf_acked, read_sendTime, found, Option.getD_some]
  constructor
  · rintro ⟨earlier, ack, now, later, own, rfl, noAck, noSent, intact, sent, same⟩
    have none : later = [] := by
      cases later with
      | nil => rfl
      | cons first rest =>
        cases first with
        | ack other now => exact absurd List.mem_cons_self (noAck other now)
        | sent message now => exact absurd List.mem_cons_self (noSent message now)
    subst none
    obtain ⟨last, found⟩ := lastSent_any sent
    rw [used earlier ack now last found] at same
    exact ⟨earlier, ack, now, own, last, rfl, intact, sent, found, (sameGap_iff ..).mp same⟩
  · rintro ⟨earlier, ack, now, own, last, rfl, intact, sent, found, gap⟩
    refine ⟨earlier, ack, now, [], own, rfl, by simp, by simp, intact, sent, ?_⟩
    rw [used earlier ack now last found]
    exact (sameGap_iff ..).mpr gap

theorem fresh_transmissions {before : List Occurrence} (fresh : Fresh before) :
    transmissions before ≠ 0 := by
  obtain ⟨earlier, ack, now, own, last, rfl, _, _, found, _⟩ := fresh
  obtain ⟨occurrence, member, same⟩ := List.mem_filterMap.mp (List.mem_of_getLast? found)
  intro none
  have outside := List.countP_eq_zero.mp none occurrence (List.mem_append_left _ member)
  cases occurrence with
  | ack => cases same
  | sent => simp at outside

theorem first_transmission {all : List Occurrence} (some : transmissions all ≠ 0) :
    ∃ before message now after, all = before ++ .sent message now :: after ∧
      transmissions before = 0 := by
  induction all with
  | nil => exact absurd rfl some
  | cons first rest ih =>
    cases first with
    | sent message now => exact ⟨[], message, now, rest, rfl, rfl⟩
    | ack ack now =>
      obtain ⟨before, message, sent, after, rfl, none⟩ := ih (by simpa [transmissions] using some)
      exact ⟨.ack ack now :: before, message, sent, after, rfl, by simpa [transmissions] using none⟩

/-- Which samples of a run are round trips. The first transmission never has one, for no package
can have been acked before it. -/
theorem samples_real_iff {order : IterOrder Int32}
    {history : Machine.History SenderEvent SenderEffect} {state : Sender}
    (run : Machine.Run (Sender.step order) .initial history state) :
    (∀ before message now after, occurrences history = before ++ .sent message now :: after →
      ∃ sample, sampleUsed history before = some sample ∧
        (RealSample before sample ↔ Fresh before)) ∧
    (RealSamples history ↔ transmissions (occurrences history) = 0) := by
  have each (before : List Occurrence) (message : TrollMessage) (now : TimeVal)
      (after : List Occurrence)
      (split : occurrences history = before ++ .sent message now :: after) :
      ∃ sample, sampleUsed history before = some sample ∧
        (RealSample before sample ↔ Fresh before) := by
    refine ⟨_, ?_, realSample_iff before⟩
    rw [sampleUsed, ← run_readings run, split, samples_at]
  refine ⟨each, ?_⟩
  constructor
  · intro real
    by_contra some
    obtain ⟨before, message, now, after, split, none⟩ := first_transmission some
    obtain ⟨sample, used, meets⟩ := each before message now after split
    obtain ⟨same, found, true⟩ := real before message now after split
    rw [used] at found
    cases found
    exact fresh_transmissions (meets.mp true) none
  · intro none before message now after split
    simp [split, transmissions] at none

theorem samples_real_second :
    ∃ history state before, Machine.Run (Sender.step (.insertion Int32)) .initial history state ∧
      sampleUsed history before = some (1 / 20) ∧ RealSample before (1 / 20) := by
  have run : Machine.Run (Sender.step (.insertion Int32)) .initial [] .initial := .start
  have run := run.next (.connect default 5 default 7) _ _ rfl
  have run := run.next (.send default 5 1 default default) _ _ rfl
  have run := run.next (.solveSend fun _ => ⟨100, 0⟩) _ _ rfl
  have run := run.next _ _ _
    (step_ack 5 rfl (TrollAck.sealed_intact ⟨default, 0, 7, 0⟩) ⟨100, 50000⟩)
  have run := run.next (.send default 5 1 default default) _ _ rfl
  have run := run.next (.solveSend fun _ => ⟨101, 0⟩) _ _ rfl
  obtain ⟨history, state, run, first, second, split, session, seqNum⟩ : ∃ history state,
      Machine.Run (Sender.step (.insertion Int32)) .initial history state ∧
      ∃ first second : TrollMessage, occurrences history =
          [.sent first ⟨100, 0⟩, .ack (TrollAck.sealed ⟨default, 0, 7, 0⟩) ⟨100, 50000⟩,
            .sent second ⟨101, 0⟩] ∧
        first.session = 7 ∧ first.seqNum = 0 :=
    ⟨_, _, run, _, _, rfl, rfl, rfl⟩
  obtain ⟨sample, used, meets⟩ := (samples_real_iff run).1 [_, _] second ⟨101, 0⟩ [] split
  have exactly : samples .initial [.send ⟨100, 0⟩, .ack ⟨100, 50000⟩, .send ⟨101, 0⟩] =
      [1 / 100, 1 / 20] := by decide +kernel
  have value : sample = 1 / 20 := by
    rw [sampleUsed, ← run_readings run, split] at used
    simpa [exactly, transmissions] using used.symm
  subst value
  refine ⟨_, _, _, run, used, meets.mpr ?_⟩
  refine ⟨[.sent first ⟨100, 0⟩], _, _, ⟨100, 0⟩, ⟨100, 0⟩, rfl, TrollAck.sealed_intact _, ?_, rfl, ?_⟩
  · simp [lastSent, TrollMessage.named, TrollAck.sealed, session, seqNum]
  · exact .inl ⟨by decide +kernel, rfl⟩

def broughtAck : SenderEvent → Option TrollAck
  | .ack _ ack _ => some ack
  | _ => none

-- The sample of the second package comes from a garbled ack, and the third package uses it again.
theorem samples_not_real :
    ∃ history state, Machine.Run (Sender.step (.insertion Int32)) .initial history state ∧
      samples .initial (readings history) = [1 / 100, 1 / 20, 1 / 20] ∧
      (∀ sockfd ack now, .ack sockfd ack now ∈ Machine.events history → ¬ ack.Intact) ∧
      ¬ RealSamples history := by
  have run : Machine.Run (Sender.step (.insertion Int32)) .initial [] .initial := .start
  have run := run.next (.connect default 5 default 7) _ _ rfl
  have run := run.next (.send default 5 1 default default) _ _ rfl
  have run := run.next (.solveSend fun _ => ⟨100, 0⟩) _ _ rfl
  have damaged : ¬ TrollAck.Intact ⟨default, 0, 7, 0⟩ := by decide +kernel
  have run := run.next (.ack 5 ⟨default, 0, 7, 0⟩ ⟨100, 50000⟩) _ _ (step_garbled 5 rfl damaged _)
  have run := run.next (.send default 5 1 default default) _ _ rfl
  have run := run.next (.send default 5 1 default default) _ _ rfl
  have run := run.next (.solveSend fun _ => ⟨101, 0⟩) _ _ rfl
  obtain ⟨history, state, run, acks, used, first, second, third, split⟩ : ∃ history state,
      Machine.Run (Sender.step (.insertion Int32)) .initial history state ∧
      (Machine.events history).filterMap broughtAck = [⟨default, 0, 7, 0⟩] ∧
      readings history = [.send ⟨100, 0⟩, .ack ⟨100, 50000⟩, .send ⟨101, 0⟩, .send ⟨101, 0⟩] ∧
      ∃ first second third : TrollMessage, occurrences history =
        [.sent first ⟨100, 0⟩, .ack ⟨default, 0, 7, 0⟩ ⟨100, 50000⟩, .sent second ⟨101, 0⟩,
          .sent third ⟨101, 0⟩] :=
    ⟨_, _, run, rfl, rfl, _, _, _, rfl⟩
  refine ⟨history, state, run, ?_, ?_, ?_⟩
  · rw [used]
    decide +kernel
  · intro sockfd ack now member
    have listed : ack ∈ [(⟨default, 0, 7, 0⟩ : TrollAck)] := by
      rw [← acks]
      exact List.mem_filterMap.mpr ⟨_, member, rfl⟩
    rw [List.mem_singleton.mp listed]
    exact damaged
  · intro real
    obtain ⟨sample, _, earlier, ack, now, later, sent, before, _, _, intact, _⟩ :=
      real [_, _] second ⟨101, 0⟩ [.sent third ⟨101, 0⟩] split
    have member : Occurrence.ack ack now ∈
        [Occurrence.sent first ⟨100, 0⟩, .ack ⟨default, 0, 7, 0⟩ ⟨100, 50000⟩] := by
      rw [before]
      simp
    simp only [List.mem_cons, List.not_mem_nil, or_false, reduceCtorEq, false_or,
      Occurrence.ack.injEq] at member
    rw [member.1] at intact
    exact damaged intact

end Samples

end NetworkProj.Sending
