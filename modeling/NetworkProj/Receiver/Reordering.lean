import NetworkProj.Receiver.Session

set_option autoImplicit false

namespace NetworkProj.Reception

def Sorted (packages : List TrollMessage) : Prop :=
  packages.Pairwise fun left right => left.seqNum < right.seqNum

/-- The buffer holds what has arrived from `Base` on, in order, and nothing below `Base` is
missing. -/
structure Canonical (received : List TrollMessage) (sock : AcceptedSocket) : Prop where
  sorted : Sorted sock.packages
  original : ∀ now ∈ sock.packages, now ∈ received
  stored : ∀ seqNum, (∃ now ∈ sock.packages, now.seqNum = seqNum) ↔
    sock.base ≤ seqNum ∧ ∃ now ∈ received, now.seqNum = seqNum
  below : ∀ seqNum, seqNum < sock.base → ∃ now ∈ received, now.seqNum = seqNum

section Insertion

theorem insertPackage_cases (now : TrollMessage) {packages : List TrollMessage}
    (sorted : Sorted packages) :
    ((∃ tmp ∈ packages, tmp.seqNum = now.seqNum) ∧ insertPackage now packages = none) ∨
      ∃ packages', insertPackage now packages = some packages' ∧ Sorted packages' ∧
        ∀ tmp, tmp ∈ packages' ↔ tmp = now ∨ tmp ∈ packages := by
  induction packages with
  | nil => exact .inr ⟨[now], rfl, List.pairwise_singleton _ _, by simp⟩
  | cons tmp rest ih =>
    obtain ⟨first, sorted⟩ := List.pairwise_cons.mp sorted
    by_cases same : tmp.seqNum = now.seqNum
    · exact .inl ⟨⟨tmp, by simp, same⟩, by simp [insertPackage, same]⟩
    · by_cases later : now.seqNum < tmp.seqNum
      · refine .inr ⟨now :: tmp :: rest, by simp [insertPackage, same, later], ?_, by simp⟩
        apply List.pairwise_cons.mpr
        refine ⟨?_, List.pairwise_cons.mpr ⟨first, sorted⟩⟩
        intro other member
        rcases List.mem_cons.mp member with equal | inside
        · rw [equal]
          exact later
        · exact UInt32.lt_trans later (first other inside)
      · rcases ih sorted with ⟨⟨other, inside, equal⟩, none⟩ | ⟨packages', some, sorted', members⟩
        · exact .inl ⟨⟨other, by simp [inside], equal⟩, by
            simp [insertPackage, same, later, none]⟩
        · refine .inr ⟨tmp :: packages', by simp [insertPackage, same, later, some], ?_, ?_⟩
          · apply List.pairwise_cons.mpr
            refine ⟨?_, sorted'⟩
            intro other member
            rcases (members other).mp member with equal | inside
            · rw [equal]
              rw [← UInt32.toNat_inj] at same
              rw [UInt32.lt_iff_toNat_lt] at later ⊢
              omega
            · exact first other inside
          · intro other
            simp only [List.mem_cons, members]
            tauto

theorem storePackage_cases (sock : AcceptedSocket) (now : TrollMessage)
    (sorted : Sorted sock.packages) :
    (storePackage sock now = sock ∧
        (now.seqNum < sock.base ∨ ∃ tmp ∈ sock.packages, tmp.seqNum = now.seqNum)) ∨
      ∃ packages, storePackage sock now = { sock with packages } ∧ ¬ now.seqNum < sock.base ∧
        Sorted packages ∧ ∀ tmp, tmp ∈ packages ↔ tmp = now ∨ tmp ∈ sock.packages := by
  unfold storePackage
  by_cases outdated : now.seqNum < sock.base
  · exact .inl ⟨if_pos outdated, .inl outdated⟩
  · rw [if_neg outdated]
    rcases insertPackage_cases now sorted with ⟨duplicate, none⟩ | ⟨packages, some, facts⟩
    · exact .inl ⟨by rw [none], .inr duplicate⟩
    · exact .inr ⟨packages, by rw [some], outdated, facts⟩

theorem canonical_arrive {received : List TrollMessage} {sock : AcceptedSocket}
    (canonical : Canonical received sock) (now : TrollMessage) :
    Canonical (received ++ [now]) (storePackage sock now) := by
  rcases storePackage_cases sock now canonical.sorted with
    ⟨kept, reason⟩ | ⟨packages, stored, current, sorted, members⟩
  · rw [kept]
    constructor
    · exact canonical.sorted
    · intro tmp member
      exact List.mem_append_left _ (canonical.original tmp member)
    · intro seqNum
      rw [canonical.stored seqNum]
      constructor
      · rintro ⟨above, tmp, member, same⟩
        exact ⟨above, tmp, List.mem_append_left _ member, same⟩
      · rintro ⟨above, tmp, member, same⟩
        rcases List.mem_append.mp member with old | new
        · exact ⟨above, tmp, old, same⟩
        · obtain rfl := List.mem_singleton.mp new
          rcases reason with outdated | ⟨other, inside, equal⟩
          · subst same
            exact absurd above (UInt32.not_le.mpr outdated)
          · exact ⟨above, other, canonical.original other inside, equal.trans same⟩
    · intro seqNum before
      obtain ⟨tmp, member, same⟩ := canonical.below seqNum before
      exact ⟨tmp, List.mem_append_left _ member, same⟩
  · rw [stored]
    constructor
    · exact sorted
    · intro tmp member
      rcases (members tmp).mp member with rfl | old
      · simp
      · exact List.mem_append_left _ (canonical.original tmp old)
    · intro seqNum
      constructor
      · rintro ⟨tmp, member, same⟩
        rcases (members tmp).mp member with rfl | old
        · subst same
          exact ⟨UInt32.not_lt.mp current, tmp, by simp, rfl⟩
        · obtain ⟨above, other, inside, equal⟩ := (canonical.stored seqNum).mp ⟨tmp, old, same⟩
          exact ⟨above, other, List.mem_append_left _ inside, equal⟩
      · rintro ⟨above, tmp, member, same⟩
        rcases List.mem_append.mp member with old | new
        · obtain ⟨other, inside, equal⟩ := (canonical.stored seqNum).mpr ⟨above, tmp, old, same⟩
          exact ⟨other, (members other).mpr (.inr inside), equal⟩
        · obtain rfl := List.mem_singleton.mp new
          exact ⟨tmp, (members tmp).mpr (.inl rfl), same⟩
    · intro seqNum before
      obtain ⟨tmp, member, same⟩ := canonical.below seqNum before
      exact ⟨tmp, List.mem_append_left _ member, same⟩

theorem canonical_new (malloc : AcceptedSocket) (sockfd : Int32) (session : UInt32) :
    Canonical [] (newSocket malloc sockfd session) := by
  constructor
  · exact .nil
  · simp [newSocket]
  · simp [newSocket]
  · simp [newSocket]

end Insertion

section Consumption

theorem mem_consecutive {base seqNum : UInt32} {count : Nat}
    (unwrapped : base.toNat + count ≤ 2 ^ 32) :
    seqNum ∈ consecutive base count ↔
      base.toNat ≤ seqNum.toNat ∧ seqNum.toNat < base.toNat + count := by
  simp only [consecutive, List.mem_map, List.mem_range]
  constructor
  · rintro ⟨offset, inside, rfl⟩
    rw [toNat_offset (by omega)]
    omega
  · rintro ⟨above, under⟩
    have inside : seqNum.toNat - base.toNat < count := by omega
    refine ⟨seqNum.toNat - base.toNat, inside, UInt32.toNat_inj.mp ?_⟩
    rw [toNat_offset (by omega)]
    omega

theorem exists_of_inOrder {base : UInt32} {packages : List TrollMessage}
    (order : InOrder base packages) (seqNum : UInt32) (unwrapped : base.toNat + packages.length ≤ 2 ^ 32) :
    (∃ now ∈ packages, now.seqNum = seqNum) ↔
      base.toNat ≤ seqNum.toNat ∧ seqNum.toNat < base.toNat + packages.length := by
  rw [← mem_consecutive unwrapped, ← show _ = consecutive _ _ from order, List.mem_map]

theorem toNat_base {session : UInt32} {sock final : AcceptedSocket} {taken : List TrollMessage}
    {effects : List ReceiverEffect} (solved : Solved session sock taken effects final)
    (unwrapped : sock.base.toNat + taken.length < 2 ^ 32) :
    final.base.toNat = sock.base.toNat + taken.length := by
  rw [solved.base]
  exact toNat_offset (by omega)

theorem canonical_solve {received : List TrollMessage} {session : UInt32}
    {sock final : AcceptedSocket} {taken : List TrollMessage} {effects : List ReceiverEffect}
    (canonical : Canonical received sock) (solved : Solved session sock taken effects final)
    (unwrapped : sock.base.toNat + taken.length < 2 ^ 32) : Canonical received final := by
  have sorted := canonical.sorted
  rw [solved.packages] at sorted
  obtain ⟨_, sorted, across⟩ := List.pairwise_append.mp sorted
  have base := toNat_base solved unwrapped
  have inTaken (seqNum : UInt32) := exists_of_inOrder solved.order seqNum (by omega)
  have inside (now : TrollMessage) (member : now ∈ taken ∨ now ∈ final.packages) :
      now ∈ sock.packages := by
    rw [solved.packages]
    exact List.mem_append.mpr member
  constructor
  · exact sorted
  · exact fun now member => canonical.original now (inside now (.inr member))
  · intro seqNum
    constructor
    · rintro ⟨now, member, rfl⟩
      obtain ⟨above, present⟩ := (canonical.stored now.seqNum).mp ⟨now, inside now (.inr member), rfl⟩
      refine ⟨?_, present⟩
      -- The last package taken is below every package that is left.
      rw [UInt32.le_iff_toNat_le] at above ⊢
      by_cases none : taken.length = 0
      · omega
      · have lastSmall : sock.base.toNat + taken.length - 1 < 2 ^ 32 := by omega
        have last := (inTaken (UInt32.ofNat (sock.base.toNat + taken.length - 1))).mpr (by
          rw [UInt32.toNat_ofNat_of_lt' lastSmall]
          omega)
        obtain ⟨tmp, early, same⟩ := last
        have below := across tmp early now member
        rw [same, UInt32.lt_iff_toNat_lt, UInt32.toNat_ofNat_of_lt' lastSmall] at below
        omega
    · rintro ⟨above, present⟩
      rw [UInt32.le_iff_toNat_le] at above
      obtain ⟨now, member, rfl⟩ := (canonical.stored seqNum).mpr
        ⟨UInt32.le_iff_toNat_le.mpr (by omega), present⟩
      rw [solved.packages] at member
      rcases List.mem_append.mp member with early | late
      · have bound := (inTaken now.seqNum).mp ⟨now, early, rfl⟩
        omega
      · exact ⟨now, late, rfl⟩
  · intro seqNum before
    rw [UInt32.lt_iff_toNat_lt] at before
    by_cases old : seqNum.toNat < sock.base.toNat
    · exact canonical.below seqNum (UInt32.lt_iff_toNat_lt.mpr old)
    · obtain ⟨now, member, same⟩ := (inTaken seqNum).mpr (by omega)
      exact ⟨now, canonical.original now (inside now (.inl member)), same⟩

theorem solve_bounded {received : List TrollMessage} {session : UInt32}
    {sock final : AcceptedSocket} {taken : List TrollMessage} {effects : List ReceiverEffect}
    (canonical : Canonical received sock) (solved : Solved session sock taken effects final)
    {limit : Nat} (small : limit < 2 ^ 32)
    (numbered : ∀ now ∈ received, now.seqNum.toNat < limit) :
    sock.base.toNat + taken.length ≤ limit := by
  have start : sock.base.toNat ≤ limit := by
    by_cases zero : sock.base.toNat = 0
    · omega
    · have previous : sock.base.toNat - 1 < 2 ^ 32 := by
        have bound := sock.base.toNat_lt
        omega
      obtain ⟨now, member, same⟩ := canonical.below (UInt32.ofNat (sock.base.toNat - 1)) (by
        rw [UInt32.lt_iff_toNat_lt, UInt32.toNat_ofNat_of_lt' previous]
        omega)
      have bound := numbered now member
      rw [same, UInt32.toNat_ofNat_of_lt' previous] at bound
      omega
  by_contra beyond
  -- The package numbered `limit` would be among those taken.
  have inside : limit - sock.base.toNat < taken.length := by omega
  have named : sock.base + UInt32.ofNat (limit - sock.base.toNat) ∈
      taken.map TrollMessage.seqNum := by
    rw [solved.order]
    exact List.mem_map.mpr ⟨_, List.mem_range.mpr inside, rfl⟩
  obtain ⟨now, member, same⟩ := List.mem_map.mp named
  have bound := numbered now (canonical.original now (by
    rw [solved.packages]
    exact List.mem_append_left _ member))
  have number : (sock.base + UInt32.ofNat (limit - sock.base.toNat)).toNat = limit := by
    rw [toNat_offset] <;> omega
  rw [same, number] at bound
  omega

end Consumption

section Runs

def arrivals (events : List SessionEvent) : List TrollMessage :=
  events.filterMap fun
    | .arrive _ message _ => some message
    | _ => none

def consumptions (effects : List SessionEffect) : List TrollMessage :=
  effects.filterMap fun
    | .consumed message => some message
    | _ => none

@[simp] theorem arrivals_append (left right : List SessionEvent) :
    arrivals (left ++ right) = arrivals left ++ arrivals right :=
  List.filterMap_append

@[simp] theorem consumptions_append (left right : List SessionEffect) :
    consumptions (left ++ right) = consumptions left ++ consumptions right :=
  List.filterMap_append

theorem consumptions_solved {session : UInt32} {sock final : AcceptedSocket}
    {taken : List TrollMessage} {effects : List ReceiverEffect}
    (solved : Solved session sock taken effects final) :
    (consumptions (effects.filterMap (sessionEffect session))).length = taken.length := by
  obtain ⟨freed, length, ⟨_, rfl⟩ | ⟨_, _, _, data, _, rfl⟩⟩ := solved.answer <;>
    simp [consumptions, List.filterMap_map, Function.comp_def, sessionEffect, length]

structure Reordered (received : List TrollMessage) (count : Nat) (current : SessionView) :
    Prop where
  absent : current.sock? = none → received = [] ∧ count = 0
  canonical : ∀ sock, current.sock? = some sock → Canonical received sock
  counted : ∀ sock, current.sock? = some sock → sock.base.toNat = count

theorem reordered_arrived {received : List TrollMessage} {count : Nat} {current : SessionView}
    (reordered : Reordered received count current) (session : UInt32) (sockfd : Int32)
    (now : TrollMessage) (malloc : AcceptedSocket) :
    Reordered (received ++ [now]) count (arrived current session sockfd now malloc) := by
  have stored (old : AcceptedSocket) (canonical : Canonical received old)
      (counted : old.base.toNat = count) (sock : AcceptedSocket)
      (same : some (storePackage old now) = some sock) :
      Canonical (received ++ [now]) sock ∧ sock.base.toNat = count := by
    cases same
    exact ⟨canonical_arrive canonical now, by rw [storePackage_base, counted]⟩
  cases current with
  | absent =>
    obtain ⟨rfl, rfl⟩ := reordered.absent rfl
    have fresh := stored _ (canonical_new malloc sockfd session) rfl
    exact ⟨by simp [arrived, SessionView.sock?], fun sock same => (fresh sock same).1,
      fun sock same => (fresh sock same).2⟩
  | waiting old | accepted old =>
    have kept := stored old (reordered.canonical old rfl) (reordered.counted old rfl)
    exact ⟨by simp [arrived, SessionView.sock?], fun sock same => (kept sock same).1,
      fun sock same => (kept sock same).2⟩

theorem reordered_move {received : List TrollMessage} {count : Nat} {session : UInt32}
    {current next : SessionView} {event : SessionEvent} {effects : List SessionEffect}
    (reordered : Reordered received count current)
    (move : SessionMove session current event next effects)
    (few : count + (consumptions effects).length < 2 ^ 32) :
    Reordered (received ++ arrivals [event]) (count + (consumptions effects).length) next := by
  cases move with
  | arrive sockfd message malloc => exact reordered_arrived reordered session sockfd message malloc
  | accept sock waiting =>
    subst waiting
    constructor
    · simp [SessionView.sock?]
    · intro _ same
      simpa [arrivals] using reordered.canonical _ same
    · intro _ same
      simpa [consumptions] using reordered.counted _ same
  | request sock front len accepted positive idle =>
    subst accepted
    have canonical := reordered.canonical sock rfl
    have counted := reordered.counted sock rfl
    constructor
    · simp [SessionView.sock?]
    · intro _ same
      cases same
      simpa [arrivals] using
        ⟨canonical.sorted, canonical.original, canonical.stored, canonical.below⟩
    · intro _ same
      cases same
      simpa [consumptions] using counted
  | solve sock final emitted accepted ran =>
    subst accepted
    obtain ⟨taken, solved⟩ := solveRecvSocket_solved ran
    have canonical := reordered.canonical sock rfl
    have counted := reordered.counted sock rfl
    rw [consumptions_solved solved, ← counted] at few ⊢
    constructor
    · simp [SessionView.sock?]
    · intro _ same
      cases same
      simpa [arrivals] using canonical_solve canonical solved few
    · intro _ same
      cases same
      exact toNat_base solved few
  | idle event quiet =>
    have none : arrivals [event] = [] := by
      cases event with
      | arrive sockfd message malloc => exact absurd rfl (quiet sockfd message malloc)
      | accept | request | solve => rfl
    simpa [none, consumptions] using reordered

theorem session_reordered {session : UInt32} {current : SessionView}
    {own : Machine.History SessionEvent SessionEffect}
    (run : Machine.Run (sessionStep session) .absent own current)
    (few : (consumptions (Machine.outputs own)).length < 2 ^ 32) :
    Reordered (arrivals (Machine.events own)) (consumptions (Machine.outputs own)).length
      current := by
  induction run with
  | start => exact ⟨fun _ => ⟨rfl, rfl⟩, by simp [SessionView.sock?], by simp [SessionView.sock?]⟩
  | next event next emitted before taken ih =>
    simp only [Machine.outputs_append, Machine.outputs_cons, Machine.outputs_nil, List.append_nil,
      consumptions_append, List.length_append] at few
    have moved := reordered_move (ih (by omega)) (sessionStep_move taken) few
    simpa using moved

theorem session_reordered_bounded {session : UInt32} {current : SessionView}
    {own : Machine.History SessionEvent SessionEffect}
    (run : Machine.Run (sessionStep session) .absent own current) {limit : Nat}
    (small : limit < 2 ^ 32)
    (numbered : ∀ now ∈ arrivals (Machine.events own), now.seqNum.toNat < limit) :
    (consumptions (Machine.outputs own)).length ≤ limit := by
  induction run with
  | start => exact Nat.zero_le limit
  | next event next emitted before taken ih =>
    simp only [Machine.events_append, Machine.events_cons, Machine.events_nil, arrivals_append,
      List.mem_append] at numbered
    have few := ih fun now member => numbered now (.inl member)
    simp only [Machine.outputs_append, Machine.outputs_cons, Machine.outputs_nil, List.append_nil,
      consumptions_append, List.length_append]
    have reordered := session_reordered before (by omega)
    cases sessionStep_move taken with
    | arrive | accept | request | idle => simpa [consumptions] using few
    | solve sock final effects accepted ran =>
      subst accepted
      obtain ⟨taken, solved⟩ := solveRecvSocket_solved ran
      have bound := solve_bounded (reordered.canonical sock rfl) solved small
        fun now member => numbered now (.inl member)
      rw [reordered.counted sock rfl] at bound
      rwa [consumptions_solved solved]

def received (session : UInt32) (history : Machine.History ReceiverEvent ReceiverEffect) :
    List TrollMessage :=
  (Machine.events history).filterMap fun
    | .data _ message _ _ =>
      if message.Intact ∧ message.session = session then some message else none
    | _ => none

def consumed (session : UInt32) (history : Machine.History ReceiverEvent ReceiverEffect) :
    List TrollMessage :=
  (Machine.outputs history).filterMap fun
    | .free other message => if other = session then some message else none
    | _ => none

@[simp] theorem received_append (session : UInt32)
    (left right : Machine.History ReceiverEvent ReceiverEffect) :
    received session (left ++ right) = received session left ++ received session right := by
  simp [received]

theorem received_own (session : UInt32)
    (history : Machine.History ReceiverEvent ReceiverEffect) :
    arrivals (history.filterMap (ownEvent session)) = received session history := by
  induction history with
  | nil => rfl
  | cons entry rest ih =>
    obtain ⟨event, emitted⟩ := entry
    rw [← List.singleton_append, received_append, ← ih, List.filterMap_append, arrivals_append]
    congr 1
    cases event with
    | data sockfd message remoteTroll malloc =>
      by_cases own : message.Intact ∧ message.session = session <;>
        simp [received, ownEvent, own, arrivals]
    | recv front sockfd len =>
      by_cases own : sockfd.toUInt32 = session <;> simp [received, ownEvent, own, arrivals]
    | solveAccept =>
      cases own : emitted.any (acceptsSession session) <;>
        simp [received, ownEvent, own, arrivals]
    | bind | accept | solveRecv => rfl

theorem consumed_own (session : UInt32)
    (history : Machine.History ReceiverEvent ReceiverEffect) :
    consumptions (history.flatMap (ownEffects session)) = consumed session history := by
  induction history with
  | nil => rfl
  | cons entry rest ih =>
    obtain ⟨event, emitted⟩ := entry
    have effects (emitted : List ReceiverEffect) :
        consumptions (emitted.filterMap (sessionEffect session)) =
          consumed session [(event, emitted)] := by
      simp only [consumptions, consumed, Machine.outputs_cons, Machine.outputs_nil,
        List.append_nil, List.filterMap_filterMap]
      congr 1
      funext effect
      cases effect with
      | free other message => by_cases own : other = session <;> simp [sessionEffect, own]
      | recvReturn other addr data => by_cases own : other = session <;> simp [sessionEffect, own]
      | bindReturn | acceptReturn | acceptError | recvError | ack => rfl
    have first : consumptions (ownEffects session (event, emitted)) =
        consumed session [(event, emitted)] := by
      unfold ownEffects
      split
      next same =>
        cases same
        split <;> rfl
      next same =>
        cases same
        exact effects emitted
    have split : consumed session ((event, emitted) :: rest) =
        consumed session [(event, emitted)] ++ consumed session rest := by
      simp [consumed]
    rw [split, ← ih, ← first, List.flatMap_cons, consumptions_append]

variable {order : IterOrder UInt32} {state : Receiver}
  {history : Machine.History ReceiverEvent ReceiverEffect}
  (run : Machine.Run (Receiver.step order) .initial history state) (session : UInt32)

include run

theorem run_reordered (few : (consumed session history).length < 2 ^ 32) :
    Reordered (received session history) (consumed session history).length
      (view session state) := by
  obtain ⟨own, ran, events, outputs⟩ := run_session run session
  have reordered := session_reordered ran
  rw [events, outputs, received_own, consumed_own] at reordered
  exact reordered few

theorem run_reordered_bounded {limit : Nat} (small : limit < 2 ^ 32)
    (numbered : ∀ now ∈ received session history, now.seqNum.toNat < limit) :
    (consumed session history).length ≤ limit := by
  obtain ⟨own, ran, events, outputs⟩ := run_session run session
  have bounded := session_reordered_bounded ran small
  rw [events, outputs, received_own, consumed_own] at bounded
  exact bounded numbered

end Runs

section Canonicity

def Agreeing (messages : List TrollMessage) : Prop :=
  ∀ left ∈ messages, ∀ right ∈ messages, left.seqNum = right.seqNum → left.content = right.content

def contents (messages : List TrollMessage) : List Content :=
  messages.map TrollMessage.content

theorem mem_contents_packages {messages : List TrollMessage} {sock : AcceptedSocket}
    (canonical : Canonical messages sock) (agreeing : Agreeing messages) (content : Content) :
    content ∈ contents sock.packages ↔
      sock.base ≤ content.seqNum ∧ content ∈ contents messages := by
  constructor
  · intro member
    obtain ⟨now, inside, rfl⟩ := List.mem_map.mp member
    exact ⟨((canonical.stored now.seqNum).mp ⟨now, inside, rfl⟩).1,
      List.mem_map_of_mem (canonical.original now inside)⟩
  · intro ⟨above, member⟩
    obtain ⟨now, inside, rfl⟩ := List.mem_map.mp member
    obtain ⟨tmp, stored, same⟩ := (canonical.stored now.seqNum).mpr ⟨above, now, inside, rfl⟩
    rw [← agreeing tmp (canonical.original tmp stored) now inside same]
    exact List.mem_map_of_mem stored

theorem contents_sorted {packages : List TrollMessage} (sorted : Sorted packages) :
    (contents packages).Pairwise fun left right => left.seqNum < right.seqNum :=
  List.pairwise_map.mpr sorted

theorem contents_nodup {packages : List TrollMessage} (sorted : Sorted packages) :
    (contents packages).Nodup := by
  apply (contents_sorted sorted).imp
  intro left right below equal
  subst equal
  exact UInt32.lt_irrefl left.seqNum below

theorem contents_unique {left right : List TrollMessage} {sock sock' : AcceptedSocket}
    (canonical : Canonical left sock) (canonical' : Canonical right sock')
    (agreeing : Agreeing left) (agreeing' : Agreeing right)
    (same : ∀ content, content ∈ contents left ↔ content ∈ contents right)
    (base : sock.base = sock'.base) : contents sock.packages = contents sock'.packages := by
  have perm : (contents sock.packages).Perm (contents sock'.packages) := by
    apply (List.perm_ext_iff_of_nodup (contents_nodup canonical.sorted)
      (contents_nodup canonical'.sorted)).mpr
    intro content
    rw [mem_contents_packages canonical agreeing, mem_contents_packages canonical' agreeing',
      base, same]
  apply perm.eq_of_pairwise ?_ (contents_sorted canonical.sorted) (contents_sorted canonical'.sorted)
  intro first second _ _ below above
  exact absurd (UInt32.lt_trans below above) (UInt32.lt_irrefl first.seqNum)

/-- In every run, a session's buffer holds the frames from `Base` on that have arrived, each once
and unchanged, whatever the order and multiplicity of their arrival. -/
theorem buffer_canonical {order : IterOrder UInt32} {state : Receiver}
    {history : Machine.History ReceiverEvent ReceiverEffect} {session : UInt32}
    {sock : AcceptedSocket} (run : Machine.Run (Receiver.step order) .initial history state)
    (record : (view session state).sock? = some sock)
    (agreeing : Agreeing (received session history))
    (few : (consumed session history).length < 2 ^ 32) :
    Canonical (received session history) sock ∧
      (∀ now ∈ sock.packages, ∀ frame ∈ received session history, frame.seqNum = now.seqNum →
        now.content = frame.content) ∧
      ∀ (order' : IterOrder UInt32) (state' : Receiver)
        (history' : Machine.History ReceiverEvent ReceiverEffect) (sock' : AcceptedSocket),
        Machine.Run (Receiver.step order') .initial history' state' →
        (view session state').sock? = some sock' →
        (consumed session history').length < 2 ^ 32 →
        (∀ content, content ∈ contents (received session history) ↔
          content ∈ contents (received session history')) →
        sock.base = sock'.base → contents sock.packages = contents sock'.packages := by
  have canonical := (run_reordered run session few).canonical sock record
  refine ⟨canonical, ?_, ?_⟩
  · intro now member frame arrived same
    exact agreeing now (canonical.original now member) frame arrived same.symm
  · intro order' state' history' sock' run' record' few' same base
    have agreeing' : Agreeing (received session history') := by
      intro left member right member' equal
      obtain ⟨first, inside, content⟩ := List.mem_map.mp
        ((same left.content).mpr (List.mem_map_of_mem member))
      obtain ⟨second, inside', content'⟩ := List.mem_map.mp
        ((same right.content).mpr (List.mem_map_of_mem member'))
      rw [← content, ← content']
      apply agreeing first inside second inside'
      exact (congrArg Content.seqNum content).trans (equal.trans (congrArg Content.seqNum content').symm)
    exact contents_unique canonical ((run_reordered run' session few').canonical sock' record')
      agreeing agreeing' same base

def frame (session seqNum : UInt32) (data : List UInt8) : TrollMessage :=
  TrollMessage.sealed
    { header := default
      checkSum := 0
      session
      seqNum
      padding := default
      len := UInt64.ofNat data.length
      body := .pad bufLen data }

theorem frame_intact (session seqNum : UInt32) (data : List UInt8) :
    (frame session seqNum data).Intact := rfl

@[simp] theorem frame_session (session seqNum : UInt32) (data : List UInt8) :
    (frame session seqNum data).session = session := rfl

@[simp] theorem frame_seqNum (session seqNum : UInt32) (data : List UInt8) :
    (frame session seqNum data).seqNum = seqNum := rfl

-- The second frame comes first, and once more after the first one.
theorem buffer_canonical_swapped :
    ∃ history state sock, Machine.Run (Receiver.step (.insertion UInt32)) .initial history state ∧
      received 7 history = [frame 7 1 [5, 6, 7], frame 7 0 [1, 2, 3, 4], frame 7 1 [5, 6, 7]] ∧
      (view 7 state).sock? = some sock ∧
      sock.packages = [frame 7 0 [1, 2, 3, 4], frame 7 1 [5, 6, 7]] ∧
      Canonical (received 7 history) sock := by
  have run : Machine.Run (Receiver.step (.insertion UInt32)) .initial [] .initial := .start
  have run := run.next (.bind default 3 true) _ _ rfl
  have run := run.next _ _ _ (step_data 3 rfl (frame_intact 7 1 [5, 6, 7]) default default)
  have run := run.next _ _ _ (step_data 3 rfl (frame_intact 7 0 [1, 2, 3, 4]) default default)
  have run := run.next _ _ _ (step_data 3 rfl (frame_intact 7 1 [5, 6, 7]) default default)
  refine ⟨_, _, _, run, ?arrived, rfl, rfl, ?canonical⟩
  case arrived => simp [received, Machine.events, frame_intact]
  case canonical =>
    apply (buffer_canonical run rfl ?_ ?_).1
    · simp [received, Machine.events, frame_intact, Agreeing]
    · simp [consumed, Machine.outputs]

end Canonicity

end NetworkProj.Reception
