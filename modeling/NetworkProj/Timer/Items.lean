import NetworkProj.Timer.DeadlineRefinement

set_option autoImplicit false

namespace NetworkProj.Timer

open DeltaList

def items (list : List TimerNode) : List TimerItem :=
  (entries list).map Prod.fst

def armed (key : TimerExpired) (items : List TimerItem) : Nat :=
  items.countP fun item => item.2 = key

@[simp] theorem armed_append (key : TimerExpired) (left right : List TimerItem) :
    armed key (left ++ right) = armed key left + armed key right :=
  List.countP_append

theorem any_named (session seqNum : Int32) (list : List TimerNode) :
    list.any (TimerNode.named session seqNum) =
      (items list).any fun item => item.2 = ⟨session, seqNum⟩ := by
  simp only [items, entries, List.any_map]
  congr 1
  funext node
  exact named_iff session seqNum node

theorem items_update (elapsedSeconds : Rat) (list : List TimerNode) :
    items (updateTimerList elapsedSeconds list) = items list := by
  rw [items, updateTimerList, entries_carryOver, carry_items, items]

theorem items_sendCallbacks (list : List TimerNode) :
    (sendCallbacks list).2 ++ items (sendCallbacks list).1 = items list := by
  obtain ⟨kept, sent⟩ := entries_sendCallbacks list
  rw [items, kept, sent, popDue_items, items]

abbrev requestKey (request : TimerRequest) : TimerExpired :=
  ⟨request.session, request.seqNum⟩

def adjusted (key : TimerExpired) (count : Nat) : Option TimerRequest → Nat
  | none => count
  | some request =>
    if requestKey request = key then
      match request.type with
      | .start => max 1 count
      | .cancel => count - 1
    else count

theorem armed_insertRequest (key : TimerExpired) (list : List TimerNode) (request : TimerRequest)
    (requestAddr : SockAddr) :
    armed key (items (insertRequest list request requestAddr)) =
      if requestKey request = key then
        max 1 (armed key (items list))
      else armed key (items list) := by
  unfold insertRequest
  rw [any_named]
  split
  next present =>
    obtain ⟨item, member, same⟩ := List.any_eq_true.mp present
    by_cases own : requestKey request = key
    · have positive : 0 < armed key (items list) :=
        List.countP_pos_iff.mpr ⟨item, member, by simpa [own] using same⟩
      rw [if_pos own]
      omega
    · rw [if_neg own]
  next absent =>
    have inserted := (insertDelta_items (requestAddr, ⟨request.session, request.seqNum⟩)
      request.seconds (entries list)).countP_eq fun item => item.2 = key
    rw [List.countP_cons] at inserted
    rw [items, entries_insertNode]
    refine inserted.trans ?_
    by_cases own : requestKey request = key
    · have none : armed key (items list) = 0 := by
        apply List.countP_eq_zero.mpr
        intro item member named
        exact absent (List.any_eq_true.mpr ⟨item, member, by simpa [own] using named⟩)
      have count : ((entries list).map Prod.fst).countP (fun item => item.2 = key) = 0 := none
      simp [own, none, count]
    · simp [own, armed, items]

theorem armed_cancelRequest (key : TimerExpired) (list : List TimerNode) (request : TimerRequest) :
    armed key (items (cancelRequest list request)) =
      if requestKey request = key then
        armed key (items list) - 1
      else armed key (items list) := by
  rw [items, cancelRequest, entries_cancelNode, remove_items]
  change armed key ((items list).eraseP _) = _
  induction items list with
  | nil => simp [armed]
  | cons item rest ih =>
    by_cases here : item.2 = ⟨request.session, request.seqNum⟩
    · by_cases own : requestKey request = key
      · simp [armed, here, own]
      · simp [armed, here, own]
    · rw [List.eraseP_cons_of_neg (by simpa using here)]
      by_cases own : requestKey request = key
      · rw [if_pos own] at ih ⊢
        have other : item.2 ≠ key := fun same => here (same.trans own.symm)
        simpa [armed, other] using ih
      · rw [if_neg own] at ih ⊢
        simp only [armed, List.countP_cons] at ih ⊢
        rw [ih]

theorem armed_receiveRequest (key : TimerExpired) (list : List TimerNode)
    (request : Option TimerRequest) (requestAddr : SockAddr) :
    armed key (items (receiveRequest list (request.map fun request => (request, requestAddr)))) =
      adjusted key (armed key (items list)) request := by
  cases request with
  | none => rfl
  | some request =>
    cases kind : request.type with
    | start => simp only [Option.map_some, receiveRequest, adjusted, kind, armed_insertRequest]
    | cancel => simp only [Option.map_some, receiveRequest, adjusted, kind, armed_cancelRequest]

theorem armed_round (key : TimerExpired) (list : List TimerNode) (elapsedSeconds : Rat)
    (request : Option TimerRequest) (requestAddr : SockAddr) :
    let round := timerRound list
      ⟨elapsedSeconds, request.map fun request => (request, requestAddr)⟩
    armed key round.2 + armed key (items round.1) =
      adjusted key (armed key (items list)) request := by
  simp only [timerRound]
  rw [← armed_append, items_sendCallbacks, armed_receiveRequest, items_update]

def Addressed (driver : SockAddr) (items : List TimerItem) : Prop :=
  ∀ item ∈ items, item.1 = driver

theorem addressed_receiveRequest {driver : SockAddr} {list : List TimerNode}
    (addressed : Addressed driver (items list)) (request : Option TimerRequest) :
    Addressed driver
      (items (receiveRequest list (request.map fun request => (request, driver)))) := by
  cases request with
  | none => exact addressed
  | some request =>
    cases kind : request.type with
    | start =>
      simp only [Option.map_some, receiveRequest, kind, insertRequest]
      split
      · exact addressed
      · intro item member
        rw [items, entries_insertNode, (insertDelta_items _ _ _).mem_iff] at member
        rcases List.mem_cons.mp member with rfl | old
        · rfl
        · exact addressed item old
    | cancel =>
      simp only [Option.map_some, receiveRequest, kind, cancelRequest]
      intro item member
      rw [items, entries_cancelNode, remove_items] at member
      exact addressed item (List.mem_of_mem_eraseP member)

theorem addressed_round {driver : SockAddr} {list : List TimerNode}
    (addressed : Addressed driver (items list)) (elapsedSeconds : Rat)
    (request : Option TimerRequest) :
    let round := timerRound list ⟨elapsedSeconds, request.map fun request => (request, driver)⟩
    Addressed driver round.2 ∧ Addressed driver (items round.1) := by
  have whole : Addressed driver (items (receiveRequest (updateTimerList elapsedSeconds list)
      (request.map fun request => (request, driver)))) :=
    addressed_receiveRequest (by rwa [items_update]) request
  rw [← items_sendCallbacks] at whole
  exact ⟨fun item member => whole item (List.mem_append_left _ member),
    fun item member => whole item (List.mem_append_right _ member)⟩

end NetworkProj.Timer
