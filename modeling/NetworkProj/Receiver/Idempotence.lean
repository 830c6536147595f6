import NetworkProj.Receiver.Bounds
import NetworkProj.Receiver.Grouping

set_option autoImplicit false

namespace NetworkProj.Reception

variable {session : UInt32} {sock next : AcceptedSocket} {effects : List ReceiverEffect}
  {order : IterOrder UInt32} {state state' : Receiver}

/-- What the copy loop needs of a record; its `SeqNum`s and its `Base` do not matter. -/
structure Fitting (sock : AcceptedSocket) : Prop where
  sized : Sized sock
  lens : ∀ now ∈ sock.packages, now.len.toNat ≤ bufLen

/-- The loop is left by its own tests, whatever the fuel, with no more than was asked for. -/
def CopyEnds (session : UInt32) (sock : AcceptedSocket) : Prop :=
  ∃ final freed,
    (∀ fuel, copyVariant sock < fuel →
      Loop.run (copyBody session) fuel sock = .ok (final, freed)) ∧
    Loop.Finished (copyBody session) final ∧ final.recvBufferSize ≤ final.receivingLength

section Socket

theorem fitting_pass (fitting : Fitting sock)
    (pass : copyBody session sock = .ok (some (next, effects))) : Fitting next :=
  ⟨sized_pass fitting.sized pass, short_pass fitting.lens pass⟩

theorem copyBody_safe (fitting : Fitting sock) (stop : Stop) :
    copyBody session sock ≠ .error stop := by
  intro stopped
  by_cases copyable : Copyable sock
  next =>
    obtain ⟨next, effects, pass⟩ : ∃ next effects, copyBody session sock = .ok (some (next, effects)) :=
      pass_of_short fitting.sized copyable fun now first =>
        fitting.lens now (List.mem_of_mem_head? first)
    cases pass.symm.trans stopped
  next =>
    have finished : copyBody session sock = .ok none := finished_of_not_copyable copyable
    cases finished.symm.trans stopped

theorem copyLoop_ok (fitting : Fitting sock) :
    ∃ final freed, copyLoop session sock = .ok (final, freed) :=
  Loop.run_ok_of Fitting (fun _ _ _ => fitting_pass) (fun _ stop fits => copyBody_safe fits stop) _
    fitting

theorem copyLoop_ends (fitting : Fitting sock) : CopyEnds session sock := by
  obtain ⟨final, freed, ran⟩ : ∃ final freed, copyLoop session sock = .ok (final, freed) :=
    copyLoop_ok fitting
  have finished : Loop.Finished (copyBody session) final :=
    finished_of_not_copyable (copyLoop_stuck ran)
  obtain ⟨taken, taking, _⟩ := copyLoop_takes ran
  refine ⟨final, freed, fun fuel enough => ?_, finished, ?_⟩
  · exact Loop.run_of_passes copyVariant (fun _ _ _ => copyVariant_falls) (Loop.passes_of_run ran)
      finished enough
  · rw [taking.receivingLength]
    exact taking.size (UInt64.le_iff_toNat_le.mpr fitting.sized.size)

theorem solveRecvSocket_ok (fitting : Fitting sock) :
    ∃ final effects, solveRecvSocket session sock = .ok (final, effects) := by
  by_cases pending : 0 < sock.receivingLength
  next =>
    obtain ⟨copied, freed, looped⟩ : ∃ final freed, copyLoop session sock = .ok (final, freed) :=
      copyLoop_ok fitting
    rw [solveRecvSocket_pending pending fitting.sized.within looped]
    split <;> exact ⟨_, _, rfl⟩
  next => exact ⟨sock, [], if_neg pending⟩

end Socket

section Callback

theorem solveRecvCallback_again (again : IterOrder UInt32)
    (ran : solveRecvCallback order state = .ok (state', effects)) :
    solveRecvCallback again state' = .ok (state', []) := by
  obtain ⟨accepted, swept, rfl⟩ := solveRecvCallback_swept ran
  have still : ∀ session ∈ again.visit accepted.keys, ∀ final, accepted.find session = some final →
      visitSocket () session final = .ok ((), final, []) := by
    intro session _ final found
    have key : session ∈ state.acceptedSockets.keys := by
      rw [← Table.sweep_keys swept]
      exact Table.mem_keys_of_find found
    obtain ⟨sock, before⟩ := Option.isSome_iff_exists.mp ((state.acceptedSockets.present session).mp key)
    have inside : session ∈ order.visit state.acceptedSockets.keys :=
      (order.perm _).mem_iff.mpr key
    have foreign : Table.Foreign visitSocket (fun _ => (none : Option Unit)) session
        (order.visit state.acceptedSockets.keys) state.acceptedSockets :=
      fun _ _ _ _ _ _ _ _ _ _ => List.filterMap_none _
    obtain ⟨_, _, result, emitted, visited, found', _⟩ :=
      Table.sweep_visited (order.nodup _) foreign swept inside before
    obtain rfl : result = final := by simpa [found] using found'.symm
    have second := solveRecvSocket_again (visitSocket_ok visited)
    simp [visitSocket, second]
  exact solveRecvCallback_of_swept (Table.sweep_still _ () accepted still)

theorem solveRecvCallback_ok (order : IterOrder UInt32)
    (fitting : ∀ session sock, state.acceptedSockets.find session = some sock → Fitting sock) :
    ∃ state' effects, solveRecvCallback order state = .ok (state', effects) := by
  obtain ⟨⟨_, accepted, effects⟩, swept⟩ := Table.sweep_total (order.nodup state.acceptedSockets) ()
    state.acceptedSockets fun session _ sock found _ => by
      obtain ⟨final, effects, solved⟩ : ∃ final effects,
          solveRecvSocket session sock = .ok (final, effects) :=
        solveRecvSocket_ok (fitting session sock found)
      exact ⟨((), final, effects), show visitSocket () session sock = _ by simp [visitSocket, solved]⟩
  exact ⟨_, effects, solveRecvCallback_of_swept swept⟩

/-- The copy loop ends for every record, and a second `SolveRecvCallback` changes nothing and sends
nothing. -/
theorem solveRecvCallback_settles (order again : IterOrder UInt32) (state : Receiver)
    (fitting : ∀ session sock, state.acceptedSockets.find session = some sock → Fitting sock) :
    (∀ session sock, state.acceptedSockets.find session = some sock → CopyEnds session sock) ∧
      ∃ state' effects, solveRecvCallback order state = .ok (state', effects) ∧
        solveRecvCallback again state' = .ok (state', []) := by
  obtain ⟨state', effects, ran⟩ := solveRecvCallback_ok order fitting
  exact ⟨fun session sock found => copyLoop_ends (fitting session sock found),
    state', effects, ran, solveRecvCallback_again again ran⟩

-- A package without bytes, and one that a request of two bytes ends inside.
def pendingSocket : AcceptedSocket :=
  { (default : AcceptedSocket) with
    session := 7
    base := 0
    receivingLength := 2
    recvBufferSize := 0
    packages := [frame 7 0 [], frame 7 1 [1, 2, 3, 4]] }

def pendingState : Receiver :=
  { Receiver.initial with acceptedSockets := Table.empty.insert 7 pendingSocket }

theorem solveRecvCallback_settles_pending : CopyEnds 7 pendingSocket ∧
    ∃ state' effects, solveRecvCallback (.insertion UInt32) pendingState = .ok (state', effects) ∧
      solveRecvCallback (.insertion UInt32) state' = .ok (state', []) := by
  obtain ⟨ends, settles⟩ := solveRecvCallback_settles (.insertion UInt32) (.insertion UInt32)
    pendingState fun session sock found => by
      rcases Table.find_insert_some found with ⟨_, rfl⟩ | ⟨_, absent⟩
      · exact ⟨⟨by decide, by decide⟩, by simp [pendingSocket]; decide⟩
      · cases absent
  exact ⟨ends 7 pendingSocket (Table.find_insert _ _ _), settles⟩

end Callback

end NetworkProj.Reception
