import NetworkProj.Model.Lab2Ftps

set_option autoImplicit false

namespace NetworkProj.Lab2

variable {client : Client} {fileSize : UInt32}

def Read.data : Read → List UInt8
  | .error => []
  | .bytes data => data

def received (client : Client) (count : Nat) : List UInt8 :=
  (List.range count).flatMap fun index => (client.reads index).data

def start (fileSize : UInt32) (bufIn : Block bufInLen) : Ftps where
  fileLeft := fileSize
  bufIn
  count := 0

/-- The loop ends, and the file holds the bytes received, as far as the file goes. -/
def Survives (client : Client) (fileSize : UInt32) (bufIn : Block bufInLen) : Prop :=
  ∃ fuel final written,
    Loop.run (Ftps.receive client) fuel (start fileSize bufIn) = .ok (final, written) ∧
      Loop.Finished (Ftps.receive client) final ∧
      written = (received client final.count).take fileSize.toNat

structure Receiving (client : Client) (fileSize : UInt32) (written : List UInt8) (ftps : Ftps) :
    Prop where
  written : written = (received client ftps.count).take fileSize.toNat
  left : ftps.fileLeft.toNat = fileSize.toNat - (received client ftps.count).length

theorem received_succ (client : Client) (count : Nat) :
    received client (count + 1) = received client count ++ (client.reads count).data := by
  simp [received, List.range_succ]

theorem receiving_start (client : Client) (fileSize : UInt32) (bufIn : Block bufInLen) :
    Receiving client fileSize [] (start fileSize bufIn) where
  written := (List.take_nil).symm
  left := rfl

theorem passed_data (ftps : Ftps) {data : List UInt8} (short : data.length ≤ bufInLen) :
    (ftps.passed data).1.fileLeft.toNat = ftps.fileLeft.toNat - data.length ∧
      (ftps.passed data).2 = data.take ftps.fileLeft.toNat := by
  have rVal : (if data.length > ftps.fileLeft.toNat then ftps.fileLeft.toNat else data.length) =
      min ftps.fileLeft.toNat data.length := by
    split <;> omega
  have stored := Block.receive_bytes ftps.bufIn short
  simp only [Ftps.passed, rVal]
  constructor
  · rw [toNat_sub_ofNat (Nat.min_le_left _ _)]
    omega
  · rw [Block.take, stored, List.take_append_of_le_length (Nat.min_le_right _ _), ← List.take_take,
      List.take_length]

theorem receive_pass {ftps next : Ftps} {emitted : List UInt8}
    (pass : Ftps.receive client ftps = .ok (some (next, emitted))) :
    ∃ data, client.reads ftps.count = .bytes data ∧ ftps.fileLeft ≠ 0 ∧
      next.count = ftps.count + 1 ∧
      next.fileLeft.toNat = ftps.fileLeft.toNat - data.length ∧
      emitted = data.take ftps.fileLeft.toNat := by
  unfold Ftps.receive at pass
  split at pass
  · cases pass
  next more =>
    split at pass
    · cases pass
    next data read =>
      obtain ⟨left, written⟩ := passed_data ftps (client.short _ _ read)
      cases pass
      exact ⟨data, read, more, rfl, left, written⟩

theorem receiving_pass {written : List UInt8} {ftps next : Ftps} {emitted : List UInt8}
    (receiving : Receiving client fileSize written ftps)
    (pass : Ftps.receive client ftps = .ok (some (next, emitted))) :
    Receiving client fileSize (written ++ emitted) next := by
  obtain ⟨data, read, more, count, left, rfl⟩ := receive_pass pass
  have stream : received client next.count = received client ftps.count ++ data := by
    rw [count, received_succ, read]
    rfl
  constructor
  · rw [receiving.written, receiving.left, stream, List.take_append]
  · rw [left, receiving.left, stream, List.length_append]
    omega

def Stops (client : Client) (fileSize : UInt32) (count : Nat) : Prop :=
  fileSize.toNat ≤ (received client count).length ∨ client.reads count = .error

theorem stops_of_finished {written : List UInt8} {ftps : Ftps}
    (receiving : Receiving client fileSize written ftps)
    (finished : Loop.Finished (Ftps.receive client) ftps) : Stops client fileSize ftps.count := by
  unfold Loop.Finished Ftps.receive at finished
  split at finished
  next done =>
    have left := receiving.left
    rw [done] at left
    exact .inl (Nat.le_of_sub_eq_zero left.symm)
  next =>
    split at finished
    next failed => exact .inr failed
    next => cases finished

theorem not_stops_of_pass {written emitted : List UInt8} {ftps next : Ftps}
    (receiving : Receiving client fileSize written ftps)
    (pass : Ftps.receive client ftps = .ok (some (next, emitted))) :
    ¬ Stops client fileSize ftps.count := by
  obtain ⟨data, read, more, _⟩ := receive_pass pass
  rintro (whole | failed)
  · have left := receiving.left
    rw [Nat.sub_eq_zero_of_le whole] at left
    exact more (UInt32.toNat_inj.mp left)
  · rw [read] at failed
    cases failed

theorem stops_of_survives {bufIn : Block bufInLen} (survives : Survives client fileSize bufIn) :
    ∃ count, Stops client fileSize count := by
  obtain ⟨fuel, final, written, ran, finished, _⟩ := survives
  have receiving := Loop.run_invariant (Receiving client fileSize)
    (fun _ _ _ _ receiving pass => receiving_pass receiving pass) []
    (receiving_start client fileSize bufIn) ran
  exact ⟨final.count, stops_of_finished receiving finished⟩

-- The reads before the one that stops the loop are the variant.
theorem survives_of_stops {count : Nat} (stops : Stops client fileSize count)
    (bufIn : Block bufInLen) : Survives client fileSize bufIn := by
  have begun := receiving_start client fileSize bufIn
  have kept (state next : Ftps) (emitted : List UInt8)
      (holds : state.count ≤ count ∧ ∃ written, Receiving client fileSize written state)
      (pass : Ftps.receive client state = .ok (some (next, emitted))) :
      count - next.count < count - state.count ∧
        next.count ≤ count ∧ ∃ written, Receiving client fileSize written next := by
    obtain ⟨within, written, receiving⟩ := holds
    have before : state.count ≠ count := fun same => not_stops_of_pass receiving pass (same ▸ stops)
    obtain ⟨_, _, _, counted, _⟩ := receive_pass pass
    exact ⟨by omega, by omega, _, receiving_pass receiving pass⟩
  obtain ⟨final, written, ran⟩ : ∃ final written,
      Loop.run (Ftps.receive client) (count + 1) (start fileSize bufIn) = .ok (final, written) := by
    rcases Loop.run (Ftps.receive client) (count + 1) (start fileSize bufIn) with
      failed | ⟨final, written⟩
    · exact failed.elim
    · exact ⟨final, written, rfl⟩
  have finished := Loop.run_done_of
    (fun state : Ftps => state.count ≤ count ∧ ∃ written, Receiving client fileSize written state)
    (fun state => count - state.count)
    (fun state next emitted holds pass => (kept state next emitted holds pass).2)
    (fun state next emitted holds pass => (kept state next emitted holds pass).1)
    ⟨Nat.zero_le count, [], begun⟩ (Nat.lt_succ_of_le (Nat.sub_le count _)) ran
  have receiving := Loop.run_invariant (Receiving client fileSize)
    (fun _ _ _ _ receiving pass => receiving_pass receiving pass) [] begun ran
  exact ⟨_, final, written, ran, finished, receiving.written⟩

/-- The receive loop ends just when the client sends the whole file or one of the reads fails. -/
theorem survives_iff (client : Client) (fileSize : UInt32) (bufIn : Block bufInLen) :
    Survives client fileSize bufIn ↔
      ∃ count, fileSize.toNat ≤ (received client count).length ∨ client.reads count = .error := by
  constructor
  · exact stops_of_survives
  · rintro ⟨count, stops⟩
    exact survives_of_stops stops bufIn

def silent : Client where
  reads _ := .bytes []
  short _ _ read := by
    obtain rfl := Read.bytes.inj read
    exact Nat.zero_le _
  ended _ _ := rfl

/-- It announces one byte, and the server is never back at `accept`. -/
theorem not_survives_silent : ¬ Survives silent 1 (.fill bufInLen 0) := by
  intro survives
  obtain ⟨count, whole | failed⟩ := stops_of_survives survives
  · have nothing : received silent count = [] := by
      simp [received, silent, Read.data]
    rw [nothing] at whole
    exact absurd whole (by decide)
  · cases failed

end NetworkProj.Lab2
