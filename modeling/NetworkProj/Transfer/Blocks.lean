import NetworkProj.Transfer.Programs
import NetworkProj.Receiver.Stream

set_option autoImplicit false

namespace NetworkProj.Reception

section Lengths

variable {payloads : List (List UInt8)}

theorem flatten_take_lt (some : ∀ block ∈ payloads, block ≠ []) {few many : Nat}
    (less : few < many) (within : many ≤ payloads.length) :
    (payloads.take few).flatten.length < (payloads.take many).flatten.length := by
  have whole : payloads.take many = payloads.take few ++ (payloads.drop few).take (many - few) := by
    rw [← List.take_add, Nat.add_sub_cancel' less.le]
  have inside : few < payloads.length := by omega
  obtain ⟨extra, difference⟩ : ∃ extra, many - few = extra + 1 := ⟨many - few - 1, by omega⟩
  have positive := List.length_pos_iff.mpr (some _ (List.getElem_mem inside))
  rw [whole, difference, List.drop_eq_getElem_cons inside, List.take_succ_cons, List.flatten_append,
    List.flatten_cons, List.length_append, List.length_append]
  omega

theorem blocks_prefix {blocks : List (List UInt8)}
    (lengths : blocks.map List.length <+: payloads.map List.length)
    (bytes : blocks.flatten <+: payloads.flatten) : blocks <+: payloads := by
  induction blocks generalizing payloads with
  | nil => exact List.nil_prefix
  | cons block rest ih =>
    cases payloads with
    | nil => simp at lengths
    | cons payload later =>
      rw [List.map_cons, List.map_cons, List.cons_prefix_cons] at lengths
      obtain ⟨length, lengths⟩ := lengths
      obtain ⟨tail, whole⟩ := bytes
      rw [List.flatten_cons, List.flatten_cons, List.append_assoc] at whole
      obtain ⟨same, others⟩ := List.append_inj whole length
      exact List.cons_prefix_cons.mpr ⟨same, ih lengths ⟨tail, others⟩⟩

end Lengths

variable {payloads : List (List UInt8)} {effects : List SessionEffect} {sock : AcceptedSocket}

theorem streams_blocks (streams : Streams payloads effects sock)
    (lengths : requests effects <+: payloads.map List.length) : blocks effects <+: payloads := by
  apply blocks_prefix
  · rw [streams.answered] at lengths
    exact (List.prefix_append _ _).trans lengths
  · have delivered := streams.delivered
    exact (List.prefix_append _ _).trans
      (delivered ▸ List.IsPrefix.flatten (List.take_prefix _ _))

theorem straddles_pos {base : UInt32} {want : Nat} {packages : List TrollMessage}
    (straddles : Straddles base want packages) : 0 < want := by
  cases packages with
  | nil => exact straddles.elim
  | cons now rest => exact straddles.2.1

theorem streams_unsplit (streams : Streams payloads effects sock)
    (some : ∀ block ∈ payloads, block ≠ [] ∧ block.length ≤ bufLen)
    (lengths : requests effects <+: payloads.map List.length)
    (pending : sock.receivingLength ≠ 0) :
    ¬ Straddles sock.base (missing sock) sock.packages := by
  obtain ⟨later, whole⟩ := streams_blocks streams lengths
  have answered := streams.answered
  rw [Reception.pending, if_neg pending] at answered
  rw [answered, ← whole, List.map_append, List.prefix_append_right_inj] at lengths
  cases later with
  | nil => simp at lengths
  | cons payload later =>
    have asked : sock.receivingLength.toNat = payload.length := by simpa using lengths
    have short := (some payload (by simp [← whole])).2
    have size := UInt64.le_iff_toNat_le.mp streams.size
    have gathered : (buffered sock).length = sock.recvBufferSize.toNat :=
      Block.length_take _ _ (by omega)
    have bytes := congrArg List.length streams.delivered
    rw [List.length_append, gathered] at bytes
    have before : payloads.take (blocks effects).length = blocks effects := by
      rw [← whole, List.take_left]
    have behind : payloads.take ((blocks effects).length + 1) = blocks effects ++ [payload] := by
      rw [← whole, List.take_length_add_append]
      rfl
    have within : (blocks effects).length + 1 ≤ payloads.length := by
      rw [← whole, List.length_append, List.length_cons]
      omega
    -- No payload is empty, so the number of bytes says how many packages were taken.
    have nonempty (block : List UInt8) (member : block ∈ payloads) : block ≠ [] :=
      (some block member).1
    have lower : (blocks effects).length ≤ sock.base.toNat := by
      by_contra less
      have shorter := flatten_take_lt nonempty (Nat.lt_of_not_ge less) (by omega)
      rw [before] at shorter
      omega
    have upper : sock.base.toNat ≤ (blocks effects).length + 1 := by
      by_contra more
      have longer := flatten_take_lt nonempty (Nat.lt_of_not_ge more) streams.base
      rw [behind, List.flatten_concat, List.length_append] at longer
      omega
    rcases Nat.eq_or_lt_of_le lower with here | next
    · -- Nothing is gathered, and the next package is as long as the request.
      rw [← here, before] at bytes
      have wanted : missing sock = payload.length := by
        unfold missing
        omega
      intro straddles
      cases packages : sock.packages with
      | nil => simp [packages, Straddles] at straddles
      | cons now rest =>
        rw [packages] at straddles
        obtain ⟨number, _, ends⟩ := straddles
        obtain ⟨carried, fits⟩ := streams.stored now (by simp [packages])
        rw [number, ← here, ← whole, List.getElem?_append_right le_rfl, Nat.sub_self] at carried
        have length := congrArg List.length (Option.some.inj carried)
        rw [TrollMessage.payload, Block.length_take _ _ fits] at length
        rcases ends with longer | later
        · omega
        · have more := straddles_pos later
          omega
    · -- All of it is gathered.
      have full : sock.base.toNat = (blocks effects).length + 1 := by omega
      rw [full, behind, List.flatten_concat, List.length_append] at bytes
      have wanted : missing sock = 0 := by
        unfold missing
        omega
      intro straddles
      exact absurd (straddles_pos straddles) (by omega)

end NetworkProj.Reception
