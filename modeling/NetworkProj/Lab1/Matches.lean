import Mathlib.Data.List.TakeWhile
import NetworkProj.Model.Lab1Count

set_option autoImplicit false

namespace NetworkProj.Lab1

variable {inFile memory searchString : List UInt8}

def content (memory : List UInt8) : List UInt8 :=
  memory.takeWhile (· ≠ 0)

theorem readContent_eq (memory : List UInt8) (inFileLen : Nat) (rest : List UInt8)
    (room : inFileLen + rest.length ≤ memory.length) (start : inFileLen ≤ intMax) :
    readContent memory inFileLen rest =
      if inFileLen + rest.length ≤ intMax then
        some (memory.take inFileLen ++ rest ++ memory.drop (inFileLen + rest.length))
      else
        none := by
  induction rest generalizing memory inFileLen with
  | nil => simp [readContent, start]
  | cons ch rest ih =>
    rw [List.length_cons] at room
    by_cases fits : inFileLen < intMax
    next =>
      have inside : inFileLen < memory.length := by omega
      have later := ih (memory.set inFileLen ch) (inFileLen + 1)
        (by rw [List.length_set]; omega) (by omega)
      have total : inFileLen + 1 + rest.length = inFileLen + (ch :: rest).length := by
        rw [List.length_cons]
        omega
      have behind : (memory.set inFileLen ch).drop (inFileLen + (ch :: rest).length) =
          memory.drop (inFileLen + (ch :: rest).length) :=
        List.drop_set_of_lt (by simp)
      have front : (memory.set inFileLen ch).take (inFileLen + 1) = memory.take inFileLen ++ [ch] := by
        rw [List.take_add_one, List.take_set_of_le (Nat.le_refl _)]
        simp [inside]
      simp only [readContent, fits, if_true, later, total, behind, front, List.append_assoc,
        List.singleton_append]
    next =>
      have long : ¬ inFileLen + (ch :: rest).length ≤ intMax := by
        rw [List.length_cons]
        omega
      rw [readContent, if_neg fits, if_neg long]

section Content

variable (terminated : 0 ∈ memory)

include terminated in
theorem content_zero : ∃ rest, memory = content memory ++ 0 :: rest := by
  induction memory with
  | nil => cases terminated
  | cons byte memory ih =>
    by_cases zero : byte = 0
    next => exact ⟨memory, by simp [content, zero]⟩
    next =>
      obtain ⟨rest, split⟩ := ih ((List.mem_cons.mp terminated).resolve_left (Ne.symm zero))
      exact ⟨rest, by simpa [content, zero] using split⟩

theorem zero_content (memory : List UInt8) : 0 ∉ content memory := by
  intro inside
  simpa using List.mem_takeWhile_imp inside

theorem nonzero_bytes {before : List UInt8} (nonzero : 0 ∉ before) :
    ∀ byte ∈ before, decide (byte ≠ 0) = true := by
  intro byte inside
  simpa using ne_of_mem_of_not_mem inside nonzero

theorem content_append {before : List UInt8} (nonzero : 0 ∉ before) (rest : List UInt8) :
    content (before ++ rest) = before ++ content rest :=
  List.takeWhile_append_of_pos (nonzero_bytes nonzero)

include terminated in
theorem strstr_content {pointer : Nat} (within : pointer ≤ (content memory).length)
    (searchString : List UInt8) :
    strstr memory pointer searchString =
      some (Search.next (content memory) searchString pointer) := by
  obtain ⟨rest, split⟩ := content_zero terminated
  have behind : memory.drop pointer = (content memory).drop pointer ++ 0 :: rest := by
    conv_lhs => rw [split]
    rw [List.drop_append_of_le_length within]
  have haystack : (memory.drop pointer).takeWhile (· ≠ 0) = (content memory).drop pointer := by
    have nonzero : 0 ∉ (content memory).drop pointer := fun inside =>
      zero_content memory (List.mem_of_mem_drop inside)
    rw [behind]
    exact (content_append nonzero _).trans (List.append_nil _)
  have ended : 0 ∈ memory.drop pointer := by simp [behind]
  simp only [strstr, ended, if_true, haystack, Search.next_drop]

include terminated in
theorem search_counts (nonempty : searchString ≠ []) {start fuel : Nat}
    (within : start ≤ (content memory).length)
    (enough : (Search.remaining (content memory) searchString start).card < fuel) (searchCount : Nat) :
    Loop.run (Count.search memory searchString) fuel
        { searchPtr := Search.next (content memory) searchString start, searchCount } =
      .ok ({
          searchPtr := none
          searchCount :=
            searchCount + (Search.remaining (content memory) searchString start).card }, []) := by
  induction fuel generalizing start searchCount with
  | zero => cases Nat.not_lt_zero _ enough
  | succ fuel ih =>
    cases found : Search.next (content memory) searchString start with
    | none =>
      rw [Search.next_none found]
      exact Loop.run_finished _ _ _ rfl
    | some hit =>
      have less := Search.card_remaining found
      have occurs := (Search.mem_positions nonempty).mp (Search.next_some found).2.1
      have within' := Search.occurs_within occurs nonempty
      have positive := List.length_pos_iff.mpr nonempty
      have inside : hit + 1 ≤ (content memory).length := by omega
      have pass : Count.search memory searchString { searchPtr := some hit, searchCount } =
          .ok (some ({
              searchPtr := Search.next (content memory) searchString (hit + 1)
              searchCount := searchCount + 1 }, [])) := by
        simp only [Count.search, strstr_content terminated inside]
      rw [Loop.run_next _ _ _ _ _ pass, ih inside (by omega), less]
      simp [Nat.add_assoc, Nat.add_comm]

end Content

def loaded (inFile memory : List UInt8) : List UInt8 :=
  inFile ++ memory.drop inFile.length

theorem main_eq (room : inFile.length ≤ memory.length) (nonempty : searchString ≠ []) :
    main inFile memory searchString =
      if searchString.length < maxPath ∧ inFile.length ≤ intMax ∧ 0 ∈ loaded inFile memory then
        some (.numberOfMatches
          (Search.occurrences (content (loaded inFile memory)) searchString))
      else
        none := by
  have read : readContent memory 0 inFile =
      if inFile.length ≤ intMax then some (loaded inFile memory) else none := by
    rw [readContent_eq memory 0 inFile (by omega) (Nat.zero_le _)]
    simp [loaded]
  have given : searchString.length ≠ 0 := by simpa using nonempty
  by_cases fits : searchString.length < maxPath
  · by_cases short : inFile.length ≤ intMax
    · by_cases terminated : 0 ∈ loaded inFile memory
      · have first := strstr_content terminated (Nat.zero_le _) searchString
        have bounded := Search.occurrences_le (content (loaded inFile memory)) searchString
        have shorter := (List.takeWhile_prefix (· ≠ 0) (l := loaded inFile memory)).length_le
        have enough : (Search.remaining (content (loaded inFile memory)) searchString 0).card <
            (loaded inFile memory).length + 1 := by
          rw [Search.remaining_zero]
          exact Nat.lt_succ_of_le (bounded.trans shorter)
        have counts := search_counts terminated nonempty (Nat.zero_le _) enough 0
        simp [main, fits, short, terminated, given, read, first, counts, Search.occurrences]
      · simp [main, fits, short, terminated, given, read, strstr]
    · simp [main, fits, short, given, read]
  · simp [main, fits]

-- Behind a zero in the file the string does not occur; without one, not across the file's end.
structure Countable (inFile memory searchString : List UInt8) : Prop where
  fits : searchString.length < maxPath
  short : inFile.length ≤ intMax
  terminated : 0 ∈ loaded inFile memory
  behindZero : ¬ searchString <:+: inFile.dropWhile (· ≠ 0)
  withinFile : 0 ∉ inFile → ∀ position,
    Search.Occurs (inFile ++ content (memory.drop inFile.length)) searchString position →
      position + searchString.length ≤ inFile.length

section Zeros

variable {before rest : List UInt8}

theorem occurs_zero (nonzero : 0 ∉ searchString) {position : Nat}
    (occurs : Search.Occurs (before ++ 0 :: rest) searchString position) :
    position + searchString.length ≤ before.length ∨ searchString <:+: 0 :: rest := by
  by_cases later : before.length < position
  next =>
    have behind : (before ++ 0 :: rest).drop position = (0 :: rest).drop (position - before.length) := by
      rw [List.drop_append, List.drop_eq_nil_of_le later.le, List.nil_append]
    unfold Search.Occurs at occurs
    rw [behind] at occurs
    exact .inr (occurs.isInfix.trans (List.drop_suffix _ _).isInfix)
  next =>
    refine .inl (not_lt.mp fun beyond => nonzero ?_)
    have index : before.length - position < searchString.length := by omega
    have there : position + (before.length - position) = before.length := by omega
    have zero : searchString[before.length - position] = 0 := by
      rw [occurs.getElem index, List.getElem_drop]
      simp [there]
    exact zero ▸ List.getElem_mem index

theorem occurrences_zero (nonempty : searchString ≠ []) (nonzero : 0 ∉ searchString) :
    Search.occurrences before searchString = Search.occurrences (before ++ 0 :: rest) searchString ↔
      ¬ searchString <:+: 0 :: rest := by
  have positive := List.length_pos_iff.mpr nonempty
  rw [Search.occurrences_append_iff nonempty]
  constructor
  · rintro bounded ⟨front, back, split⟩
    have occurs : Search.Occurs (before ++ 0 :: rest) searchString (before.length + front.length) := by
      unfold Search.Occurs
      rw [← split, ← List.drop_drop, List.drop_left, List.append_assoc, List.drop_left]
      exact List.prefix_append _ _
    have within := bounded _ occurs
    omega
  · intro absent position occurs
    exact (occurs_zero nonzero occurs).resolve_right absent

end Zeros

-- What `strstr` can see of the file and behind it has the file's occurrences.
theorem occurrences_loaded (nonempty : searchString ≠ []) (nonzero : 0 ∉ searchString) :
    Search.occurrences inFile searchString =
        Search.occurrences (content (loaded inFile memory)) searchString ↔
      (¬ searchString <:+: inFile.dropWhile (· ≠ 0)) ∧
        (0 ∉ inFile → ∀ position,
          Search.Occurs (inFile ++ content (memory.drop inFile.length)) searchString position →
            position + searchString.length ≤ inFile.length) := by
  by_cases zero : 0 ∈ inFile
  next =>
    obtain ⟨rest, split⟩ := content_zero zero
    have before := zero_content inFile
    generalize content inFile = text at split before
    subst split
    have counted : content (loaded (text ++ 0 :: rest) memory) = text := by
      rw [loaded, List.append_assoc, content_append before]
      exact List.append_nil _
    have behind : (text ++ 0 :: rest).dropWhile (· ≠ 0) = 0 :: rest := by
      rw [List.dropWhile_append_of_pos (nonzero_bytes before)]
      rfl
    rw [counted, behind, eq_comm, occurrences_zero nonempty nonzero]
    simp
  next =>
    have text := content_append zero (memory.drop inFile.length)
    have behind : inFile.dropWhile (· ≠ 0) = [] :=
      List.dropWhile_eq_nil_iff.mpr (nonzero_bytes zero)
    rw [loaded, text, behind, Search.occurrences_append_iff nonempty]
    simp [zero, nonempty]

/-- `count` reports every occurrence, overlapping ones included, exactly for these inputs. -/
theorem main_counts_occurrences (room : inFile.length ≤ memory.length) (nonempty : searchString ≠ [])
    (nonzero : 0 ∉ searchString) :
    main inFile memory searchString =
        some (.numberOfMatches (Search.occurrences inFile searchString)) ↔
      Countable inFile memory searchString := by
  rw [main_eq room nonempty]
  constructor
  · intro counted
    split at counted
    next defined =>
      have same : Search.occurrences inFile searchString =
          Search.occurrences (content (loaded inFile memory)) searchString := by
        simpa using counted.symm
      obtain ⟨behindZero, withinFile⟩ := (occurrences_loaded nonempty nonzero).mp same
      exact ⟨defined.1, defined.2.1, defined.2.2, behindZero, withinFile⟩
    next => cases counted
  · intro countable
    have same := (occurrences_loaded nonempty nonzero).mpr ⟨countable.behindZero, countable.withinFile⟩
    rw [if_pos ⟨countable.fits, countable.short, countable.terminated⟩, same]

theorem main_counts_overlapping : main [97, 97, 97] [0, 0, 0, 0] [97, 97] =
    some (.numberOfMatches (Search.occurrences [97, 97, 97] [97, 97])) :=
  (main_counts_occurrences (by decide) (by decide) (by decide)).mpr {
    fits := by decide
    short := by decide
    terminated := by decide
    behindZero := by decide
    withinFile := fun _ _ occurs => Search.occurs_within occurs (by decide) }

/-- `a` behind a zero in the file is not counted, and `a` behind a file `a` is. -/
theorem main_miscounts :
    main [0, 97] [0, 0, 0] [97] = some (.numberOfMatches 0) ∧
      Search.occurrences [0, 97] [97] = 1 ∧
      main [97] [0, 97, 0] [97] = some (.numberOfMatches 2) ∧
      Search.occurrences [97] [97] = 1 := by
  decide

end NetworkProj.Lab1
