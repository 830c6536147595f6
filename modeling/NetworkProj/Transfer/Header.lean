import NetworkProj.Transfer.Programs

set_option autoImplicit false

namespace NetworkProj.Transfer

variable {ftps : Ftps} {client : Int32} {fileName file : List UInt8}

def headerMessages (fileName file : List UInt8) : List (List UInt8) :=
  [FtpcPoint.fileSize, FtpcPoint.fileName].filterMap fun point => Ftpc.message { fileName, file, point }

def receives : Ftps → List (List UInt8) → Ftps × List FtpsEffect
  | ftps, [] => (ftps, [])
  | ftps, datagram :: rest =>
    let (next, effects) := ftps.received datagram
    let (final, later) := receives next rest
    (final, effects ++ later)

def opened : FtpsEffect → Option (UInt32 × List UInt8)
  | .opened _ fileSize fileName => some (fileSize, fileName)
  | .wrote .. | .closed _ => none

def reconstructed (ftps : Ftps) (client : Int32) (fileName file : List UInt8) :
    Option (UInt32 × List UInt8) :=
  (receives { ftps with point := .fileSize client } (headerMessages fileName file)).2.findSome? opened

def RoundTrips (ftps : Ftps) (client : Int32) (fileName file : List UInt8) : Prop :=
  ∃ fileSize, reconstructed ftps client fileName file = some (fileSize, fileName) ∧
    fileSize.toNat = file.length

def storedName (ftps : Ftps) (client : Int32) (fileName file : List UInt8) : Option (List UInt8) :=
  (reconstructed ftps client fileName file).map Prod.snd

/-- Whatever RECV returns after the header, `ftps` is not done before the whole file is there. -/
def NeverEarly (ftps : Ftps) (client : Int32) (fileName file : List UInt8) : Prop :=
  ∀ blocks : List (List UInt8),
    .closed client ∈
        (receives { ftps with point := .fileSize client } (headerMessages fileName file ++ blocks)).2 →
      file.length ≤ (blocks.map List.length).sum

theorem headerMessages_eq (fileName file : List UInt8) :
    headerMessages fileName file = [sizeBytes file, nameBytes fileName] := rfl

theorem nameBytes_take (fileName : List UInt8) : nameBytes (fileName.take 20) = nameBytes fileName := by
  simp only [nameBytes, Block.take, Block.pad, List.take_take, Nat.min_eq_left (show 20 ≤ bufLen by decide)]
  rw [List.take_append, List.take_append, List.take_take, List.length_take, Nat.min_self,
    List.take_replicate, List.take_replicate]
  congr 2
  omega

theorem takeWhile_name_take (text : 0 ∉ fileName) (bufIn : Block bufLen) :
    ((bufIn.receive (nameBytes fileName)).set 20 0).bytes.takeWhile (· ≠ 0) = fileName.take 20 := by
  rw [← nameBytes_take]
  exact takeWhile_name (by simp) (fun zero => text (List.mem_of_mem_take zero)) bufIn

theorem receives_header (file : List UInt8) (text : 0 ∉ fileName) (ftps : Ftps) (client : Int32)
    (blocks : List (List UInt8)) :
    ∃ before : Ftps,
      (receives { ftps with point := .fileSize client } (headerMessages fileName file ++ blocks)).2 =
        .opened client (UInt32.ofNat file.length) (fileName.take 20) ::
          ((before.loop client (UInt32.ofNat file.length) (UInt32.ofNat file.length)).2 ++
            (receives
              (before.loop client (UInt32.ofNat file.length) (UInt32.ofNat file.length)).1 blocks).2) := by
  have size : (sizeBytes file).take 4 = sizeBytes file := rfl
  have length := length_nameBytes fileName
  have name : (nameBytes fileName).take 20 = nameBytes fileName := List.take_of_length_le length.le
  rw [headerMessages_eq]
  simp only [List.cons_append, List.nil_append, receives, Ftps.received, size, name, length,
    decoded_sizeBytes, takeWhile_name_take text]
  exact ⟨_, rfl⟩

theorem reconstructed_eq (text : 0 ∉ fileName) :
    reconstructed ftps client fileName file =
      some (UInt32.ofNat file.length, fileName.take 20) := by
  obtain ⟨before, effects⟩ := receives_header file text ftps client []
  rw [List.append_nil] at effects
  rw [reconstructed, effects]
  rfl

section Early

variable {fileSize fileLeft : UInt32}

def counted (fileLeft : UInt32) (block : List UInt8) : Nat :=
  min (min fileLeft.toNat bufLen) block.length

theorem received_body (ftps : Ftps) (client : Int32) (fileSize fileLeft : UInt32)
    (block : List UInt8) :
    ∃ (before : Ftps) (written : List UInt8),
      Ftps.received { ftps with point := .body client fileSize fileLeft, waiting := false } block =
      ((before.loop client fileSize (fileLeft - UInt32.ofNat (counted fileLeft block))).1,
        .wrote client written ::
          (before.loop client fileSize (fileLeft - UInt32.ofNat (counted fileLeft block))).2) := by
  have limit : (if fileLeft.toNat < bufLen then fileLeft.toNat else bufLen) =
      min fileLeft.toNat bufLen := by
    split <;> omega
  have whole : ¬ counted fileLeft block > fileLeft.toNat := by
    unfold counted
    omega
  simp only [Ftps.received, limit, List.length_take]
  rw [← counted, if_neg whole]
  exact ⟨_, _, rfl⟩

theorem left_toNat (fileLeft : UInt32) (block : List UInt8) :
    (fileLeft - UInt32.ofNat (counted fileLeft block)).toNat =
      fileLeft.toNat - counted fileLeft block := by
  apply toNat_sub_ofNat
  unfold counted
  omega

theorem early_loop {blocks : List (List UInt8)}
    (done : .closed client ∈ (ftps.loop client fileSize fileLeft).2 ++
      (receives (ftps.loop client fileSize fileLeft).1 blocks).2) :
    fileLeft.toNat ≤ (blocks.map List.length).sum := by
  induction blocks generalizing ftps fileLeft with
  | nil =>
    by_cases none : fileLeft = 0
    next => simp [none]
    next => simp [Ftps.loop, none, receives] at done
  | cons block rest ih =>
    by_cases none : fileLeft = 0
    next => simp [none]
    next =>
      obtain ⟨before, written, received⟩ := received_body ftps client fileSize fileLeft block
      rw [Ftps.loop, if_neg none] at done
      simp only [receives, received, List.nil_append, List.cons_append, List.mem_cons] at done
      have later := ih (done.resolve_left nofun)
      rw [left_toNat] at later
      unfold counted at later
      rw [List.map_cons, List.sum_cons]
      omega

theorem ends_loop {count : Nat} (left : fileLeft.toNat = count) (ftps : Ftps) :
    .closed client ∈ (ftps.loop client fileSize fileLeft).2 ++
      (receives (ftps.loop client fileSize fileLeft).1 (List.replicate count [0])).2 := by
  induction count generalizing ftps fileLeft with
  | zero =>
    have none : fileLeft = 0 := UInt32.toNat_inj.mp left
    simp [Ftps.loop, none]
  | succ count ih =>
    have some : fileLeft ≠ 0 := fun zero => by
      rw [zero] at left
      cases left
    have one : counted fileLeft [0] = 1 := by
      have most : min fileLeft.toNat bufLen ≥ 1 := by
        rw [left]
        unfold bufLen
        omega
      exact Nat.min_eq_right most
    have less : (fileLeft - UInt32.ofNat (counted fileLeft [0])).toNat = count := by
      rw [left_toNat, left, one, Nat.add_sub_cancel]
    obtain ⟨before, written, received⟩ := received_body ftps client fileSize fileLeft [0]
    rw [Ftps.loop, if_neg some, List.replicate_succ]
    simp only [receives, received, List.nil_append, List.cons_append, List.mem_cons]
    exact .inr (ih less before)

theorem neverEarly_iff (text : 0 ∉ fileName) :
    NeverEarly ftps client fileName file ↔ file.length < 2 ^ 32 := by
  constructor
  · intro never
    have early := never (List.replicate (UInt32.ofNat file.length).toNat [0]) (by
      obtain ⟨before, effects⟩ := receives_header file text ftps client
        (List.replicate (UInt32.ofNat file.length).toNat [0])
      rw [effects]
      exact List.mem_cons_of_mem _ (ends_loop rfl before))
    have sum : ((List.replicate (UInt32.ofNat file.length).toNat [(0 : UInt8)]).map List.length).sum =
        (UInt32.ofNat file.length).toNat := by
      simp
    rw [sum] at early
    exact early.trans_lt (UInt32.ofNat file.length).toNat_lt
  · intro small blocks done
    obtain ⟨before, effects⟩ := receives_header file text ftps client blocks
    rw [effects, List.mem_cons] at done
    have arrived := early_loop (done.resolve_left nofun)
    rwa [UInt32.toNat_ofNat_of_lt' small] at arrived

end Early

section Law

/-- The size and the name of a header come back unless the size needs more than 32 bits or the name
more than twenty bytes; a file of such a size is closed too early, and names that agree in their
first twenty bytes are one. -/
theorem header_roundTrips_iff (ftps : Ftps) (client : Int32) (fileName file : List UInt8)
    (text : 0 ∉ fileName) :
    (RoundTrips ftps client fileName file ↔ file.length < 2 ^ 32 ∧ fileName.length ≤ 20) ∧
      (NeverEarly ftps client fileName file ↔ file.length < 2 ^ 32) ∧
      ∀ ftps' client' fileName' file', 0 ∉ fileName' →
        (storedName ftps client fileName file ≠ storedName ftps' client' fileName' file' ↔
          fileName.take 20 ≠ fileName'.take 20) := by
  refine ⟨?_, neverEarly_iff text, ?_⟩
  · have size : (UInt32.ofNat file.length).toNat = file.length ↔ file.length < 2 ^ 32 := by
      rw [UInt32.toNat_ofNat', Nat.mod_eq_iff_lt (by decide)]
    have name : fileName.take 20 = fileName ↔ fileName.length ≤ 20 := List.take_eq_self_iff fileName
    rw [RoundTrips, reconstructed_eq text, ← size, ← name]
    constructor
    · rintro ⟨fileSize, same, whole⟩
      obtain ⟨rfl, kept⟩ := Prod.mk.inj (Option.some.inj same)
      exact ⟨whole, kept⟩
    · rintro ⟨whole, kept⟩
      exact ⟨_, by rw [kept], whole⟩
  · intro ftps' client' fileName' file' text'
    rw [storedName, storedName, reconstructed_eq text, reconstructed_eq text']
    simp

def idleFtps : Ftps where
  addr := default
  sock := 3
  bufIn := .fill bufLen 0
  point := .accept
  waiting := false

-- Files of one byte, called "a" and "b".
theorem header_roundTrips_short :
    RoundTrips idleFtps 5 [97] [1] ∧ NeverEarly idleFtps 5 [97] [1] ∧
      storedName idleFtps 5 [97] [1] ≠ storedName idleFtps 6 [98] [2] := by
  have law := header_roundTrips_iff idleFtps 5 [97] [1] (by decide)
  exact ⟨law.1.mpr ⟨by decide, by decide⟩, law.2.1.mpr (by decide),
    (law.2.2 idleFtps 6 [98] [2] (by decide)).mpr (by decide)⟩

/-- Two names of 21 bytes that differ in the last one, and a file of 2^32 bytes. -/
theorem header_not_roundTrips :
    ¬ RoundTrips idleFtps 5 (List.replicate 20 97 ++ [97]) [] ∧
      storedName idleFtps 5 (List.replicate 20 97 ++ [97]) [] =
        storedName idleFtps 6 (List.replicate 20 97 ++ [98]) [] ∧
      ¬ RoundTrips idleFtps 5 [97] (List.replicate (2 ^ 32) 0) ∧
      ¬ NeverEarly idleFtps 5 [97] (List.replicate (2 ^ 32) 0) := by
  have text : (0 : UInt8) ∉ List.replicate 20 97 ++ [97] := by decide
  have text' : (0 : UInt8) ∉ List.replicate 20 97 ++ [98] := by decide
  have short : (0 : UInt8) ∉ [(97 : UInt8)] := by decide
  refine ⟨?_, ?_, ?_, ?_⟩
  · rintro ⟨fileSize, same, _⟩
    rw [reconstructed_eq text] at same
    have cut := (Prod.mk.inj (Option.some.inj same)).2
    revert cut
    decide
  · rw [storedName, storedName, reconstructed_eq text, reconstructed_eq text']
    rfl
  · rintro ⟨fileSize, _, whole⟩
    have fits := fileSize.toNat_lt
    rw [whole, List.length_replicate] at fits
    exact lt_irrefl _ fits
  · rw [neverEarly_iff short, List.length_replicate]
    exact lt_irrefl _

end Law

end NetworkProj.Transfer
