import Mathlib.Data.List.TakeWhile
import NetworkProj.Model.Transfer

set_option autoImplicit false

namespace NetworkProj.Transfer

section Plan

/-- The parts of a file that `fread` gives one after the other. -/
def chunks (file : List UInt8) : List (List UInt8) :=
  if _ : file = [] then [] else file.take bufLen :: chunks (file.drop bufLen)
termination_by file.length
decreasing_by
  rw [List.length_drop]
  exact Nat.sub_lt (List.length_pos_iff.mpr ‹_›) (by decide)

@[simp] theorem chunks_nil : chunks [] = [] := by
  rw [chunks, dif_pos rfl]

theorem chunks_of_ne {file : List UInt8} (some : file ≠ []) :
    chunks file = file.take bufLen :: chunks (file.drop bufLen) := by
  rw [chunks, dif_neg some]

theorem chunks_bounds (file : List UInt8) :
    (∀ chunk ∈ chunks file, chunk ≠ [] ∧ chunk.length ≤ bufLen) ∧
      bufLen * (chunks file).length < file.length + bufLen := by
  fun_induction chunks file with
  | case1 => simp [bufLen]
  | case2 file some ih =>
    obtain ⟨each, count⟩ := ih
    have positive := List.length_pos_iff.mpr some
    constructor
    · intro chunk member
      rcases List.mem_cons.mp member with rfl | later
      · refine ⟨?_, by simp⟩
        rw [← List.length_pos_iff, List.length_take]
        exact Nat.lt_min.mpr ⟨by decide, positive⟩
      · exact each chunk later
    · rw [List.length_drop] at count
      rw [List.length_cons]
      unfold bufLen at count ⊢
      omega

def sizeBytes (file : List UInt8) : List UInt8 :=
  [(UInt64.ofNat file.length >>> 24).toUInt8, (UInt64.ofNat file.length >>> 16).toUInt8,
    (UInt64.ofNat file.length >>> 8).toUInt8, (UInt64.ofNat file.length).toUInt8]

def nameBytes (fileName : List UInt8) : List UInt8 :=
  (Block.pad bufLen fileName).take 20

def plan (fileName file : List UInt8) : List (List UInt8) :=
  sizeBytes file :: nameBytes fileName :: chunks file

theorem length_nameBytes (fileName : List UInt8) : (nameBytes fileName).length = 20 :=
  Block.length_take _ 20 (by decide)

theorem plan_blocks (fileName file : List UInt8) :
    ∀ block ∈ plan fileName file, block ≠ [] ∧ block.length ≤ bufLen := by
  intro block member
  rcases List.mem_cons.mp member with rfl | member
  · simp [sizeBytes, bufLen]
  · rcases List.mem_cons.mp member with rfl | member
    · have length := length_nameBytes fileName
      exact ⟨List.ne_nil_of_length_eq_add_one length, by rw [length]; decide⟩
    · exact (chunks_bounds file).1 block member

theorem plan_few (fileName : List UInt8) {file : List UInt8} (size : file.length < 2 ^ 32) :
    (plan fileName file).length < 2 ^ 32 := by
  have count := (chunks_bounds file).2
  simp only [plan, List.length_cons]
  unfold bufLen at count
  omega

end Plan

section Client

variable {ftpc : Ftpc}

def todo (ftpc : Ftpc) : List (List UInt8) :=
  match ftpc.point with
  | .connect | .fileSize => plan ftpc.fileName ftpc.file
  | .fileName => nameBytes ftpc.fileName :: chunks ftpc.file
  | .body _ position => chunks (ftpc.file.drop position)
  | .exited _ => []

/-- The SENDs made and, while the program runs, those to come are the plan. -/
structure Follows (sent : List (List UInt8)) (ftpc : Ftpc) : Prop where
  within : sent <+: plan ftpc.fileName ftpc.file
  next : (∀ code, ftpc.point ≠ .exited code) → sent ++ todo ftpc = plan ftpc.fileName ftpc.file
  -- `file_left` is what lies behind the position in the file.
  left : ∀ fileLeft position, ftpc.point = .body fileLeft position →
    fileLeft.toNat = (ftpc.file.drop position).length ∧ 0 < fileLeft.toNat

theorem follows_exited {sent : List (List UInt8)}
    (within : sent <+: plan ftpc.fileName ftpc.file) (code : Nat) :
    Follows sent { ftpc with point := .exited code } where
  within := within
  next running := absurd rfl (running code)
  left _ _ body := by cases body

theorem follows_loop {sent : List (List UInt8)} {fileLeft : UInt64} {position : Nat}
    (whole : sent ++ chunks (ftpc.file.drop position) = plan ftpc.fileName ftpc.file)
    (left : fileLeft.toNat = (ftpc.file.drop position).length) :
    Follows sent { ftpc with point := Ftpc.loop fileLeft position } := by
  have within : sent <+: plan ftpc.fileName ftpc.file := ⟨_, whole⟩
  by_cases done : fileLeft = 0
  · rw [Ftpc.loop, if_pos done]
    exact follows_exited within 0
  · rw [Ftpc.loop, if_neg done]
    refine ⟨within, fun _ => whole, ?_⟩
    rintro _ _ ⟨⟩
    exact ⟨left, Nat.pos_of_ne_zero fun zero => done (UInt64.toNat_inj.mp zero)⟩

theorem follows_connected (follows : Follows [] ftpc) (connecting : ftpc.point = .connect)
    (value : Int32) : Follows [] (ftpc.returned value) := by
  rw [Ftpc.returned]
  split
  · exact follows_exited follows.within 1
  · simp only [connecting]
    exact ⟨follows.within, fun _ => rfl, nofun⟩

theorem rVal_whole {fileLeft : UInt64} {position : Nat}
    (left : fileLeft.toNat = (ftpc.file.drop position).length) :
    ftpc.rVal fileLeft position = (ftpc.fread position).length := by
  rw [Ftpc.rVal, if_neg]
  rw [left, Ftpc.fread, List.length_take]
  omega

theorem follows_sent {sent : List (List UInt8)} {block : List UInt8}
    (small : ftpc.file.length < 2 ^ 64) (follows : Follows sent ftpc)
    (sending : ftpc.message = some block) (value : Int32) :
    Follows (sent ++ [block]) (ftpc.returned value) := by
  have stops (rest : List (List UInt8))
      (whole : (sent ++ [block]) ++ rest = plan ftpc.fileName ftpc.file) :
      Follows (sent ++ [block]) { ftpc with point := .exited 1 } :=
    follows_exited ⟨rest, whole⟩ 1
  rw [Ftpc.returned]
  rw [Ftpc.message] at sending
  have next := follows.next
  rw [todo] at next
  cases at_ : ftpc.point with
  | connect | exited code => simp [at_] at sending
  | fileSize =>
    simp only [at_] at sending next ⊢
    obtain rfl := Option.some.inj sending
    have whole := (List.append_assoc sent [sizeBytes ftpc.file] _).trans (next nofun)
    split
    · exact stops _ whole
    · exact ⟨⟨_, whole⟩, fun _ => whole, nofun⟩
  | fileName =>
    simp only [at_] at sending next ⊢
    obtain rfl := Option.some.inj sending
    have whole := (List.append_assoc sent [nameBytes ftpc.fileName] _).trans (next nofun)
    split
    · exact stops _ whole
    · exact follows_loop whole (UInt64.toNat_ofNat_of_lt' small)
  | body fileLeft position =>
    simp only [at_] at sending next ⊢
    obtain ⟨left, positive⟩ := follows.left fileLeft position at_
    have rVal := rVal_whole left
    have some : ftpc.file.drop position ≠ [] := List.ne_nil_of_length_pos (left ▸ positive)
    rw [rVal, List.take_length] at sending
    obtain rfl := Option.some.inj sending
    have whole := next nofun
    rw [chunks_of_ne some, List.append_cons] at whole
    split
    · exact stops _ whole
    · have read : (ftpc.fread position).length = min bufLen fileLeft.toNat := by
        rw [Ftpc.fread, List.length_take, left]
      have fits : (ftpc.fread position).length < UInt64.size := by
        rw [read]
        exact (Nat.min_le_right _ _).trans_lt fileLeft.toNat_lt
      have drop : ftpc.file.drop (position + (ftpc.fread position).length) =
          (ftpc.file.drop position).drop bufLen := by
        rw [List.length_drop] at left
        rw [List.drop_drop, List.drop_eq_drop_iff, read]
        omega
      apply follows_loop
      · rw [drop]
        exact whole
      · have few : UInt64.ofNat (ftpc.fread position).length ≤ fileLeft := by
          rw [UInt64.le_iff_toNat_le, UInt64.toNat_ofNat_of_lt' fits, read]
          omega
        rw [drop, rVal, UInt64.toNat_sub_of_le _ _ few, UInt64.toNat_ofNat_of_lt' fits,
          List.length_drop, ← left, read]
        omega

end Client

section Server

def record (client : Int32) (fileName file : List UInt8) (writes : List (List UInt8)) :
    List FtpsEffect :=
  .opened client (UInt32.ofNat file.length) fileName :: writes.map (.wrote client)

/-- The blocks of the plan that `ftps` has not read, and what it has done at that point. -/
inductive Progress (client : Int32) (fileName file : List UInt8) :
    FtpsPoint → List (List UInt8) → List FtpsEffect → Prop where
  | fileSize : Progress client fileName file (.fileSize client) (plan fileName file) []
  | fileName :
      Progress client fileName file (.fileName client (UInt32.ofNat file.length))
        (nameBytes fileName :: chunks file) []
  | body (writes : List (List UInt8)) (rest : List UInt8) (whole : writes.flatten ++ rest = file)
      (more : rest ≠ []) :
      Progress client fileName file
        (.body client (UInt32.ofNat file.length) (UInt32.ofNat rest.length)) (chunks rest)
        (record client fileName file writes)

variable {client : Int32} {fileName file : List UInt8} {ftps : Ftps}
  {block : List UInt8} {unread : List (List UInt8)} {done : List FtpsEffect}

theorem progress_asks (size : file.length < 2 ^ 32)
    (progress : Progress client fileName file ftps.point unread done) :
    ∃ block rest, unread = block :: rest ∧ ftps.point.recv? = some (client, block.length) := by
  generalize ftps.point = point at progress
  cases progress with
  | fileSize => exact ⟨_, _, rfl, rfl⟩
  | fileName => exact ⟨_, _, rfl, by rw [length_nameBytes]; rfl⟩
  | body writes rest whole more =>
    have length : writes.flatten.length + rest.length = file.length := by
      rw [← whole, List.length_append]
    refine ⟨_, _, chunks_of_ne more, ?_⟩
    rw [FtpsPoint.recv?, UInt32.toNat_ofNat_of_lt' (show rest.length < UInt32.size by
      unfold UInt32.size; omega), List.length_take]
    congr 2
    split <;> omega

def Advanced (client : Int32) (fileName file : List UInt8) (unread : List (List UInt8))
    (done : List FtpsEffect) (point : FtpsPoint) : Prop :=
  Progress client fileName file point unread done ∨
    unread = [] ∧ point = .accept ∧
      ∃ writes, writes.flatten = file ∧ done = record client fileName file writes ++ [.closed client]

theorem loop_advanced (size : file.length < 2 ^ 32) (ftps : Ftps) (writes : List (List UInt8))
    {rest : List UInt8} (whole : writes.flatten ++ rest = file) :
    Advanced client fileName file (chunks rest)
      (record client fileName file writes ++
        (ftps.loop client (UInt32.ofNat file.length) (UInt32.ofNat rest.length)).2)
      (ftps.loop client (UInt32.ofNat file.length) (UInt32.ofNat rest.length)).1.point := by
  have length : writes.flatten.length + rest.length = file.length := by
    rw [← whole, List.length_append]
  have left : (UInt32.ofNat rest.length).toNat = rest.length :=
    UInt32.toNat_ofNat_of_lt' (by unfold UInt32.size; omega)
  unfold Ftps.loop
  by_cases more : rest = []
  · subst more
    exact .inr ⟨chunks_nil, rfl, writes, by simpa using whole, rfl⟩
  · have nonzero : UInt32.ofNat rest.length ≠ 0 := fun zero => by
      rw [zero] at left
      exact more (List.length_eq_zero_iff.mp left.symm)
    rw [if_neg nonzero, List.append_nil]
    exact .inl (.body writes rest whole more)

-- The bytes of an `unsigned long` are put together to an `unsigned int`.
theorem decoded_sizeBytes (file : List UInt8) (bufIn : Block bufLen) :
    word32 ((bufIn.receive (sizeBytes file)).bytes.getD 0 0)
        ((bufIn.receive (sizeBytes file)).bytes.getD 1 0)
        ((bufIn.receive (sizeBytes file)).bytes.getD 2 0)
        ((bufIn.receive (sizeBytes file)).bytes.getD 3 0) = UInt32.ofNat file.length := by
  have large : 4 ≤ bufLen := by decide
  have fileSize := word32_bytes_long (UInt64.ofNat file.length)
  rw [sizeBytes, word32_received bufIn large, fileSize, UInt64.toUInt32_ofNat']

theorem takeWhile_name (short : fileName.length ≤ 20) (text : 0 ∉ fileName) (bufIn : Block bufLen) :
    ((bufIn.receive (nameBytes fileName)).set 20 0).bytes.takeWhile (· ≠ 0) = fileName := by
  have name : nameBytes fileName = fileName ++ List.replicate (20 - fileName.length) 0 := by
    have within : 20 - fileName.length ≤ bufLen := (Nat.sub_le _ _).trans (by decide)
    simp only [nameBytes, Block.take, Block.pad, List.take_take]
    rw [show min 20 bufLen = 20 from rfl, List.take_append, List.take_of_length_le short,
      List.take_replicate, Nat.min_eq_left within]
  have length := length_nameBytes fileName
  have bytes : ((bufIn.receive (nameBytes fileName)).set 20 0).bytes =
      fileName ++ (List.replicate (20 - fileName.length) 0 ++ (bufIn.bytes.drop 20).set 0 0) := by
    have stored := Block.receive_bytes bufIn (show (nameBytes fileName).length ≤ bufLen by
      rw [length]; decide)
    change (bufIn.receive (nameBytes fileName)).bytes.set 20 0 = _
    rw [stored, length, List.set_append_right _ _ length.le, length, name, List.append_assoc]
  rw [bytes, List.takeWhile_append_of_pos]
  · -- A name of twenty bytes is ended by the zero that `ftps` writes, a shorter one by its padding.
    cases 20 - fileName.length with
    | zero =>
      have more : 20 < bufIn.bytes.length := by rw [bufIn.sized]; decide
      rw [List.drop_eq_getElem_cons more]
      simp
    | succ zeros => simp [List.replicate_succ]
  · intro byte member
    exact decide_eq_true fun zero => text (zero ▸ member)

theorem received_advanced (size : file.length < 2 ^ 32) (short : fileName.length ≤ 20)
    (text : 0 ∉ fileName)
    (progress : Progress client fileName file ftps.point (block :: unread) done) :
    Advanced client fileName file unread (done ++ (ftps.received block).2)
      (ftps.received block).1.point := by
  generalize at_ : ftps.point = point at progress
  generalize read : block :: unread = blocks at progress
  cases progress with
  | fileSize =>
    obtain ⟨rfl, rfl⟩ := List.cons.inj read
    simp only [Ftps.received, at_]
    refine .inl ?_
    have whole : (sizeBytes file).take 4 = sizeBytes file := rfl
    rw [whole, decoded_sizeBytes]
    exact .fileName
  | fileName =>
    obtain ⟨rfl, rfl⟩ := List.cons.inj read
    have length := length_nameBytes fileName
    simp only [Ftps.received, at_, List.take_of_length_le length.le, length,
      takeWhile_name short text]
    exact loop_advanced size _ [] (List.nil_append file)
  | body writes rest whole more =>
    rw [chunks_of_ne more] at read
    obtain ⟨rfl, rfl⟩ := List.cons.inj read
    have length : writes.flatten.length + rest.length = file.length := by
      rw [← whole, List.length_append]
    -- `file_left` is an `unsigned int`.
    have left : (UInt32.ofNat rest.length).toNat = rest.length :=
      UInt32.toNat_ofNat_of_lt' (by unfold UInt32.size; omega)
    have data : (rest.take bufLen).take (if rest.length < bufLen then rest.length else bufLen) =
        rest.take bufLen := by
      apply List.take_of_length_le
      rw [List.length_take]
      split <;> omega
    have rVal : ¬ (rest.take bufLen).length > rest.length := by
      rw [List.length_take]
      omega
    have stored := Block.receive_take ftps.bufIn
      (show (rest.take bufLen).length ≤ bufLen by rw [List.length_take]; omega)
    have next : UInt32.ofNat rest.length - UInt32.ofNat (rest.take bufLen).length =
        UInt32.ofNat (rest.drop bufLen).length := by
      have rest_left : rest.length - (rest.take bufLen).length = (rest.drop bufLen).length := by
        rw [List.length_take, List.length_drop]
        omega
      rw [← UInt32.ofNat_sub (Nat.le_of_not_gt rVal), rest_left]
    simp only [Ftps.received, at_, left, data, if_neg rVal, stored, next]
    have written : record client fileName file (writes ++ [rest.take bufLen]) =
        record client fileName file writes ++ [.wrote client (rest.take bufLen)] := by
      simp only [record, List.map_append, List.map_cons, List.map_nil, List.cons_append]
    have advanced := @loop_advanced client fileName file size
      { ftps with bufIn := ftps.bufIn.receive (rest.take bufLen) } (writes ++ [rest.take bufLen])
      (rest.drop bufLen) (by simpa using whole)
    rw [written, List.append_assoc] at advanced
    exact advanced

end Server

end NetworkProj.Transfer
