import NetworkProj.Shared.Machine
import NetworkProj.Model.Lab2Ftps
import Mathlib.Logic.Function.Basic

set_option autoImplicit false

/-!
# `Lab2/ftpc.c` and `Lab2/ftps.c`

Any number of clients and the one server over the system's own TCP, which keeps the bytes of a
connection in order and loses none. A `write` returns when all its bytes are on their way; `read`
gets as many of them as it likes.
-/

namespace NetworkProj.Lab2

section Client

def roundLen : Nat := 1024

inductive FtpcPoint where
  | connect
  | fileSize
  | fileName
  | body (fileLeft : UInt64) (position : Nat)
  | exited (code : Nat)
deriving DecidableEq

structure Ftpc where
  fileName : List UInt8
  file : List UInt8
  buf : Block roundLen
  point : FtpcPoint

def Ftpc.fileSize (ftpc : Ftpc) : UInt64 :=
  UInt64.ofNat ftpc.file.length

def Ftpc.fread (ftpc : Ftpc) (position : Nat) : List UInt8 :=
  (ftpc.file.drop position).take roundLen

-- `while(file_left)`, and what follows it.
def Ftpc.loop (fileLeft : UInt64) (position : Nat) : FtpcPoint :=
  if fileLeft = 0 then .exited 0 else .body fileLeft position

def Ftpc.write (ftpc : Ftpc) : Option (List UInt8 × Ftpc) :=
  match ftpc.point with
  | .fileSize =>
    let buf := ftpc.buf.receive [(ftpc.fileSize >>> 24).toUInt8, (ftpc.fileSize >>> 16).toUInt8,
      (ftpc.fileSize >>> 8).toUInt8, ftpc.fileSize.toUInt8]
    some (buf.take 4, { ftpc with buf, point := .fileName })
  | .fileName =>
    let buf := Block.pad roundLen ftpc.fileName
    some (buf.take 20, { ftpc with buf, point := Ftpc.loop ftpc.fileSize 0 })
  | .body fileLeft position =>
    -- A short last block leaves the bytes of the one before behind it.
    let data := ftpc.fread position
    let buf := ftpc.buf.receive data
    let rVal := if data.length > fileLeft.toNat then fileLeft.toNat else data.length
    some (buf.bytes, { ftpc with
      buf, point := Ftpc.loop (fileLeft - UInt64.ofNat rVal) (position + data.length) })
  | .connect | .exited _ => none

end Client

section Server

inductive FtpsPoint (κ : Type) where
  | accept
  | fileSize (client : κ)
  | fileName (client : κ) (fileSize : UInt32) (bufIn : Block bufInLen)
  | body (client : κ) (fileName : List UInt8) (ftps : Ftps) (written : List UInt8)

end Server

section System

/-- A stream holds what is written and not yet read; `files` are those that were closed. -/
structure Transfers (κ : Type) where
  ftpcs : κ → Ftpc
  streams : κ → List UInt8
  backlog : List κ
  point : FtpsPoint κ
  files : List (κ × List UInt8 × List UInt8)

inductive TransfersEvent (κ : Type) where
  | connect (client : κ)
  | write (client : κ)
  -- The server has closed the connection, and the client's next `write` fails.
  | broken (client : κ)
  | accept
  | read (count : Nat)

variable {κ : Type} [DecidableEq κ]

def Transfers.Ended (state : Transfers κ) (client : κ) : Prop :=
  (state.ftpcs client).write = none

instance (state : Transfers κ) (client : κ) : Decidable (state.Ended client) :=
  decidable_of_iff ((state.ftpcs client).write.isNone = true) Option.isNone_iff_eq_none

-- `recv` with `MSG_WAITALL`.
def Transfers.RecvAll (state : Transfers κ) (client : κ) (want count : Nat) : Prop :=
  count = min want (state.streams client).length ∧ (count = want ∨ state.Ended client)

instance (state : Transfers κ) (client : κ) (want count : Nat) :
    Decidable (state.RecvAll client want count) :=
  inferInstanceAs (Decidable (_ ∧ _))

def Transfers.Read (state : Transfers κ) (client : κ) (want count : Nat) : Prop :=
  count ≤ min want (state.streams client).length ∧
    (0 < count ∨ state.streams client = [] ∧ state.Ended client)

instance (state : Transfers κ) (client : κ) (want count : Nat) :
    Decidable (state.Read client want count) :=
  inferInstanceAs (Decidable (_ ∧ _))

def Transfers.became (state : Transfers κ) (client : κ) (ftpc : Ftpc) (stream : List UInt8) :
    Transfers κ :=
  { state with
    ftpcs := Function.update state.ftpcs client ftpc
    streams := Function.update state.streams client stream }

@[simp] theorem Transfers.became_self (state : Transfers κ) (client : κ) (ftpc : Ftpc)
    (stream : List UInt8) : (state.became client ftpc stream).ftpcs client = ftpc ∧
      (state.became client ftpc stream).streams client = stream :=
  ⟨Function.update_self .., Function.update_self ..⟩

theorem Transfers.became_other (state : Transfers κ) {client other : κ} (different : other ≠ client)
    (ftpc : Ftpc) (stream : List UInt8) :
    (state.became client ftpc stream).ftpcs other = state.ftpcs other ∧
      (state.became client ftpc stream).streams other = state.streams other :=
  ⟨Function.update_of_ne different .., Function.update_of_ne different ..⟩

def Transfers.taken (state : Transfers κ) (client : κ) (count : Nat) : Transfers κ :=
  state.became client (state.ftpcs client) ((state.streams client).drop count)

-- The test of the loop, and what follows the loop.
def Transfers.loop (state : Transfers κ) (client : κ) (fileName : List UInt8) (ftps : Ftps)
    (written : List UInt8) : Transfers κ :=
  if ftps.fileLeft = 0 then
    { state with point := .accept, files := state.files ++ [(client, fileName, written)] }
  else
    { state with point := .body client fileName ftps written }

def Transfers.step : Machine.Step (Transfers κ) (TransfersEvent κ) Empty Stop := fun state event =>
  match event with
  | .connect client =>
    if (state.ftpcs client).point = .connect then
      .ok ({ state.became client { state.ftpcs client with point := .fileSize }
          (state.streams client) with backlog := state.backlog ++ [client] }, [])
    else .error .blocked
  | .write client =>
    match (state.ftpcs client).write with
    | some (data, ftpc) =>
      .ok (state.became client ftpc (state.streams client ++ data), [])
    | none => .error .blocked
  | .broken client =>
    if client ∈ state.files.map Prod.fst ∧ ¬ state.Ended client then
      .ok (state.became client { state.ftpcs client with point := .exited 1 } (state.streams client), [])
    else .error .blocked
  | .accept =>
    match state.point, state.backlog with
    | .accept, client :: rest => .ok ({ state with point := .fileSize client, backlog := rest }, [])
    | _, _ => .error .blocked
  | .read count =>
    match state.point with
    | .accept => .error .blocked
    | .fileSize client =>
      if state.RecvAll client 4 count then
        let (fileSize, bufIn) := recvSize ((state.streams client).take count)
        .ok ({ state.taken client count with point := .fileName client fileSize bufIn }, [])
      else .error .blocked
    | .fileName client fileSize bufIn =>
      if state.RecvAll client 20 count then
        let (fileName, bufIn) := recvName ((state.streams client).take count) bufIn
        .ok ((state.taken client count).loop client fileName
          { fileLeft := fileSize, bufIn, count := 0 } [], [])
      else .error .blocked
    | .body client fileName ftps written =>
      if state.Read client bufInLen count then
        let (ftps, data) := ftps.passed ((state.streams client).take count)
        .ok ((state.taken client count).loop client fileName ftps (written ++ data), [])
      else .error .blocked

-- What lies in `buf` at the start is not known.
def Transfers.initial (names contents : κ → List UInt8) (buf : κ → Block roundLen) : Transfers κ where
  ftpcs client := {
    fileName := names client
    file := contents client
    buf := buf client
    point := .connect }
  streams _ := []
  backlog := []
  point := .accept
  files := []

end System

end NetworkProj.Lab2
