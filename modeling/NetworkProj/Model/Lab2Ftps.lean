import NetworkProj.Shared.Loop
import NetworkProj.Model.Header

set_option autoImplicit false

/-!
# `Lab2/ftps.c`

The server over the system's own sockets, from the accepted connection to the
next `accept`. `fopen` does not fail and `fwrite` writes all it is given.
-/

namespace NetworkProj.Lab2

def bufInLen : Nat := 1024

/-- What `recv` or `read` returns; no bytes at the end of the stream. -/
inductive Read where
  | error
  | bytes (data : List UInt8)

/-- The results of the reads on a client's connection. An ended stream stays so. -/
structure Client where
  reads : Nat → Read
  short : ∀ count data, reads count = .bytes data → data.length ≤ bufInLen
  ended : ∀ count, reads count = .bytes [] → reads (count + 1) = .bytes []

-- The two `recv`s of the header, behind `bzero`.
def recvSize (size : List UInt8) : UInt32 × Block bufInLen :=
  let bufIn := (Block.fill bufInLen 0).receive (size.take 4)
  (word32 (bufIn.bytes.getD 0 0) (bufIn.bytes.getD 1 0) (bufIn.bytes.getD 2 0)
    (bufIn.bytes.getD 3 0), bufIn)

def recvName (name : List UInt8) (bufIn : Block bufInLen) : List UInt8 × Block bufInLen :=
  let bufIn := (bufIn.receive (name.take 20)).set (name.take 20).length 0
  (bufIn.bytes.takeWhile (· ≠ 0), bufIn)

structure Ftps where
  fileLeft : UInt32
  bufIn : Block bufInLen
  count : Nat

-- One pass of the loop when `read` has returned the bytes, and what it writes into the file.
def Ftps.passed (ftps : Ftps) (data : List UInt8) : Ftps × List UInt8 :=
  let bufIn := ftps.bufIn.receive data
  let rVal := if data.length > ftps.fileLeft.toNat then ftps.fileLeft.toNat else data.length
  ({ fileLeft := ftps.fileLeft - UInt32.ofNat rVal
     bufIn
     count := ftps.count + 1 }, bufIn.take rVal)

-- `while(file_left)`.
def Ftps.receive (client : Client) : Loop.Body Ftps UInt8 Empty := fun ftps =>
  if ftps.fileLeft = 0 then
    .ok none
  else
    match client.reads ftps.count with
    | .error => .ok none
    | .bytes data => .ok (some (ftps.passed data))

end NetworkProj.Lab2
