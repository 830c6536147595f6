import Mathlib.Algebra.Group.Nat.Defs
import NetworkProj.Shared.Loop
import NetworkProj.Shared.Search

set_option autoImplicit false

/-!
# `Lab1/count.c`

Memory is what can be read from the address on that `malloc` returns. Both files
open, their paths fit, and `st_size` is the number of bytes `fgetc` returns.
-/

namespace NetworkProj.Lab1

def maxPath : Nat := 260
def intMax : Nat := 2 ^ 31 - 1

inductive Outcome where
  | invalidSearchString
  | numberOfMatches (searchCount : Nat)
deriving DecidableEq

-- `in_file_content[in_file_len++]=(char)ch` up to `EOF`; `in_file_len` is an `int`.
def readContent (memory : List UInt8) (inFileLen : Nat) : List UInt8 → Option (List UInt8)
  | [] => some memory
  | ch :: rest =>
    if inFileLen < intMax then
      readContent (memory.set inFileLen ch) (inFileLen + 1) rest
    else
      none

-- `strstr` is undefined without a terminating zero behind the pointer.
def strstr (memory : List UInt8) (pointer : Nat) (searchString : List UInt8) : Option (Option Nat) :=
  if 0 ∈ memory.drop pointer then
    let haystack := (memory.drop pointer).takeWhile (· ≠ 0)
    some ((Search.next haystack searchString 0).map (pointer + ·))
  else
    none

/-- The pointer is an offset into the memory; the count, an `unsigned long`, does not overflow, as
every hit is at another address. -/
structure Count where
  searchPtr : Option Nat
  searchCount : Nat

-- `while(search_ptr!=NULL)`.
def Count.search (memory searchString : List UInt8) : Loop.Body Count Empty Unit := fun count =>
  match count.searchPtr with
  | none => .ok none
  | some searchPtr =>
    let searchCount := count.searchCount + 1
    match strstr memory (searchPtr + 1) searchString with
    | none => .error ()
    | some searchPtr => .ok (some ({ searchPtr, searchCount }, []))

def main (inFile memory searchString : List UInt8) : Option Outcome :=
  -- `strcpy` into `search_string`
  if searchString.length < maxPath then
    if searchString.length = 0 then
      some .invalidSearchString
    else do
      let memory ← readContent memory 0 inFile
      let searchPtr ← strstr memory 0 searchString
      match Loop.run (Count.search memory searchString) (memory.length + 1)
          { searchPtr, searchCount := 0 } with
      | .error _ => none
      | .ok (count, _) => some (.numberOfMatches count.searchCount)
  else
    none

end NetworkProj.Lab1
