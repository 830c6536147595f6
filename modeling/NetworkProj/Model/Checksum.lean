import Mathlib.Logic.Function.Iterate
import NetworkProj.Shared.Loop
import NetworkProj.Model.ByteOrder

set_option autoImplicit false

/-!
# `checksum.c`

The buffer lies in a memory in which other bytes may follow it. An address that
is not mapped has no byte, and a read of it ends the program.
-/

namespace NetworkProj

section Checksum32

/-- The locals of `checksum32`. Both pointers are `offset`, in bytes from `buf`. -/
structure Checksum32 where
  sum : UInt64
  offset : Nat
  len : UInt64
  remain : UInt32

def loadWord (order : ByteOrder) (memory : Nat → Option UInt8) (offset : Nat) : Option UInt32 := do
  let first ← memory offset
  let second ← memory (offset + 1)
  let third ← memory (offset + 2)
  let fourth ← memory (offset + 3)
  return order.word32 first second third fourth

-- `while(len)`; what a pass emits are the offsets it reads.
def Checksum32.words (order : ByteOrder) (memory : Nat → Option UInt8) :
    Loop.Body Checksum32 Nat Unit := fun state =>
  if state.len = 0 then
    .ok none
  else
    match loadWord order memory state.offset with
    | none => .error ()
    | some word =>
      .ok (some ({ state with
          sum := state.sum + word.toUInt64
          offset := state.offset + 4
          len := state.len - 4 },
        [state.offset, state.offset + 1, state.offset + 2, state.offset + 3]))

-- The `for` loop, with `count` passes to go.
def Checksum32.rest (memory : Nat → Option UInt8) :
    Nat → Checksum32 → Option (Checksum32 × List Nat)
  | 0, state => some (state, [])
  | count + 1, state =>
    let shifted := { state with remain := state.remain <<< 8 }
    if state.len = 0 then
      rest memory count shifted
    else
      match memory state.offset with
      | none => none
      | some byte => do
        let (final, reads) ← rest memory count { shifted with
          remain := shifted.remain + byte.toUInt32
          offset := state.offset + 1
          len := state.len - 1 }
        return (final, state.offset :: reads)

/-- The value and the offsets read; `none` when the program is stopped or `fuel` passes of the word
loop do not reach its end. -/
def checksum32 (fuel : Nat) (order : ByteOrder) (_crc : UInt32) (memory : Nat → Option UInt8)
    (len : UInt64) : Option (UInt32 × List Nat) :=
  match Loop.run (Checksum32.words order memory) fuel { sum := 0, offset := 0, len, remain := 0 } with
  | .error _ => none
  | .ok (state, reads) =>
    if state.len = 0 then do
      let (state, later) ← Checksum32.rest memory 4 state
      let sum := state.sum + state.remain.toUInt64
      return (((sum >>> 32) + sum).toUInt32, reads ++ later)
    else
      none

end Checksum32

section Deprecated

def deprecatedCrc32Bit (crc : UInt32) : UInt32 :=
  if crc &&& 0x80000000 ≠ 0 then crc <<< 1 ^^^ 0x04C11DB7 else crc <<< 1

def deprecatedCrc32Step (crc : UInt32) (byte : UInt8) : UInt32 :=
  deprecatedCrc32Bit^[8] (crc ^^^ byte.toUInt32 <<< 24) &&& 0xFFFFFFFF

def deprecatedCrc32 (crc : UInt32) (buf : List UInt8) : UInt32 :=
  buf.foldl deprecatedCrc32Step (crc ^^^ 0xFFFFFFFF)

end Deprecated

end NetworkProj
