import Mathlib.Data.List.Basic

set_option autoImplicit false

structure Block (size : Nat) where
  bytes : List UInt8
  sized : bytes.length = size
deriving DecidableEq

namespace Block

@[ext] theorem ext {size : Nat} {left right : Block size} (same : left.bytes = right.bytes) :
    left = right := by
  cases left
  cases right
  simpa using same

def fill (size : Nat) (byte : UInt8) : Block size :=
  ⟨List.replicate size byte, List.length_replicate⟩

def pad (size : Nat) (bytes : List UInt8) : Block size :=
  ⟨(bytes ++ List.replicate size 0).take size, by simp⟩

instance {size : Nat} : Inhabited (Block size) := ⟨fill size 0⟩

def take {size : Nat} (block : Block size) (count : Nat) : List UInt8 :=
  block.bytes.take count

@[simp] theorem take_zero {size : Nat} (block : Block size) : block.take 0 = [] := by
  simp [take]

theorem length_take {size : Nat} (block : Block size) (count : Nat) (within : count ≤ size) :
    (block.take count).length = count := by
  simp [take, block.sized, within]

def write {size : Nat} (block : Block size) (offset : Nat) (data : List UInt8)
    (within : offset + data.length ≤ size) : Block size where
  bytes := block.bytes.take offset ++ data ++ block.bytes.drop (offset + data.length)
  sized := by
    simp only [List.length_append, List.length_take, List.length_drop, block.sized]
    omega

-- As `recvfrom` does with the bytes of a datagram.
def receive {size : Nat} (block : Block size) (data : List UInt8) : Block size :=
  ⟨(data ++ block.bytes.drop data.length).take size, by
    simp only [List.length_take, List.length_append, List.length_drop, block.sized]
    omega⟩

theorem receive_bytes {size : Nat} (block : Block size) {data : List UInt8}
    (short : data.length ≤ size) :
    (block.receive data).bytes = data ++ block.bytes.drop data.length := by
  apply List.take_of_length_le
  simp only [List.length_append, List.length_drop, block.sized]
  omega

theorem receive_take {size : Nat} (block : Block size) {data : List UInt8}
    (short : data.length ≤ size) : (block.receive data).take data.length = data := by
  rw [take, receive_bytes block short, List.take_left]

theorem receive_whole {size : Nat} (block other : Block size) : block.receive other.bytes = other := by
  have nothing : block.bytes.drop other.bytes.length = [] := by
    simp [block.sized, other.sized]
  ext1
  rw [receive_bytes block (Nat.le_of_eq other.sized), nothing, List.append_nil]

theorem pad_take {size : Nat} {bytes : List UInt8} (short : bytes.length ≤ size) :
    (pad size bytes).take bytes.length = bytes := by
  rw [take, pad, List.take_take, Nat.min_eq_left short, List.take_left]

def set {size : Nat} (block : Block size) (index : Nat) (byte : UInt8) : Block size :=
  ⟨block.bytes.set index byte, by simp [block.sized]⟩

/-- `bcopy(source + from, target + offset, count)`; no answer when it leaves a block. -/
def bcopy {source target : Nat} (block : Block source) (start : Nat) (into : Block target)
    (offset count : Nat) : Option (Block target) :=
  if inside : start + count ≤ source ∧ offset + count ≤ target then
    some (into.write offset ((block.bytes.drop start).take count) (by
      simp only [List.length_take, List.length_drop, block.sized]
      omega))
  else none

section

variable {source target : Nat} (block : Block source) (into : Block target)

theorem bcopy_inside (start offset count : Nat) (reads : start + count ≤ source)
    (writes : offset + count ≤ target) : ∃ copied, block.bcopy start into offset count = some copied := by
  simp [bcopy, reads, writes]

theorem inside_of_bcopy {start offset count : Nat} {copied : Block target}
    (done : block.bcopy start into offset count = some copied) :
    start + count ≤ source ∧ offset + count ≤ target := by
  unfold bcopy at done
  split at done
  · assumption
  · cases done

theorem bcopy_bytes {start offset count : Nat} {copied : Block target}
    (done : block.bcopy start into offset count = some copied) :
    copied.bytes = into.bytes.take offset ++ (block.bytes.drop start).take count ++
      into.bytes.drop (offset + count) := by
  obtain ⟨reads, writes⟩ := inside_of_bcopy block into done
  have amount : min count (source - start) = count := by omega
  simp only [bcopy, reads, writes, and_self, dite_true, Option.some.injEq] at done
  subst copied
  simp [write, block.sized, amount]

theorem bcopy_appends {offset count : Nat} {copied : Block target}
    (done : block.bcopy 0 into offset count = some copied) :
    copied.take (offset + count) = into.take offset ++ block.take count := by
  obtain ⟨reads, writes⟩ := inside_of_bcopy block into done
  have filled : (into.bytes.take offset).length = offset := by
    simp only [List.length_take, into.sized]
    omega
  have copiedLength : (block.bytes.take count).length = count := by
    simp only [List.length_take, block.sized]
    omega
  simp only [take, bcopy_bytes block into done, List.drop_zero]
  rw [List.take_append_of_le_length (by simp only [List.length_append]; omega)]
  exact List.take_of_length_le (by simp only [List.length_append]; omega)

end

end Block
