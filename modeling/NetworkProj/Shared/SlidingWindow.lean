import Mathlib.Data.List.Basic

set_option autoImplicit false

/-!
# A sender with a sliding window

Over positions in the whole stream, which never wrap. What is released is a
piece of the stream at its place, and nothing below `high` has been left out.
-/

namespace SlidingWindow

variable {α : Type}

/-- What has been acknowledged, what is released next, and how far it has been released. -/
structure Sender (α : Type) where
  written : List α
  una : Nat
  nxt : Nat
  high : Nat
  una_le : una ≤ nxt
  nxt_le : nxt ≤ high
  high_le : high ≤ written.length

structure Packet (α : Type) where
  position : Nat
  bytes : List α

def Packet.Covers (packet : Packet α) (position : Nat) : Prop :=
  packet.position ≤ position ∧ position < packet.position + packet.bytes.length

def slice (stream : List α) (position count : Nat) : Packet α where
  position
  bytes := (stream.drop position).take count

theorem slice_end {stream : List α} {position : Nat} (inside : position ≤ stream.length)
    (count : Nat) : position + (slice stream position count).bytes.length ≤ stream.length := by
  simp only [slice, List.length_take, List.length_drop]
  omega

def Packet.Of (packet : Packet α) (stream : List α) : Prop :=
  packet.position + packet.bytes.length ≤ stream.length ∧
    packet.bytes = (stream.drop packet.position).take packet.bytes.length

theorem slice_of {stream : List α} {position : Nat} (inside : position ≤ stream.length)
    (count : Nat) : (slice stream position count).Of stream := by
  refine ⟨slice_end inside count, ?_⟩
  simp [slice, List.take_eq_take_iff]

theorem Packet.Of.append {packet : Packet α} {stream : List α} (piece : packet.Of stream)
    (more : List α) : packet.Of (stream ++ more) := by
  obtain ⟨inside, same⟩ := piece
  have room : packet.position ≤ stream.length := by omega
  refine ⟨by simp only [List.length_append]; omega, ?_⟩
  rw [List.drop_append_of_le_length room, List.take_append_of_le_length]
  · exact same
  · simp only [List.length_drop]
    omega

namespace Sender

def fresh (written : List α) : Sender α where
  written
  una := 0
  nxt := 0
  high := 0
  una_le := Nat.le_refl 0
  nxt_le := Nat.le_refl 0
  high_le := Nat.zero_le _

variable (sender : Sender α)

def write (bytes : List α) : Sender α where
  written := sender.written ++ bytes
  una := sender.una
  nxt := sender.nxt
  high := sender.high
  una_le := sender.una_le
  nxt_le := sender.nxt_le
  high_le := by
    have inside := sender.high_le
    simp only [List.length_append]
    omega

def packetAt (position count : Nat) : Packet α :=
  slice sender.written position count

def advance (count : Nat) : Sender α where
  written := sender.written
  una := sender.una
  nxt := sender.nxt + (sender.packetAt sender.nxt count).bytes.length
  high := max sender.high (sender.nxt + (sender.packetAt sender.nxt count).bytes.length)
  una_le := Nat.le_trans sender.una_le (Nat.le_add_right _ _)
  nxt_le := Nat.le_max_right _ _
  high_le := by
    have inside := sender.high_le
    have next := sender.nxt_le
    exact Nat.max_le.mpr ⟨inside, slice_end (by omega) count⟩

def resend (count : Nat) : Sender α where
  written := sender.written
  una := sender.una
  nxt := max sender.nxt (sender.una + (sender.packetAt sender.una count).bytes.length)
  high := max sender.high (sender.una + (sender.packetAt sender.una count).bytes.length)
  una_le := Nat.le_trans sender.una_le (Nat.le_max_left _ _)
  nxt_le := by
    have next := sender.nxt_le
    omega
  high_le := by
    have inside := sender.high_le
    have first := sender.una_le
    have next := sender.nxt_le
    exact Nat.max_le.mpr ⟨inside, slice_end (by omega) count⟩

def restart : Sender α where
  written := sender.written
  una := sender.una
  nxt := sender.una
  high := sender.high
  una_le := Nat.le_refl _
  nxt_le := Nat.le_trans sender.una_le sender.nxt_le
  high_le := sender.high_le

def acknowledge (position : Nat) (sent : position ≤ sender.high) : Sender α where
  written := sender.written
  una := position
  nxt := max sender.nxt position
  high := sender.high
  una_le := Nat.le_max_right _ _
  nxt_le := Nat.max_le.mpr ⟨sender.nxt_le, sent⟩
  high_le := sender.high_le

end Sender

inductive Move : Sender α → List (Packet α) → Sender α → Prop where
  | write (sender : Sender α) (bytes : List α) : Move sender [] (sender.write bytes)
  | advance (sender : Sender α) (count : Nat) :
      Move sender [sender.packetAt sender.nxt count] (sender.advance count)
  | resend (sender : Sender α) (count : Nat) :
      Move sender [sender.packetAt sender.una count] (sender.resend count)
  | restart (sender : Sender α) : Move sender [] sender.restart
  | acknowledge (sender : Sender α) (position : Nat) (newer : sender.una ≤ position)
      (sent : position ≤ sender.high) : Move sender [] (sender.acknowledge position sent)

inductive Moves : Sender α → List (Packet α) → Sender α → Prop where
  | none (sender : Sender α) : Moves sender [] sender
  | next {sender middle final : Sender α} {packets later : List (Packet α)}
      (before : Moves sender packets middle) (move : Move middle later final) :
      Moves sender (packets ++ later) final

theorem Moves.single {sender final : Sender α} {packets : List (Packet α)}
    (move : Move sender packets final) : Moves sender packets final := by
  simpa using Moves.next (.none sender) move

theorem Moves.trans {sender middle final : Sender α} {packets later : List (Packet α)}
    (before : Moves sender packets middle) (after : Moves middle later final) :
    Moves sender (packets ++ later) final := by
  induction after with
  | none => simpa using before
  | next _ move ih =>
    rw [← List.append_assoc]
    exact ih.next move

/-- What has been released of a stream, from a position on: pieces of it that leave no gap. -/
structure Released (start : Nat) (packets : List (Packet α)) (sender : Sender α) : Prop where
  piece : ∀ packet ∈ packets, packet.Of sender.written
  below : ∀ packet ∈ packets, packet.position + packet.bytes.length ≤ sender.high
  covered : ∀ position, start ≤ position → position < sender.high →
    ∃ packet ∈ packets, packet.Covers position

theorem Move.released {start : Nat} {packets later : List (Packet α)} {sender final : Sender α}
    (move : Move sender later final) (holds : Released start packets sender) :
    Released start (packets ++ later) final := by
  -- A packet that starts no later than `high` leaves no gap.
  have extended (position count : Nat) (near : position ≤ sender.high)
      (high : final.high =
        max sender.high (position + (sender.packetAt position count).bytes.length))
      (same : final.written = sender.written) :
      Released start (packets ++ [sender.packetAt position count]) final := by
    have inside := sender.high_le
    constructor
    next =>
      intro packet mem
      rw [same]
      rcases List.mem_append.mp mem with old | new
      · exact holds.piece packet old
      · rw [List.mem_singleton.mp new]
        exact slice_of (by omega) count
    next =>
      intro packet mem
      rw [high]
      rcases List.mem_append.mp mem with old | new
      · exact Nat.le_trans (holds.below packet old) (Nat.le_max_left _ _)
      · rw [List.mem_singleton.mp new]
        exact Nat.le_max_right _ _
    next =>
      intro place from_start short
      by_cases old : place < sender.high
      · obtain ⟨packet, mem, covers⟩ := holds.covered place from_start old
        exact ⟨packet, List.mem_append_left _ mem, covers⟩
      · refine ⟨sender.packetAt position count, by simp, ?_, ?_⟩
        · change position ≤ place
          omega
        · change place < position + _
          omega
  cases move with
  | write bytes =>
    rw [List.append_nil]
    exact ⟨fun packet mem => (holds.piece packet mem).append bytes, holds.below, holds.covered⟩
  | advance count => exact extended sender.nxt count sender.nxt_le rfl rfl
  | resend count =>
    exact extended sender.una count (Nat.le_trans sender.una_le sender.nxt_le) rfl rfl
  | restart =>
    rw [List.append_nil]
    exact ⟨holds.piece, holds.below, holds.covered⟩
  | acknowledge position newer sent =>
    rw [List.append_nil]
    exact ⟨holds.piece, holds.below, holds.covered⟩

theorem Moves.released {packets : List (Packet α)} {sender final : Sender α}
    (moves : Moves sender packets final) : Released sender.high packets final := by
  induction moves with
  | none => exact ⟨by simp, by simp, fun position late early => absurd early (by omega)⟩
  | next _ move ih => exact move.released ih

end SlidingWindow
