import RoomRelay.Wire.Checksum
import RoomRelay.Wire.Field

/-!
# Writer

A writer collects the bytes of one datagram, at most `maxDatagram` of them. A write that does
not fit fails and leaves the contents as they were, so that a shorter one may still succeed.
-/

namespace RoomRelay.Wire

/-- The length of the longest datagram that is received or sent. -/
def maxDatagram : Nat := 1024

/-- Bytes written so far, never more than a datagram holds. -/
structure Writer where
  contents : List UInt8
  length_le : contents.length ≤ maxDatagram
  deriving DecidableEq, Repr

namespace Writer

/-- A writer with no contents. -/
def empty : Writer := ⟨[], Nat.zero_le _⟩

/-- Forgets the contents. -/
def reset (_ : Writer) : Writer := empty

/-- The number of bytes written. -/
def length (w : Writer) : Nat := w.contents.length

/-- Whether nothing has been written. -/
def isEmpty (w : Writer) : Bool := w.contents.isEmpty

/-- The number of bytes that can still be written. -/
def remaining (w : Writer) : Nat := maxDatagram - w.contents.length

/-- Writes raw bytes. -/
def append (w : Writer) (bytes : List UInt8) : Except Error Writer :=
  if h : bytes.length ≤ w.remaining then
    .ok ⟨w.contents ++ bytes, by
      have := w.length_le
      simp only [remaining] at h
      simp only [List.length_append]
      omega⟩
  else .error (.bufferFull bytes.length w.remaining)

theorem append_of_le (w : Writer) (bytes : List UInt8) (h : bytes.length ≤ w.remaining) :
    ∃ w', w.append bytes = .ok w' ∧ w'.contents = w.contents ++ bytes := by
  rw [append, dif_pos h]
  exact ⟨_, rfl, rfl⟩

theorem append_of_lt (w : Writer) (bytes : List UInt8) (h : w.remaining < bytes.length) :
    w.append bytes = .error (.bufferFull bytes.length w.remaining) := by
  rw [append, dif_neg (Nat.not_le.mpr h)]

/-- Writes one field. -/
def put (w : Writer) (field : Field) (value : field.Value) : Except Error Writer :=
  w.append (field.encode value)

/-- Writes the checksum of everything written so far. -/
def putChecksum (w : Writer) : Except Error Writer :=
  w.put .u32 (Checksum.compute w.contents)

end Writer

end RoomRelay.Wire
