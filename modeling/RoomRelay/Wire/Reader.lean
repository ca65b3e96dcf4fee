import RoomRelay.Wire.Error
import RoomRelay.Wire.Field

/-!
# Reader

A reader stands at a position in a byte string. A read that asks for more bytes than remain
fails and does not move it.
-/

namespace RoomRelay.Wire

/-- A position in a byte string, and the bytes from there on. -/
structure Reader where
  position : Nat
  rest : List UInt8
  deriving DecidableEq, Repr

namespace Reader

/-- A reader at the start of a byte string. -/
def ofBytes (bytes : List UInt8) : Reader := ⟨0, bytes⟩

/-- The number of bytes not read yet. -/
def remaining (r : Reader) : Nat := r.rest.length

/-- Reads `count` raw bytes. -/
def take (r : Reader) (count : Nat) : Except Error (List UInt8 × Reader) :=
  if count ≤ r.remaining then
    .ok (r.rest.take count, ⟨r.position + count, r.rest.drop count⟩)
  else .error (.truncated count r.remaining)

/-- Reads one field. -/
def get (r : Reader) (field : Field) : Except Error (field.Value × Reader) :=
  match r.take field.width with
  | .ok (bytes, r) => .ok (field.decode bytes, r)
  | .error e => .error e

end Reader

end RoomRelay.Wire
