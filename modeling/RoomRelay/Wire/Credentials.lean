import RoomRelay.Wire.Format

/-!
# Credentials

Most requests open with the same nine bytes, by which a client names its session: the token, the
lobby slot, and the seat it believes to have. Negative numbers in place of a seat mean that the
session is not seated.
-/

namespace RoomRelay.Wire

/-- The room number of a session without a seat. -/
def noRoom : Int16 := -1

/-- The seat index of a session without a seat. -/
def noIndex : Int8 := -1

/-- The session that a client claims to be, as sent. -/
structure Credentials where
  token : UInt32
  slot : Int16
  room : Int16
  index : Int8
  deriving DecidableEq, Repr

namespace Credentials

/-- The credentials of a session without a seat. -/
def unseated (token : UInt32) (slot : Int16) : Credentials :=
  { token, slot, room := noRoom, index := noIndex }

/-- The nine bytes of credentials. -/
def format : Format Credentials :=
  ((Format.field .u32).pair ((Format.field .i16).pair ((Format.field .i16).pair
      (Format.field .i8)))).map
    (fun (token, slot, room, index) => ⟨token, slot, room, index⟩)
    (fun c => (c.token, c.slot, c.room, c.index)) (fun _ => rfl) (fun _ => rfl)

end Credentials

end RoomRelay.Wire
