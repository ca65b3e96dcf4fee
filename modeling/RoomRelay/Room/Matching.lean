import RoomRelay.Room.Table

/-!
# Matching

A client that looks for a seat bounds each parameter of the room. It is matched into the first
room that has members and a free cell, is still open, and has every parameter within its bounds.
-/

namespace RoomRelay

/-- Whether a value lies within inclusive bounds. -/
def Wire.Range.contains (range : Wire.Range) (value : Int32) : Bool :=
  range.low ≤ value && value ≤ range.high

/-- Whether each parameter lies within the bounds set to it. -/
def Wire.Ranges.accept (ranges : Wire.Ranges) (params : Wire.Params) : Bool :=
  (ranges.toList.zip params.toList).all fun (range, value) => range.contains value

/-- Whether a client with these bounds may be matched into a room. -/
def Room.isJoinable (room : Room) (ranges : Wire.Ranges) (now : Instant) : Bool :=
  !room.isEmpty && !room.isFull && room.isOpen now && ranges.accept room.terms.params

namespace RoomTable

/-- The first room that a client with these bounds may be matched into. -/
def findJoinable (table : RoomTable) (ranges : Wire.Ranges) (now : Instant) : Option RoomId :=
  (table.rooms.find? (·.isJoinable ranges now)).map Room.id

/-- Seats a session in the first room that suits it. -/
def matchmake (table : RoomTable) (session : Session) (ranges : Wire.Ranges) (now : Instant) :
    RoomTable × Option Session :=
  if session.seat.isSome then (table, none)
  else
    match table.findJoinable ranges now with
    | none => (table, none)
    | some id => table.join session id

end RoomTable

end RoomRelay
