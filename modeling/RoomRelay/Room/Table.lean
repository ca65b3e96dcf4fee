import RoomRelay.Room.Basic

/-!
# Room table

The server has a fixed number of rooms. A session takes a seat by creating a room, which reopens
the first empty one, or by joining a given one; it has at most one seat. The session's record and
the room's cell are changed together: an attempt to take a seat either returns the session with
its new seat, or leaves cells and session as they were.
-/

namespace RoomRelay

/-- The rooms of the server, in the order of their numbers. -/
structure RoomTable where
  rooms : Array Room
  deriving Repr

namespace RoomTable

/-- Rooms that were never opened, as many as asked for and as sixteen bits can number. -/
def ofSize (count capacity : Nat) : RoomTable :=
  let cells := Array.replicate capacity none
  ⟨Array.ofFn fun i : Fin (min count 65536) => Room.vacant ⟨UInt16.ofNat i⟩ cells⟩

/-- The number of rooms. -/
def size (table : RoomTable) : Nat := table.rooms.size

/-- Whether the server has no rooms. -/
def isEmpty (table : RoomTable) : Bool := table.rooms.isEmpty

/-- The room with a number. -/
def room? (table : RoomTable) (id : RoomId) : Option Room := table.rooms[id.position]?

/-- Changes the room with a number, if there is one. -/
def modify (table : RoomTable) (id : RoomId) (change : Room → Room) : RoomTable :=
  ⟨table.rooms.modify id.position change⟩

/-- The rooms that have members. -/
def active (table : RoomTable) : List Room := table.rooms.toList.filter (! ·.isEmpty)

/-- The first room without members. -/
def findEmpty (table : RoomTable) : Option RoomId := (table.rooms.find? Room.isEmpty).map Room.id

/-- Seats a session without a seat in a room. -/
def join (table : RoomTable) (session : Session) (id : RoomId) : RoomTable × Option Session :=
  if session.seat.isSome then (table, none)
  else
    match table.room? id >>= (·.insert? session.slot) with
    | none => (table, none)
    | some (index, room) =>
      (table.modify id fun _ => room, some { session with seat := some { room := id, index } })

/-- Reopens the first empty room on a session's terms and seats the session in it. -/
def create (table : RoomTable) (session : Session) (now : Instant) (terms : Terms) :
    RoomTable × Option Session :=
  if session.seat.isSome then (table, none)
  else
    match table.findEmpty with
    | none => (table, none)
    | some id => (table.modify id (·.reopen now terms)).join session id

/-- Takes a session from its seat. It is no longer the master of the room. -/
def leave (table : RoomTable) (session : Session) : RoomTable × Session :=
  match session.seat with
  | none => (table, session)
  | some seat =>
    (table.modify seat.room (·.vacate seat.index session.slot),
      { session with seat := none }.setMaster false)

end RoomTable

end RoomRelay
