import RoomRelay.Session.Basic

/-!
# Rooms

A room has a fixed number of cells, each free or holding the slot of a member, and the number of
cells that are taken. It keeps the terms on which its creator opened it until it is opened anew;
for how long after the opening others may be matched into it is part of those terms.
-/

namespace RoomRelay

/-- The most members that a room may be configured to have, and so the most recipients that one
packet has. -/
def maxRoomCapacity : Nat := 32

/-- The conditions that the creator of a room sets. -/
structure Terms where
  /-- For how many milliseconds others may be matched into the room, zero for ever. -/
  openTimeout : Nat
  properties : Wire.Properties
  params : Wire.Params
  deriving DecidableEq, Repr

/-- The terms of a room that was never opened. -/
def Terms.unset : Terms :=
  { openTimeout := 0, properties := Vector.replicate _ 0, params := Vector.replicate _ 0 }

/-- A room of the table. -/
structure Room where
  id : RoomId
  memberCount : Nat
  cells : Array (Option SlotId)
  /-- When the room was last opened. -/
  openSince : Option Instant
  terms : Terms
  deriving DecidableEq, Repr

namespace Room

/-- A room that was never opened. -/
def vacant (id : RoomId) (cells : Array (Option SlotId)) : Room :=
  { id, memberCount := 0, cells, openSince := none, terms := Terms.unset }

/-- The number of cells. -/
def capacity (room : Room) : Nat := room.cells.size

/-- Whether no cell is taken. -/
def isEmpty (room : Room) : Bool := room.memberCount == 0

/-- Whether all cells are taken. -/
def isFull (room : Room) : Bool := room.capacity ≤ room.memberCount

/-- The member at an index. -/
def member? (room : Room) (index : SeatIndex) : Option SlotId := room.cells[index.position]?.join

/-- The members and their indices, in increasing order. -/
def members (room : Room) : List (SeatIndex × SlotId) :=
  room.cells.toList.zipIdx.filterMap fun (cell, position) => do
    let slot ← cell
    let index ← SeatIndex.ofPosition? position
    return (index, slot)

/-- Whether others may be matched into the room. -/
def isOpen (room : Room) (now : Instant) : Bool :=
  match room.openSince with
  | none => false
  | some since => room.terms.openTimeout = 0 || now.since since ≤ room.terms.openTimeout

/-- Clears the cells and opens the room on new terms. -/
def reopen (room : Room) (now : Instant) (terms : Terms) : Room :=
  { room with cells := Array.replicate room.capacity none, openSince := some now, terms }

/-- Puts a session into the first free cell. -/
def insert? (room : Room) (slot : SlotId) : Option (SeatIndex × Room) := do
  let position ← room.cells.findIdx? Option.isNone
  let index ← SeatIndex.ofPosition? position
  return (index,
    { room with
      cells := room.cells.setIfInBounds position (some slot)
      memberCount := room.memberCount + 1 })

/-- Frees the cell at an index if a session is in it. -/
def vacate (room : Room) (index : SeatIndex) (slot : SlotId) : Room :=
  if room.member? index = some slot then
    { room with
      cells := room.cells.setIfInBounds index.position none
      memberCount := room.memberCount - 1 }
  else room

end Room

end RoomRelay
