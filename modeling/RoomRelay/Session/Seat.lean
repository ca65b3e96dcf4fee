import RoomRelay.Wire.Credentials

/-!
# Numbers of slots, rooms and seats

Inside the server slots and rooms are numbered by sixteen bits and the seats of a room by eight.
On the wire these numbers are signed: a negative number names nothing, and the numbers that a
signed field cannot hold wrap around.
-/

namespace RoomRelay

/-- The number of a slot of the lobby. -/
structure SlotId where
  number : UInt16
  deriving DecidableEq, Repr, Inhabited

namespace SlotId

/-- The position of a slot in the lobby. -/
def position (slot : SlotId) : Nat := slot.number.toNat

/-- The slot at a position that sixteen bits can number. -/
def ofPosition? (position : Nat) : Option SlotId :=
  if position < 65536 then some ⟨UInt16.ofNat position⟩ else none

/-- The slot that a wire number names. -/
def ofWire? (raw : Int16) : Option SlotId :=
  if raw < 0 then none else some ⟨raw.toUInt16⟩

/-- The wire number of a slot. -/
def toWire (slot : SlotId) : Int16 := slot.number.toInt16

theorem position_inj {a b : SlotId} : a.position = b.position ↔ a = b := by
  obtain ⟨a⟩ := a
  obtain ⟨b⟩ := b
  simp [position, UInt16.toNat_inj]

theorem position_of_ofPosition? {position : Nat} {slot : SlotId}
    (h : ofPosition? position = some slot) : slot.position = position := by
  unfold ofPosition? at h
  split at h
  · next hlt =>
    cases h
    exact Nat.mod_eq_of_lt hlt
  · cases h

@[simp] theorem ofPosition?_position (slot : SlotId) : ofPosition? slot.position = some slot := by
  have h : slot.position < 65536 := slot.number.toNat_lt
  rw [ofPosition?, if_pos h]
  simp [position]

end SlotId

/-- The number of a room. -/
structure RoomId where
  number : UInt16
  deriving DecidableEq, Repr, Inhabited

namespace RoomId

/-- The position of a room in the room table. -/
def position (room : RoomId) : Nat := room.number.toNat

/-- The room that a wire number names. -/
def ofWire? (raw : Int16) : Option RoomId :=
  if raw < 0 then none else some ⟨raw.toUInt16⟩

/-- The wire number of a room. -/
def toWire (room : RoomId) : Int16 := room.number.toInt16

theorem position_inj {a b : RoomId} : a.position = b.position ↔ a = b := by
  obtain ⟨a⟩ := a
  obtain ⟨b⟩ := b
  simp [position, UInt16.toNat_inj]

end RoomId

/-- The number of a place in a room. -/
structure SeatIndex where
  number : UInt8
  deriving DecidableEq, Repr, Inhabited

namespace SeatIndex

/-- The position of a place in its room. -/
def position (index : SeatIndex) : Nat := index.number.toNat

/-- The place at a position that eight bits can number. -/
def ofPosition? (position : Nat) : Option SeatIndex :=
  if position < 256 then some ⟨UInt8.ofNat position⟩ else none

/-- The place that a wire number names. -/
def ofWire? (raw : Int8) : Option SeatIndex :=
  if raw < 0 then none else some ⟨raw.toUInt8⟩

/-- The wire number of a place. -/
def toWire (index : SeatIndex) : Int8 := index.number.toInt8

theorem position_inj {a b : SeatIndex} : a.position = b.position ↔ a = b := by
  obtain ⟨a⟩ := a
  obtain ⟨b⟩ := b
  simp [position, UInt8.toNat_inj]

theorem position_of_ofPosition? {position : Nat} {index : SeatIndex}
    (h : ofPosition? position = some index) : index.position = position := by
  unfold ofPosition? at h
  split at h
  · next hlt =>
    cases h
    exact Nat.mod_eq_of_lt hlt
  · cases h

@[simp] theorem ofPosition?_position (index : SeatIndex) :
    ofPosition? index.position = some index := by
  have h : index.position < 256 := index.number.toNat_lt
  rw [ofPosition?, if_pos h]
  simp [position]

end SeatIndex

/-- A place in a room. -/
structure Seat where
  room : RoomId
  index : SeatIndex
  deriving DecidableEq, Repr

namespace Seat

/-- The seat that a pair of wire numbers names; both must name something. -/
def ofWire? (room : Int16) (index : Int8) : Option Seat := do
  let room ← RoomId.ofWire? room
  let index ← SeatIndex.ofWire? index
  return { room, index }

/-- The wire numbers of a seat, or of the lack of one. -/
def toWire : Option Seat → Int16 × Int8
  | none => (Wire.noRoom, Wire.noIndex)
  | some seat => (seat.room.toWire, seat.index.toWire)

end Seat

end RoomRelay
