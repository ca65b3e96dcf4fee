import RoomRelay.Session.Basic

/-!
# Lobby

The lobby is a table of slots, each free or taken by a live session, and the number of those that
are taken. A new session takes the first free slot, so slot numbers are handed out again; the
token tells the sessions apart that had the same slot.
-/

namespace RoomRelay

/-- The table of live sessions. -/
structure Lobby where
  slots : Array (Option Session)
  live : Nat
  deriving Repr

namespace Lobby

/-- A lobby of free slots. -/
def ofCapacity (capacity : Nat) : Lobby := ⟨Array.replicate capacity none, 0⟩

/-- The number of slots. -/
def capacity (lobby : Lobby) : Nat := lobby.slots.size

/-- Whether no slot is taken. -/
def isEmpty (lobby : Lobby) : Bool := lobby.live == 0

/-- Whether all slots are taken. -/
def isFull (lobby : Lobby) : Bool := lobby.capacity ≤ lobby.live

/-- The session in a slot. -/
def get? (lobby : Lobby) (slot : SlotId) : Option Session := lobby.slots[slot.position]?.join

/-- The live sessions in the order of their slots. -/
def sessions (lobby : Lobby) : List Session := lobby.slots.toList.filterMap id

/-- Changes the session in a slot, if there is one. -/
def modify (lobby : Lobby) (slot : SlotId) (change : Session → Session) : Lobby :=
  { lobby with slots := lobby.slots.modify slot.position (Option.map change) }

/-- The session that a token and a slot name. -/
def findByToken (lobby : Lobby) (token : UInt32) (slot : Int16) : Option Session := do
  let session ← lobby.get? (← SlotId.ofWire? slot)
  if session.token.word = token then some session else none

/-- The session that full credentials name: token, slot and seat must all agree. -/
def findByCredentials (lobby : Lobby) (credentials : Wire.Credentials) : Option Session := do
  let session ← lobby.findByToken credentials.token credentials.slot
  if Seat.toWire session.seat = (credentials.room, credentials.index) then some session else none

/-- The slot of the first session of a device. -/
def findByDevice (lobby : Lobby) (device : Wire.Device) : Option SlotId :=
  lobby.slots.findSome? fun
    | some session => if session.device = device then some session.slot else none
    | none => none

/-- Opens a session in the first free slot. -/
def allocate (lobby : Lobby) (device : Wire.Device) (peer : SocketAddress) (token : Token)
    (now : Instant) : Lobby × Option SlotId :=
  match lobby.slots.findIdx? Option.isNone with
  | none => (lobby, none)
  | some position =>
    match SlotId.ofPosition? position with
    | none => (lobby, none)
    | some slot =>
      let session := Session.fresh slot device token peer now
      ({ slots := lobby.slots.setIfInBounds position (some session), live := lobby.live + 1 },
        some slot)

/-- Frees a slot and returns the session that was in it. -/
def release (lobby : Lobby) (slot : SlotId) : Lobby × Option Session :=
  match lobby.get? slot with
  | none => (lobby, none)
  | some session =>
    ({ slots := lobby.slots.setIfInBounds slot.position none, live := lobby.live - 1 },
      some session)

/-- Records that a packet of the session in a slot came from a peer. -/
def touch (lobby : Lobby) (slot : SlotId) (peer : SocketAddress) (now : Instant) : Lobby :=
  lobby.modify slot (·.touch peer now)

end Lobby

end RoomRelay
