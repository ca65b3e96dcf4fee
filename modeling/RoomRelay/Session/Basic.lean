import RoomRelay.Network.Address
import RoomRelay.Clock
import RoomRelay.Session.Seat
import RoomRelay.Session.Token
import RoomRelay.Wire.Response

/-!
# Sessions

A session is what the server knows about one connected device: where it lives in the lobby, how it
proves who it is, where its packets come from, when it was last heard of, and where it sits.
-/

namespace RoomRelay

/-- A connected device. -/
structure Session where
  slot : SlotId
  device : Wire.Device
  token : Token
  peer : SocketAddress
  lastActive : Instant
  seat : Option Seat
  flags : UInt8
  deriving DecidableEq, Repr

namespace Session

/-- A session as it is opened: without a seat and without flags. -/
def fresh (slot : SlotId) (device : Wire.Device) (token : Token) (peer : SocketAddress)
    (now : Instant) : Session :=
  { slot, device, token, peer, lastActive := now, seat := none, flags := 0 }

/-- Whether the session is marked as the master of its room. -/
def isMaster (session : Session) : Bool := session.flags &&& Wire.masterFlag ≠ 0

/-- Sets or clears the mark of a master and no other flag. -/
def setMaster (session : Session) (master : Bool) : Session :=
  if master then { session with flags := session.flags ||| Wire.masterFlag }
  else { session with flags := session.flags &&& ~~~Wire.masterFlag }

/-- The milliseconds since the session was last heard of. -/
def idle (session : Session) (now : Instant) : Nat := now.since session.lastActive

/-- Records that a packet of the session came from a peer. -/
def touch (session : Session) (peer : SocketAddress) (now : Instant) : Session :=
  { session with peer, lastActive := now }

/-- What the session's client sends to be recognised. -/
def credentials (session : Session) : Wire.Credentials :=
  let (room, index) := Seat.toWire session.seat
  { token := session.token.word, slot := session.slot.toWire, room, index }

end Session

end RoomRelay
