import RoomRelay.Wire.Packet
import RoomRelay.Wire.Response

/-!
# Requests as values

A datagram that the server receives is one of nine kinds of request. Its first byte tells which,
and the rest must decode as the record, or the relay packet, of that kind.
-/

namespace RoomRelay

/-- A decoded datagram. -/
inductive Request
  | ping (ping : Wire.Ping)
  | login (login : Wire.Login)
  | logout (logout : Wire.Logout)
  | create (create : Wire.Create)
  | join (join : Wire.Join)
  | leave (leave : Wire.Leave)
  | unreliable (header : Wire.UnreliableHeader)
  | reliable (header : Wire.ReliableHeader)
  | relied (relied : Wire.Relied)
  deriving DecidableEq, Repr

namespace Request

/-- The kind of a request. -/
def kind : Request → Wire.Kind
  | ping _ => .ping
  | login _ => .login
  | logout _ => .logout
  | create _ => .create
  | join _ => .join
  | leave _ => .leave
  | unreliable _ => .unreliable
  | reliable _ => .reliable
  | relied _ => .relied

/-- Reads a datagram as a request of a given kind. -/
def decodeAs (datagram : List UInt8) : Wire.Kind → Except Wire.Error Request
  | .ping => (Wire.Ping.record.decode datagram).map ping
  | .login => (Wire.Login.record.decode datagram).map login
  | .logout => (Wire.Logout.record.decode datagram).map logout
  | .create => (Wire.Create.record.decode datagram).map create
  | .join => (Wire.Join.record.decode datagram).map join
  | .leave => (Wire.Leave.record.decode datagram).map leave
  | .unreliable => (Wire.UnreliableHeader.decode datagram).map unreliable
  | .reliable => (Wire.ReliableHeader.decode datagram).map reliable
  | .relied => (Wire.Relied.record.decode datagram).map relied

/-- Reads a datagram as a request of the kind that its first byte names. -/
def decode (datagram : List UInt8) : Except Wire.Error Request :=
  Wire.Kind.peek datagram >>= decodeAs datagram

end Request

end RoomRelay
