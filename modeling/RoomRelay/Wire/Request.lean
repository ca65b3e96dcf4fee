import RoomRelay.Wire.Credentials
import RoomRelay.Wire.Record

/-!
# Requests

The records that a client sends, except for the relay packets, which have a payload. A login
carries only the device; creating and joining name the session by token and slot alone; all other
requests carry full credentials.
-/

namespace RoomRelay.Wire

/-- The number of bytes that identify a device. -/
def deviceSize : Nat := 32

/-- The number of bytes that describe a room to those who join it. -/
def propertiesSize : Nat := 32

/-- The number of parameters that rooms are matched by. -/
def paramCount : Nat := 4

/-- What identifies a device across logins. -/
abbrev Device := Vector UInt8 deviceSize

/-- The description of a room, which only clients interpret. -/
abbrev Properties := Vector UInt8 propertiesSize

/-- The parameters of a room. -/
abbrev Params := Vector Int32 paramCount

/-- The inclusive bounds that a joining client sets to one parameter. -/
structure Range where
  low : Int32
  high : Int32
  deriving DecidableEq, Repr, Inhabited

/-- The bounds of a joining client, one pair for each parameter. -/
abbrev Ranges := Vector Range paramCount

/-- A range is sent as its lower and then its upper bound. -/
def Range.format : Format Range :=
  ((Format.field .i32).pair (Format.field .i32)).map (fun (low, high) => ⟨low, high⟩)
    (fun r => (r.low, r.high)) (fun _ => rfl) (fun _ => rfl)

/-- Asks for the server's time and keeps the session alive. -/
structure Ping where
  credentials : Credentials
  clientTime : UInt64
  deriving DecidableEq, Repr

/-- A ping has no checksum. -/
def Ping.record : Record Ping where
  kind := .ping
  checksummed := false
  body := (Credentials.format.pair (Format.field .u64)).map (fun (c, t) => ⟨c, t⟩)
    (fun p => (p.credentials, p.clientTime)) (fun _ => rfl) (fun _ => rfl)

/-- Opens the session of a device, or resumes it. -/
structure Login where
  device : Device
  deriving DecidableEq, Repr

/-- A login ends in a checksum. -/
def Login.record : Record Login where
  kind := .login
  checksummed := true
  body := (Format.field (.block deviceSize)).map Login.mk Login.device
    (fun _ => rfl) (fun _ => rfl)

/-- Closes the session. -/
structure Logout where
  credentials : Credentials
  deriving DecidableEq, Repr

/-- A logout ends in a checksum. -/
def Logout.record : Record Logout where
  kind := .logout
  checksummed := true
  body := Credentials.format.map Logout.mk Logout.credentials (fun _ => rfl) (fun _ => rfl)

/-- Opens a room on the client's terms. -/
structure Create where
  token : UInt32
  slot : Int16
  openSeconds : UInt16
  properties : Properties
  params : Params
  deriving DecidableEq, Repr

/-- A request for a room has no checksum. -/
def Create.record : Record Create where
  kind := .create
  checksummed := false
  body :=
    ((Format.field .u32).pair ((Format.field .i16).pair ((Format.field .u16).pair
        ((Format.field (.block propertiesSize)).pair
          ((Format.field .i32).vector paramCount))))).map
      (fun (token, slot, openSeconds, properties, params) =>
        ⟨token, slot, openSeconds, properties, params⟩)
      (fun c => (c.token, c.slot, c.openSeconds, c.properties, c.params))
      (fun _ => rfl) (fun _ => rfl)

/-- Asks for a seat in a room whose parameters lie in the client's ranges. -/
structure Join where
  token : UInt32
  slot : Int16
  ranges : Ranges
  deriving DecidableEq, Repr

/-- A request for a seat has no checksum. -/
def Join.record : Record Join where
  kind := .join
  checksummed := false
  body :=
    ((Format.field .u32).pair ((Format.field .i16).pair (Range.format.vector paramCount))).map
      (fun (token, slot, ranges) => ⟨token, slot, ranges⟩)
      (fun j => (j.token, j.slot, j.ranges)) (fun _ => rfl) (fun _ => rfl)

/-- Gives up the seat and keeps the session. -/
structure Leave where
  credentials : Credentials
  deriving DecidableEq, Repr

/-- A request to leave has no checksum. -/
def Leave.record : Record Leave where
  kind := .leave
  checksummed := false
  body := Credentials.format.map Leave.mk Leave.credentials (fun _ => rfl) (fun _ => rfl)

/-- Acknowledges a reliable packet to the member that sent it. -/
structure Relied where
  credentials : Credentials
  target : Int8
  ack : UInt8
  deriving DecidableEq, Repr

/-- An acknowledgement has no checksum. -/
def Relied.record : Record Relied where
  kind := .relied
  checksummed := false
  body :=
    (Credentials.format.pair ((Format.field .i8).pair (Format.field .u8))).map
      (fun (credentials, target, ack) => ⟨credentials, target, ack⟩)
      (fun r => (r.credentials, r.target, r.ack)) (fun _ => rfl) (fun _ => rfl)

end RoomRelay.Wire
