import RoomRelay.Wire.Request

/-!
# Responses

What the server answers. A request that is carried out is answered with a record of its own kind;
logging out and leaving, and every request that is refused, with the two bytes of kind and status.
-/

namespace RoomRelay.Wire

/-- The bit of a session's flags that marks the master of its room. -/
def masterFlag : UInt8 := 1

/-- Answers a ping. -/
structure PingResponse where
  status : Status
  clientTime : UInt64
  serverTime : UInt64
  flags : UInt8
  deriving DecidableEq, Repr

/-- The answer to a ping has no checksum. -/
def PingResponse.record : Record PingResponse where
  kind := .ping
  checksummed := false
  body :=
    (Status.format.pair ((Format.field .u64).pair ((Format.field .u64).pair
        (Format.field .u8)))).map
      (fun (status, clientTime, serverTime, flags) => ⟨status, clientTime, serverTime, flags⟩)
      (fun r => (r.status, r.clientTime, r.serverTime, r.flags)) (fun _ => rfl) (fun _ => rfl)

/-- Answers a login with the credentials of the session. -/
structure LoginResponse where
  status : Status
  token : UInt32
  slot : Int16
  room : Int16
  index : Int8
  deriving DecidableEq, Repr

/-- The answer to a login ends in a checksum. -/
def LoginResponse.record : Record LoginResponse where
  kind := .login
  checksummed := true
  body :=
    (Status.format.pair Credentials.format).map
      (fun (status, c) => ⟨status, c.token, c.slot, c.room, c.index⟩)
      (fun r => (r.status, ⟨r.token, r.slot, r.room, r.index⟩)) (fun _ => rfl) (fun _ => rfl)

/-- Answers the creation of a room with the creator's seat. -/
structure CreateResponse where
  status : Status
  room : Int16
  index : Int8
  flags : UInt8
  deriving DecidableEq, Repr

/-- The answer to a creation has no checksum. -/
def CreateResponse.record : Record CreateResponse where
  kind := .create
  checksummed := false
  body :=
    (Status.format.pair ((Format.field .i16).pair ((Format.field .i8).pair
        (Format.field .u8)))).map
      (fun (status, room, index, flags) => ⟨status, room, index, flags⟩)
      (fun r => (r.status, r.room, r.index, r.flags)) (fun _ => rfl) (fun _ => rfl)

/-- Answers a request for a seat with the seat and the room's description. -/
structure JoinResponse where
  status : Status
  room : Int16
  index : Int8
  flags : UInt8
  properties : Properties
  deriving DecidableEq, Repr

/-- The answer to a request for a seat has no checksum. -/
def JoinResponse.record : Record JoinResponse where
  kind := .join
  checksummed := false
  body :=
    (Status.format.pair ((Format.field .i16).pair ((Format.field .i8).pair
        ((Format.field .u8).pair (Format.field (.block propertiesSize)))))).map
      (fun (status, room, index, flags, properties) => ⟨status, room, index, flags, properties⟩)
      (fun r => (r.status, r.room, r.index, r.flags, r.properties))
      (fun _ => rfl) (fun _ => rfl)

/-- Says how a request of some kind fared, and nothing else. -/
structure StatusResponse where
  request : Kind
  status : Status
  deriving DecidableEq, Repr

namespace StatusResponse

/-- The number of bytes of a bare status. -/
def size : Nat := 2

/-- The two bytes of a bare status. -/
def bytes (response : StatusResponse) : List UInt8 :=
  [response.request.tag, response.status.code.toUInt8]

/-- Replaces the contents of a writer by a bare status. -/
def encode (response : StatusResponse) (w : Writer) : Except Error Writer := do
  let w ← w.reset.put .u8 response.request.tag
  w.put .i8 response.status.code

/-- A bare status replaces whatever the writer holds. -/
theorem exists_encode (response : StatusResponse) (w : Writer) :
    ∃ w', response.encode w = .ok w' ∧ w'.contents = response.bytes := by
  obtain ⟨w₁, htag, h₁⟩ := w.reset.append_of_le [response.request.tag]
    (by simp [Writer.remaining, Writer.reset, Writer.empty, maxDatagram])
  have h₁ : w₁.contents = [response.request.tag] := h₁
  obtain ⟨w₂, hstatus, h₂⟩ := w₁.append_of_le [response.status.code.toUInt8]
    (by simp [Writer.remaining, h₁, maxDatagram])
  refine ⟨w₂, ?_, by rw [h₂, h₁]; rfl⟩
  simp only [encode, Writer.put, Field.encode_u8, Field.encode_i8, htag, hstatus, bind,
    Except.bind]

/-- Reads a bare status of any kind of request. The kind is judged before the status is read. -/
def decode (datagram : List UInt8) : Except Error StatusResponse := do
  let (tag, r) ← (Reader.ofBytes datagram).get .u8
  let request ← Kind.ofTag? tag
  let (status, _) ← Status.format.read r
  return { request, status }

end StatusResponse

end RoomRelay.Wire
