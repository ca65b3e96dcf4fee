import RoomRelay.Wire.Credentials
import RoomRelay.Wire.Record
import RoomRelay.Wire.Request

/-!
# Relay packets

A relay packet has a header and a payload whose length the header declares. The server passes it
on as a shorter frame without the sender's credentials, and builds that frame by overwriting bytes
of the received datagram: the frame ends where the packet ends, and its first bytes replace the
last ones of the header. Nothing results if that would touch bytes outside the buffer.
-/

namespace RoomRelay.Wire

/-- The target that stands for every other member of the room. -/
def targetOthers : Int8 := -1

/-- The target that stands for every member of the room. -/
def targetAll : Int8 := -2

/-- Replaces bytes of a buffer from a position on, if they all lie inside it. -/
def overwrite? (buffer : List UInt8) (start : Nat) (bytes : List UInt8) : Option (List UInt8) :=
  if start + bytes.length ≤ buffer.length then
    some (buffer.take start ++ bytes ++ buffer.drop (start + bytes.length))
  else none

/-- The bytes of a buffer from one position up to another, if the buffer reaches that far. -/
def slice? (buffer : List UInt8) (start stop : Nat) : Option (List UInt8) :=
  if start ≤ stop ∧ stop ≤ buffer.length then some ((buffer.take stop).drop start) else none

/-- A frame to send, and the buffer that it was cut from. -/
structure Cut where
  frame : List UInt8
  buffer : List UInt8
  deriving DecidableEq, Repr

/-- Overwrites part of a buffer and cuts out the frame that starts there and ends at `stop`. -/
def cut? (buffer : List UInt8) (start : Nat) (bytes : List UInt8) (stop : Nat) :
    Option Cut := do
  let buffer ← overwrite? buffer start bytes
  let frame ← slice? buffer start stop
  return { frame, buffer }

/-- The length of a payload as one byte; a longer payload is an overrun. -/
def payloadSize (payload : List UInt8) : Except Error UInt8 :=
  if payload.length ≤ 255 then .ok (UInt8.ofNat payload.length)
  else .error (.payloadOverrun payload.length 255)

/-- Checks that a declared payload is there. -/
def checkPayload (declared available : Nat) : Except Error Unit :=
  if declared ≤ available then .ok () else .error (.payloadOverrun declared available)

/-- The header of a packet that may get lost. -/
structure UnreliableHeader where
  credentials : Credentials
  target : Int8
  size : UInt8
  deriving DecidableEq, Repr

namespace UnreliableHeader

/-- The bytes of a header after its tag. -/
def format : Format UnreliableHeader :=
  (Credentials.format.pair ((Format.field .i8).pair (Format.field .u8))).map
    (fun (credentials, target, size) => ⟨credentials, target, size⟩)
    (fun h => (h.credentials, h.target, h.size)) (fun _ => rfl) (fun _ => rfl)

/-- The number of bytes of a header with its tag. -/
def width : Nat := 1 + format.width

/-- Replaces the contents of a writer by a packet. Too long a payload leaves them as they are. -/
def encode (credentials : Credentials) (target : Int8) (payload : List UInt8) (w : Writer) :
    Except Error Writer := do
  let size ← payloadSize payload
  let w ← w.reset.put .u8 Kind.unreliable.tag
  let w ← w.append (format.encode { credentials, target, size })
  w.append payload

/-- Reads the header of a datagram and checks that the payload follows it. -/
def decode (datagram : List UInt8) : Except Error UnreliableHeader := do
  let r ← (Reader.ofBytes datagram).expect .unreliable
  let (header, r) ← format.read r
  checkPayload header.size.toNat r.remaining
  return header

/-- The frame that members receive, cut from a buffer that holds the packet: the kind, the
sender's index, the size of the payload, and the payload. -/
def relayFrame? (header : UnreliableHeader) (buffer : List UInt8) (sender : Int8) :
    Option Cut :=
  cut? buffer (width - 3) [Kind.unreliable.tag, sender.toUInt8] (width + header.size.toNat)

end UnreliableHeader

/-- The header of a packet that the receiver acknowledges. -/
structure ReliableHeader where
  credentials : Credentials
  target : Int8
  ack : UInt8
  size : UInt8
  deriving DecidableEq, Repr

namespace ReliableHeader

/-- The bytes of a header after its tag. -/
def format : Format ReliableHeader :=
  (Credentials.format.pair ((Format.field .i8).pair ((Format.field .u8).pair
      (Format.field .u8)))).map
    (fun (credentials, target, ack, size) => ⟨credentials, target, ack, size⟩)
    (fun h => (h.credentials, h.target, h.ack, h.size)) (fun _ => rfl) (fun _ => rfl)

/-- The number of bytes of a header with its tag. -/
def width : Nat := 1 + format.width

/-- Replaces the contents of a writer by a packet. Too long a payload leaves them as they are. -/
def encode (credentials : Credentials) (target : Int8) (ack : UInt8) (payload : List UInt8)
    (w : Writer) : Except Error Writer := do
  let size ← payloadSize payload
  let w ← w.reset.put .u8 Kind.reliable.tag
  let w ← w.append (format.encode { credentials, target, ack, size })
  w.append payload

/-- Reads the header of a datagram and checks that the payload follows it. -/
def decode (datagram : List UInt8) : Except Error ReliableHeader := do
  let r ← (Reader.ofBytes datagram).expect .reliable
  let (header, r) ← format.read r
  checkPayload header.size.toNat r.remaining
  return header

/-- The frame that the target receives, cut from a buffer that holds the packet: the kind, the
sender's index, the acknowledgement number, the size of the payload, and the payload. -/
def relayFrame? (header : ReliableHeader) (buffer : List UInt8) (sender : Int8) :
    Option Cut :=
  cut? buffer (width - 4) [Kind.reliable.tag, sender.toUInt8, header.ack]
    (width + header.size.toNat)

end ReliableHeader

/-- The number of bytes of an acknowledgement frame. -/
def ackFrameSize : Nat := 3

/-- The frame that tells a member that its packet arrived, written over the start of a buffer:
the kind, the index of the member that received it, and the acknowledgement number. -/
def ackFrame? (buffer : List UInt8) (index : Int8) (ack : UInt8) : Option Cut :=
  cut? buffer 0 [Kind.relied.tag, index.toUInt8, ack] ackFrameSize

end RoomRelay.Wire
