import RoomRelay.Network.Mailbox
import RoomRelay.Relay.Service

/-!
# Dispatch

Dispatching a datagram decodes it, carries the request out, and makes the frames of the answer.
Records are written into a writer that is used again for every answer, and relayed frames are cut
from the datagram itself after the first bytes have been overwritten in place.
-/

namespace RoomRelay

/-- Bytes that are kept from one datagram to the next, and those of the datagram at hand. -/
structure Scratch where
  writer : Wire.Writer
  datagram : List UInt8
  deriving DecidableEq, Repr

namespace Scratch

/-- Sends what a record writer leaves in the writer; nothing if the record does not fit. -/
def write (scratch : Scratch) (recipient : SocketAddress)
    (encode : Wire.Writer → Except Wire.Error Wire.Writer) : Scratch × List Frame :=
  match encode scratch.writer with
  | .ok writer => ({ scratch with writer }, [⟨recipient, writer.contents⟩])
  | .error _ => (scratch, [])

/-- Sends a frame cut from the datagram to a list of addresses; nothing if the datagram does not
reach far enough. -/
def relay (scratch : Scratch) (recipients : List SocketAddress)
    (cut? : List UInt8 → Option Wire.Cut) : Scratch × List Frame :=
  match cut? scratch.datagram with
  | some cut => ({ scratch with datagram := cut.buffer }, recipients.map (⟨·, cut.frame⟩))
  | none => (scratch, [])

end Scratch

/-- The frames that answer a request of a kind from a peer, in the order in which they are sent. -/
def Answer.frames (scratch : Scratch) (kind : Wire.Kind) (peer : SocketAddress) :
    Answer → Scratch × List Frame
  | .drop | .silent => (scratch, [])
  | .status outcome => scratch.write peer (Wire.StatusResponse.mk kind outcome).encode
  | .pinged response => scratch.write peer (Wire.PingResponse.record.encode response)
  | .loggedIn response => scratch.write peer (Wire.LoginResponse.record.encode response)
  | .created response => scratch.write peer (Wire.CreateResponse.record.encode response)
  | .joined response => scratch.write peer (Wire.JoinResponse.record.encode response)
  | .relayUnreliable header recipients =>
    scratch.relay recipients fun buffer => header.relayFrame? buffer header.credentials.index
  | .relayReliable header recipient =>
    scratch.relay [recipient] fun buffer => header.relayFrame? buffer header.credentials.index
  | .acknowledge index ack recipient =>
    scratch.relay [recipient] fun buffer => Wire.ackFrame? buffer index ack

/-- What dispatching a datagram leaves behind. -/
structure Dispatched where
  world : World
  scratch : Scratch
  /-- What is sent, in order. -/
  frames : List Frame

/-- Dispatches a datagram from a peer at a clock reading. What does not decode is dropped. -/
def World.dispatch (world : World) (config : Config) (now : Instant) (scratch : Scratch)
    (peer : SocketAddress) : Dispatched :=
  match Request.decode scratch.datagram with
  | .error _ => ⟨world, scratch, []⟩
  | .ok request =>
    let (world, answer) := world.serve config now peer request
    let (scratch, frames) := answer.frames scratch request.kind peer
    ⟨world, scratch, frames⟩

end RoomRelay
