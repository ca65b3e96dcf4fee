import RoomRelay.Network.Address

/-!
# Mailboxes

A mailbox stands between the server and the network. Datagrams wait in it, in the order in which
they arrived, until they are received; frames that the server sends are kept until they are taken
out. It counts what passes through it in 64-bit counters that wrap around.
-/

namespace RoomRelay

/-- Counts of packets and bytes. -/
structure Traffic where
  packetsSent : UInt64
  packetsReceived : UInt64
  bytesSent : UInt64
  bytesReceived : UInt64
  sendErrors : UInt64
  receiveErrors : UInt64
  deriving DecidableEq, Repr

namespace Traffic

/-- Nothing has passed. -/
def none : Traffic := ⟨0, 0, 0, 0, 0, 0⟩

/-- One more packet was sent. -/
def countSent (traffic : Traffic) (bytes : Nat) : Traffic :=
  { traffic with
    packetsSent := traffic.packetsSent + 1
    bytesSent := traffic.bytesSent + UInt64.ofNat bytes }

/-- One more packet was received. -/
def countReceived (traffic : Traffic) (bytes : Nat) : Traffic :=
  { traffic with
    packetsReceived := traffic.packetsReceived + 1
    bytesReceived := traffic.bytesReceived + UInt64.ofNat bytes }

/-- The counts in one line. -/
def message (traffic : Traffic) : String :=
  let {packetsSent, packetsReceived, bytesSent, bytesReceived, sendErrors, receiveErrors} := traffic
  s!"Traffic: {packetsReceived} packets in ({bytesReceived} bytes), " ++
    s!"{packetsSent} out ({bytesSent} bytes), " ++
    s!"{receiveErrors} recv errors, {sendErrors} send errors"

end Traffic

/-- A datagram that waits to be received. -/
structure Datagram where
  bytes : List UInt8
  source : SocketAddress
  deriving DecidableEq, Repr

/-- A frame and the address that it is for. -/
structure Frame where
  «to» : SocketAddress
  bytes : List UInt8
  deriving DecidableEq, Repr

/-- The network as the server sees it. -/
structure Mailbox where
  address : SocketAddress
  inbound : List Datagram
  outbound : List Frame
  traffic : Traffic
  deriving DecidableEq, Repr

/-- What receiving a datagram yields. -/
structure Received where
  /-- The number of bytes put into the buffer. -/
  length : Nat
  source : SocketAddress
  buffer : List UInt8
  deriving DecidableEq, Repr

namespace Mailbox

/-- A mailbox through which nothing has passed. -/
def atAddress (address : SocketAddress) : Mailbox := ⟨address, [], [], Traffic.none⟩

/-- Lets a datagram arrive. -/
def inject (mailbox : Mailbox) (datagram : Datagram) : Mailbox :=
  { mailbox with inbound := mailbox.inbound ++ [datagram] }

/-- Receives the oldest datagram into the front of a buffer. What does not fit is lost, and the
rest of the buffer stays as it was. -/
def receive (mailbox : Mailbox) (buffer : List UInt8) : Mailbox × Option Received :=
  match mailbox.inbound with
  | [] => (mailbox, none)
  | datagram :: inbound =>
    let bytes := datagram.bytes.take buffer.length
    ({ mailbox with inbound, traffic := mailbox.traffic.countReceived bytes.length },
      some ⟨bytes.length, datagram.source, bytes ++ buffer.drop bytes.length⟩)

/-- Sends a frame. -/
def send (mailbox : Mailbox) (frame : Frame) : Mailbox :=
  { mailbox with
    outbound := mailbox.outbound ++ [frame]
    traffic := mailbox.traffic.countSent frame.bytes.length }

/-- Sends those of a list of frames whose addresses can be reached. -/
def sendReachable (mailbox : Mailbox) (reachable : SocketAddress → Bool) (frames : List Frame) :
    Mailbox :=
  (frames.filter fun frame => reachable frame.to).foldl send mailbox

/-- Takes out all frames that were sent. -/
def takeSent (mailbox : Mailbox) : Mailbox × List Frame :=
  ({ mailbox with outbound := [] }, mailbox.outbound)

end Mailbox

end RoomRelay
