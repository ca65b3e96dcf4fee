import RoomRelay.Relay.Dispatch

/-!
# Workers

A worker receives datagrams into one buffer and dispatches them with one writer, again and again.
Only the part of the buffer that was just received is dispatched.
-/

namespace RoomRelay

/-- What a worker keeps between datagrams. -/
structure Worker where
  buffer : List UInt8
  writer : Wire.Writer
  deriving DecidableEq, Repr

/-- A server's world and mailbox, and the worker that moves datagrams between them. -/
structure Station where
  world : World
  mailbox : Mailbox
  worker : Worker
  deriving Repr

/-- Whether an attempt to receive reaches the mailbox. -/
inductive Poll
  | fails
  | succeeds
  deriving DecidableEq, Repr

/-- A worker with an empty buffer and an empty writer. -/
def Worker.fresh : Worker := ⟨List.replicate Wire.maxDatagram 0, Wire.Writer.empty⟩

namespace Station

/-- A station with a new worker. -/
def fresh (world : World) (mailbox : Mailbox) : Station := ⟨world, mailbox, Worker.fresh⟩

/-- Receives one datagram, if one waits, and dispatches it. -/
def step (station : Station) (config : Config) (reachable : SocketAddress → Bool)
    (now : Instant) : Station :=
  match station.mailbox.receive station.worker.buffer with
  | (mailbox, none) => { station with mailbox }
  | (mailbox, some received) =>
    let scratch : Scratch := ⟨station.worker.writer, received.buffer.take received.length⟩
    let result := station.world.dispatch config now scratch received.source
    { world := result.world
      mailbox := mailbox.sendReachable reachable result.frames
      worker :=
        { buffer := result.scratch.datagram ++ received.buffer.drop received.length
          writer := result.scratch.writer } }

/-- Runs a worker through a series of attempts to receive; a failed one changes nothing. -/
def run (station : Station) (config : Config) (reachable : SocketAddress → Bool) (now : Instant) :
    List Poll → Station
  | [] => station
  | .fails :: polls => station.run config reachable now polls
  | .succeeds :: polls => (station.step config reachable now).run config reachable now polls

end Station

end RoomRelay
