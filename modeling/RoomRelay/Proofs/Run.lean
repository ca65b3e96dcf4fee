import RoomRelay.Relay.Server
import RoomRelay.World.Sweep

/-!
# Runs

A server that runs dispatches datagrams and sweeps; its tables can also be acted on one operation
at a time. Every event has a clock reading of its own, and nothing is assumed about how these
readings follow one another. A datagram comes with whatever the writer holds by then, and a sweep
with any memory of the last election.
-/

namespace RoomRelay

/-- What a server does while it runs. -/
inductive Event
  /-- A datagram from a peer is dispatched. -/
  | datagram (now : Instant) (peer : SocketAddress) (scratch : Scratch)
  /-- A sweep of a series takes place. -/
  | sweep (now : Instant) (sweeper : Sweeper)

/-- What is done to a server, by its events or to its tables directly. -/
inductive Action
  | event (event : Event)
  | allocate (device : Wire.Device) (peer : SocketAddress) (token : Token) (now : Instant)
  | touch (slot : SlotId) (peer : SocketAddress) (now : Instant)
  | create (slot : SlotId) (now : Instant) (terms : Terms)
  | join (slot : SlotId) (room : RoomId)
  | matchmake (slot : SlotId) (ranges : Wire.Ranges) (now : Instant)
  | leave (slot : SlotId)
  | remove (slot : SlotId)
  | expireIdle (now : Instant) (timeout : Nat)
  | elect (room : RoomId) (now : Instant) (timeout : Nat)
  | electAll (now : Instant) (timeout : Nat)

namespace World

/-- What a datagram does to the world, and how it is answered. What does not decode is dropped. -/
def receive (world : World) (config : Config) (now : Instant) (peer : SocketAddress)
    (datagram : List UInt8) : World × Answer :=
  match Request.decode datagram with
  | .error _ => (world, .drop)
  | .ok request => world.serve config now peer request

/-- Records that a packet of the session in a slot came from a peer. -/
def touch (world : World) (slot : SlotId) (peer : SocketAddress) (now : Instant) : World :=
  { world with lobby := world.lobby.touch slot peer now }

/-- The world after an event. -/
def handle (world : World) (config : Config) : Event → World
  | .datagram now peer scratch => (world.dispatch config now scratch peer).world
  | .sweep now sweeper => (sweeper.tick config world now).world

/-- The world after a series of events. -/
def run (world : World) (config : Config) (events : List Event) : World :=
  events.foldl (fun world event => world.handle config event) world

/-- The world after an action. -/
def act (world : World) (config : Config) : Action → World
  | .event event => world.handle config event
  | .allocate device peer token now => (world.allocate device peer token now).1
  | .touch slot peer now => world.touch slot peer now
  | .create slot now terms => (world.create slot now terms).1
  | .join slot room => (world.join slot room).1
  | .matchmake slot ranges now => (world.matchmake slot ranges now).1
  | .leave slot => world.leave slot
  | .remove slot => (world.remove slot).1
  | .expireIdle now timeout => (world.expireIdle now timeout).1
  | .elect id now timeout =>
    match world.rooms.room? id with
    | none => world
    | some room => (world.elect room now timeout).1
  | .electAll now timeout => (world.electAll now timeout).1

/-- The world after a series of actions. -/
def perform (world : World) (config : Config) (actions : List Action) : World :=
  actions.foldl (fun world action => world.act config action) world

/-- A world that a server comes to from its start. -/
def Reachable (config : Config) (world : World) : Prop :=
  ∃ events, (ofConfig config).run config events = world

theorem run_append (world : World) (config : Config) (first second : List Event) :
    world.run config (first ++ second) = (world.run config first).run config second :=
  List.foldl_append

theorem receive_of_decode (world : World) (config : Config) (now : Instant)
    (peer : SocketAddress) {datagram : List UInt8} {request : Request}
    (h : Request.decode datagram = .ok request) :
    world.receive config now peer datagram = world.serve config now peer request := by
  rw [receive, h]

/-- A dispatched datagram changes the world as its request does, whatever the writer holds. -/
theorem world_dispatch (world : World) (config : Config) (now : Instant) (scratch : Scratch)
    (peer : SocketAddress) :
    (world.dispatch config now scratch peer).world =
      (world.receive config now peer scratch.datagram).1 := by
  rw [dispatch, receive]
  cases Request.decode scratch.datagram <;> rfl

namespace Reachable

variable {config : Config} {world : World}

theorem handle (h : Reachable config world) (event : Event) :
    Reachable config (world.handle config event) := by
  obtain ⟨events, rfl⟩ := h
  exact ⟨events ++ [event], run_append _ _ _ _⟩

theorem run (h : Reachable config world) (events : List Event) :
    Reachable config (world.run config events) := by
  obtain ⟨first, rfl⟩ := h
  exact ⟨first ++ events, run_append _ _ _ _⟩

/-- What holds at the start and is kept by every event holds of every world that is reached. -/
theorem invariant {holds : World → Prop} (h : Reachable config world)
    (start : holds (ofConfig config))
    (step : ∀ world event, holds world → holds (world.handle config event)) : holds world := by
  obtain ⟨events, rfl⟩ := h
  have after : ∀ world, holds world → holds (world.run config events) := by
    induction events with
    | nil => exact fun _ h => h
    | cons event rest ih => exact fun world h => ih _ (step world event h)
  exact after _ start

end Reachable

end World

/-- The settings of a server with one room for two. -/
def Config.small : Config := { Config.default with roomCount := 1, roomCapacity := 2 }

/-- A client of the small server. -/
def smallPeer : SocketAddress := .anyV4 40000

/-- A device logs in. -/
def smallLogin (byte : UInt8) : Event :=
  .datagram 0 smallPeer ⟨.empty, Wire.Login.record.bytes ⟨Vector.replicate _ byte⟩⟩

/-- Two devices log in; the first one opens the room, and the second one joins it. -/
def smallPair : List Event :=
  [smallLogin 7,
    .datagram 0 smallPeer ⟨.empty, Wire.Create.record.bytes
      ⟨654988, 0, 60, Vector.replicate _ 1, Vector.replicate _ 2⟩⟩,
    smallLogin 8,
    .datagram 0 smallPeer ⟨.empty, Wire.Join.record.bytes
      ⟨654989, 1, Vector.replicate _ ⟨0, 9⟩⟩⟩]

end RoomRelay
