import RoomRelay.Room.Matching
import RoomRelay.Lobby.Basic

/-!
# World

The world is everything that requests change: the source of tokens, the lobby, and the room table.
A session that takes or gives up a seat is recorded on both sides in one step here, so that no
caller sees one table without the other.
-/

namespace RoomRelay

/-- The state of the server. -/
structure World where
  tokens : TokenIssuer
  lobby : Lobby
  rooms : RoomTable
  deriving Repr

namespace World

/-- Issues a token. -/
def issueToken (world : World) : World × Token :=
  let (token, tokens) := world.tokens.issue
  ({ world with tokens }, token)

/-- Opens a session in the first free slot. -/
def allocate (world : World) (device : Wire.Device) (peer : SocketAddress) (token : Token)
    (now : Instant) : World × Option SlotId :=
  let ⟨tokens, lobby, rooms⟩ := world
  let (lobby, slot) := lobby.allocate device peer token now
  (⟨tokens, lobby, rooms⟩, slot)

/-- Frees a slot without regard to the seat of its session. -/
def release (world : World) (slot : SlotId) : World × Option Session :=
  let (lobby, session) := world.lobby.release slot
  ({ world with lobby }, session)

/-- Changes the session in a slot, if there is one. -/
def modifySession (world : World) (slot : SlotId) (change : Session → Session) : World :=
  { world with lobby := world.lobby.modify slot change }

/-- Lets the session in a slot try for a seat, and tells whether it got one. -/
def seat (world : World) (slot : SlotId)
    (attempt : RoomTable → Session → RoomTable × Option Session) : World × Bool :=
  match world.lobby.get? slot with
  | none => (world, false)
  | some session =>
    match attempt world.rooms session with
    | (rooms, none) => ({ world with rooms }, false)
    | (rooms, some seated) =>
      ({ world with rooms, lobby := world.lobby.modify slot fun _ => seated }, true)

/-- Reopens an empty room on the terms of the session in a slot, and seats the session there. -/
def create (world : World) (slot : SlotId) (now : Instant) (terms : Terms) : World × Bool :=
  world.seat slot fun rooms session => rooms.create session now terms

/-- Seats the session in a slot in a given room. -/
def join (world : World) (slot : SlotId) (room : RoomId) : World × Bool :=
  world.seat slot fun rooms session => rooms.join session room

/-- Seats the session in a slot in the first room that suits it. -/
def matchmake (world : World) (slot : SlotId) (ranges : Wire.Ranges) (now : Instant) :
    World × Bool :=
  world.seat slot fun rooms session => rooms.matchmake session ranges now

/-- Takes the session in a slot from its seat. -/
def leave (world : World) (slot : SlotId) : World :=
  match world.lobby.get? slot with
  | none => world
  | some session =>
    let (rooms, session) := world.rooms.leave session
    { world with rooms, lobby := world.lobby.modify slot fun _ => session }

/-- Closes the session in a slot: it leaves its seat and then its slot. -/
def remove (world : World) (slot : SlotId) : World × Option Session :=
  (world.leave slot).release slot

end World

end RoomRelay
