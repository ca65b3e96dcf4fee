import RoomRelay.Config.Basic
import RoomRelay.Relay.Request
import RoomRelay.World.Election
import RoomRelay.World.Recipients

/-!
# Service

What each request does to the world and how it is answered. An answer is a value: it names a
record to send back or a frame to pass on, and the bytes are made from it later. A request is
dropped without a reply when it is malformed or names a seat, a target or a slot that the server
does not have, and refused with a status when its session does not exist or cannot have what it
asks for.

A request that is recognised is recorded as activity of its session even if it is then refused.
Closing a session is the exception, since no session remains.
-/

namespace RoomRelay

/-- How a request is answered. -/
inductive Answer
  /-- The request is not heeded, and nothing is sent. -/
  | drop
  /-- The request is carried out, and nobody is there to be sent anything. -/
  | silent
  /-- The two bytes of the request's kind and a status go back to the sender. -/
  | status (status : Wire.Status)
  /-- A record goes back to the sender. -/
  | pinged (response : Wire.PingResponse)
  | loggedIn (response : Wire.LoginResponse)
  | created (response : Wire.CreateResponse)
  | joined (response : Wire.JoinResponse)
  /-- The payload of an unreliable packet goes to members of the room. -/
  | relayUnreliable (header : Wire.UnreliableHeader) (recipients : List SocketAddress)
  /-- The payload of a reliable packet goes to its target. -/
  | relayReliable (header : Wire.ReliableHeader) (recipient : SocketAddress)
  /-- An acknowledgement goes to a member, or back to the sender. -/
  | acknowledge (index : Int8) (ack : UInt8) (recipient : SocketAddress)
  deriving DecidableEq, Repr

namespace Lobby

/-- Recognises a session by its full credentials and records its activity. -/
def authenticate (lobby : Lobby) (credentials : Wire.Credentials) (peer : SocketAddress)
    (now : Instant) : Option (Lobby × SlotId) := do
  let session ← lobby.findByCredentials credentials
  return (lobby.touch session.slot peer now, session.slot)

/-- Recognises a session by token and slot and records its activity. -/
def authenticateToken (lobby : Lobby) (token : UInt32) (slot : Int16) (peer : SocketAddress)
    (now : Instant) : Option (Lobby × SlotId) := do
  let session ← lobby.findByToken token slot
  return (lobby.touch session.slot peer now, session.slot)

/-- The flags of the session in a slot. -/
def flags (lobby : Lobby) (slot : SlotId) : UInt8 :=
  ((lobby.get? slot).map Session.flags).getD 0

end Lobby

namespace Config

/-- The seat that a relay packet claims, if the server has such a seat. -/
def claimedSeat? (config : Config) (credentials : Wire.Credentials) : Option Seat :=
  (Seat.ofWire? credentials.room credentials.index).filter fun seat =>
    seat.room.position < config.roomCount && seat.index.position < config.roomCapacity

/-- The index that a packet for one member names, if rooms have such an index. -/
def targetIndex? (config : Config) (target : Int8) : Option SeatIndex :=
  (SeatIndex.ofWire? target).filter fun index => index.position < config.roomCapacity

end Config

namespace World

/-- Answers with the clock reading and the session's flags. -/
def servePing (world : World) (now : Instant) (peer : SocketAddress) (ping : Wire.Ping) :
    World × Answer :=
  match world.lobby.authenticate ping.credentials peer now with
  | none => (world, .status .expired)
  | some (lobby, slot) =>
    ({ world with lobby },
      .pinged
        { status := .ok
          clientTime := ping.clientTime
          serverTime := now
          flags := lobby.flags slot })

/-- The answer to a login: the credentials of the session in a slot. -/
def welcome (lobby : Lobby) (slot : SlotId) : Answer :=
  match lobby.get? slot with
  | none => .drop
  | some session =>
    let c := session.credentials
    .loggedIn { status := .ok, token := c.token, slot := c.slot, room := c.room, index := c.index }

/-- Resumes the session of a device that has one, and otherwise opens one with a new token if a
slot is free. -/
def serveLogin (world : World) (now : Instant) (peer : SocketAddress) (login : Wire.Login) :
    World × Answer :=
  match world.lobby.findByDevice login.device with
  | some slot =>
    let lobby := world.lobby.touch slot peer now
    ({ world with lobby }, welcome lobby slot)
  | none =>
    if world.lobby.isFull then (world, .status .full)
    else
      let (world, token) := world.issueToken
      match world.allocate login.device peer token now with
      | (world, none) => (world, .status .full)
      | (world, some slot) => (world, welcome world.lobby slot)

/-- Closes the session. A slot that the lobby does not have is not even refused. -/
def serveLogout (world : World) (config : Config) (logout : Wire.Logout) : World × Answer :=
  match SlotId.ofWire? logout.credentials.slot with
  | none => (world, .drop)
  | some claimed =>
    if claimed.position < config.lobbyCapacity then
      match world.lobby.findByCredentials logout.credentials with
      | none => (world, .status .expired)
      | some session => ((world.remove session.slot).1, .status .ok)
    else (world, .drop)

/-- Elects the master of the room that a session sits in, and makes an answer from the seat, the
room and the session's flags after the election. A session without a seat is refused. -/
def answerSeated (world : World) (config : Config) (now : Instant) (slot : SlotId)
    (refusal : Wire.Status) (answer : Seat → Room → UInt8 → Answer) : World × Answer :=
  match world.lobby.get? slot with
  | none => (world, .drop)
  | some session =>
    match session.seat with
    | none => (world, .status refusal)
    | some seat =>
      match world.rooms.room? seat.room with
      | none => (world, .drop)
      | some room =>
        let (world, _) := world.elect room now config.masterTimeout
        (world, answer seat room (world.lobby.flags slot))

/-- Opens a room for a session that has no seat. One that has a seat is told where it sits. -/
def serveCreate (world : World) (config : Config) (now : Instant) (peer : SocketAddress)
    (create : Wire.Create) : World × Answer :=
  match world.lobby.authenticateToken create.token create.slot peer now with
  | none => (world, .status .expired)
  | some (lobby, slot) =>
    let world := { world with lobby }
    let terms : Terms :=
      { openTimeout := create.openSeconds.toNat * 1000
        properties := create.properties
        params := create.params }
    let seated := ((world.lobby.get? slot).bind Session.seat).isSome
    let world := if seated then world else (world.create slot now terms).1
    world.answerSeated config now slot .full fun seat _ flags =>
      .created
        { status := .ok
          room := seat.room.toWire
          index := seat.index.toWire
          flags }

/-- Finds a seat for a session that has none. One that has a seat is told where it sits. -/
def serveJoin (world : World) (config : Config) (now : Instant) (peer : SocketAddress)
    (join : Wire.Join) : World × Answer :=
  match world.lobby.authenticateToken join.token join.slot peer now with
  | none => (world, .status .expired)
  | some (lobby, slot) =>
    let world := { world with lobby }
    let seated := ((world.lobby.get? slot).bind Session.seat).isSome
    let world := if seated then world else (world.matchmake slot join.ranges now).1
    world.answerSeated config now slot .unmatched fun seat room flags =>
      .joined
        { status := .ok
          room := seat.room.toWire
          index := seat.index.toWire
          flags
          properties := room.terms.properties }

/-- Gives up the session's seat, if it has one. -/
def serveLeave (world : World) (now : Instant) (peer : SocketAddress) (leave : Wire.Leave) :
    World × Answer :=
  match world.lobby.authenticate leave.credentials peer now with
  | none => (world, .status .expired)
  | some (lobby, slot) => (({ world with lobby } : World).leave slot, .status .ok)

/-- Recognises the sender of a relay packet and makes an answer from the room that it claims to
sit in. -/
def answerMember (world : World) (now : Instant) (peer : SocketAddress)
    (credentials : Wire.Credentials) (seat : Seat) (answer : Lobby → Room → Answer) :
    World × Answer :=
  match world.lobby.authenticate credentials peer now with
  | none => (world, .status .expired)
  | some (lobby, _) =>
    match world.rooms.room? seat.room with
    | none => ({ world with lobby }, .drop)
    | some room => ({ world with lobby }, answer lobby room)

/-- Passes an unreliable packet on to the members that it targets. -/
def serveUnreliable (world : World) (config : Config) (now : Instant) (peer : SocketAddress)
    (header : Wire.UnreliableHeader) : World × Answer :=
  match config.claimedSeat? header.credentials with
  | none => (world, .drop)
  | some seat =>
    world.answerMember now peer header.credentials seat fun lobby room =>
      match room.unreliableRecipients lobby seat.index header.target with
      | [] => .silent
      | recipients => .relayUnreliable header recipients

/-- Passes a reliable packet on to its target. If nobody sits there, the server acknowledges the
packet itself. -/
def serveReliable (world : World) (config : Config) (now : Instant) (peer : SocketAddress)
    (header : Wire.ReliableHeader) : World × Answer :=
  match config.claimedSeat? header.credentials, config.targetIndex? header.target with
  | some seat, some target =>
    world.answerMember now peer header.credentials seat fun lobby room =>
      match room.reliableRoute lobby target with
      | .forward recipient => .relayReliable header recipient
      | .acknowledge => .acknowledge header.target header.ack peer
  | _, _ => (world, .drop)

/-- Passes an acknowledgement on to the member that it is for, under the sender's index. -/
def serveRelied (world : World) (config : Config) (now : Instant) (peer : SocketAddress)
    (relied : Wire.Relied) : World × Answer :=
  match config.claimedSeat? relied.credentials, config.targetIndex? relied.target with
  | some seat, some target =>
    world.answerMember now peer relied.credentials seat fun lobby room =>
      match room.reliedRecipient lobby target with
      | some recipient => .acknowledge relied.credentials.index relied.ack recipient
      | none => .silent
  | _, _ => (world, .drop)

/-- Carries out a request from a peer at a clock reading. -/
def serve (world : World) (config : Config) (now : Instant) (peer : SocketAddress) :
    Request → World × Answer
  | .ping ping => world.servePing now peer ping
  | .login login => world.serveLogin now peer login
  | .logout logout => world.serveLogout config logout
  | .create create => world.serveCreate config now peer create
  | .join join => world.serveJoin config now peer join
  | .leave leave => world.serveLeave now peer leave
  | .unreliable header => world.serveUnreliable config now peer header
  | .reliable header => world.serveReliable config now peer header
  | .relied relied => world.serveRelied config now peer relied

end World

end RoomRelay
