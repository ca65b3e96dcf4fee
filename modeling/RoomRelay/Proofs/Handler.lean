import RoomRelay.Proofs.Membership.Lobby
import RoomRelay.Proofs.Run

/-!
# How requests are served

Each handler is opened here and nowhere else. Whoever is not recognised is refused; for whoever is
recognised there is an equation that does not mention the credentials any more. Two families of
handlers are served in one way each: requests for a seat differ in how a seat is sought and in what
is answered, packets for the members of a room in the answers alone.
-/

namespace RoomRelay

/-- Whether a request was not heeded, or its session not recognised. -/
def Answer.IsRejection (answer : Answer) : Prop := answer = .drop ∨ answer = .status .expired

/-- The terms on which a request has a room opened. -/
def Wire.Create.terms (create : Wire.Create) : Terms :=
  { openTimeout := create.openSeconds.toNat * 1000
    properties := create.properties
    params := create.params }

namespace Lobby

variable {lobby : Lobby} {session : Session} {peer : SocketAddress} {now : Instant}

theorem flags_of_get? {slot : SlotId} (h : lobby.get? slot = some session) :
    lobby.flags slot = session.flags := by
  rw [flags, h]
  rfl

section Credentials

variable {credentials : Wire.Credentials}

theorem authenticate_of_eq_none (h : lobby.findByCredentials credentials = none) :
    lobby.authenticate credentials peer now = none := by
  simp [authenticate, h]

theorem authenticate_of_eq_some (h : lobby.findByCredentials credentials = some session) :
    lobby.authenticate credentials peer now =
      some (lobby.touch session.slot peer now, session.slot) := by
  simp [authenticate, h]

end Credentials

variable {token : UInt32} {slot : Int16}

theorem authenticateToken_of_eq_none (h : lobby.findByToken token slot = none) :
    lobby.authenticateToken token slot peer now = none := by
  simp [authenticateToken, h]

theorem authenticateToken_of_eq_some (h : lobby.findByToken token slot = some session) :
    lobby.authenticateToken token slot peer now =
      some (lobby.touch session.slot peer now, session.slot) := by
  simp [authenticateToken, h]

end Lobby

namespace World

variable {config : Config} {world : World} {now : Instant} {peer : SocketAddress}

/-- Opens a session with a token issued for it, if a slot is free. -/
def openSession (world : World) (device : Wire.Device) (peer : SocketAddress) (now : Instant) :
    World × Option SlotId :=
  world.issueToken.1.allocate device peer world.issueToken.2 now

theorem get?_openSession {device : Wire.Device} {slot : SlotId}
    (h : (world.openSession device peer now).2 = some slot) (other : SlotId) :
    (world.openSession device peer now).1.lobby.get? other =
      if slot = other then some (Session.fresh slot device world.issueToken.2 peer now)
      else world.lobby.get? other :=
  Lobby.get?_allocate h other

section Login

variable {login : Wire.Login}

/-- A device that has a session is welcomed back. -/
theorem serveLogin_of_findByDevice {slot : SlotId}
    (hfound : world.lobby.findByDevice login.device = some slot) :
    world.serveLogin now peer login =
      (world.touch slot peer now, welcome (world.lobby.touch slot peer now) slot) := by
  rw [serveLogin, hfound]
  rfl

/-- A new device is refused where no slot is free. -/
theorem serveLogin_of_isFull (hfound : world.lobby.findByDevice login.device = none)
    (hfull : world.lobby.isFull = true) :
    world.serveLogin now peer login = (world, .status .full) := by
  rw [serveLogin, hfound]
  simp only [hfull, if_true]

/-- Otherwise a session is opened for it. -/
theorem serveLogin_of_openSession (hfound : world.lobby.findByDevice login.device = none)
    (hfull : world.lobby.isFull = false) :
    (world.serveLogin now peer login).1 = (world.openSession login.device peer now).1 ∧
      ∀ slot, (world.openSession login.device peer now).2 = some slot →
        (world.serveLogin now peer login).2 =
          welcome (world.openSession login.device peer now).1.lobby slot := by
  simp only [serveLogin, openSession, hfound, hfull, Bool.false_eq_true, if_false]
  obtain ⟨issued, token⟩ := world.issueToken
  dsimp only
  obtain ⟨opened, found⟩ := issued.allocate login.device peer token now
  cases found with
  | none => exact ⟨rfl, fun slot hslot => by cases hslot⟩
  | some found => exact ⟨rfl, fun slot hslot => by cases hslot; rfl⟩

end Login

/-- A login records activity of the session of its device, opens a session, or is refused. -/
theorem serveLogin_cases (world : World) (now : Instant) (peer : SocketAddress)
    (login : Wire.Login) :
    let after := (world.serveLogin now peer login).1
    (∃ slot, world.lobby.findByDevice login.device = some slot ∧
        after = world.touch slot peer now) ∨
      (world.lobby.findByDevice login.device = none ∧ world.lobby.isFull = false ∧
        after = (world.openSession login.device peer now).1) ∨
      (world.lobby.findByDevice login.device = none ∧ after = world) := by
  cases hfound : world.lobby.findByDevice login.device with
  | none =>
      cases hfull : world.lobby.isFull with
      | false => exact .inr (.inl ⟨rfl, rfl, (serveLogin_of_openSession hfound hfull).1⟩)
      | true => exact .inr (.inr ⟨rfl, by rw [serveLogin_of_isFull hfound hfull]⟩)
  | some slot => exact .inl ⟨slot, rfl, by rw [serveLogin_of_findByDevice hfound]⟩

variable {session : Session}

theorem servePing_of_eq_none {ping : Wire.Ping}
    (h : world.lobby.findByCredentials ping.credentials = none) :
    world.servePing now peer ping = (world, .status .expired) := by
  rw [servePing, Lobby.authenticate_of_eq_none h]

theorem servePing_of_eq_some {ping : Wire.Ping}
    (h : world.lobby.findByCredentials ping.credentials = some session) :
    world.servePing now peer ping =
      (world.touch session.slot peer now,
        .pinged
          { status := .ok
            clientTime := ping.clientTime
            serverTime := now
            flags := (world.touch session.slot peer now).lobby.flags session.slot }) := by
  rw [servePing, Lobby.authenticate_of_eq_some h]
  rfl

theorem serveLeave_of_eq_none {leave : Wire.Leave}
    (h : world.lobby.findByCredentials leave.credentials = none) :
    world.serveLeave now peer leave = (world, .status .expired) := by
  rw [serveLeave, Lobby.authenticate_of_eq_none h]

theorem serveLeave_of_eq_some {leave : Wire.Leave}
    (h : world.lobby.findByCredentials leave.credentials = some session) :
    world.serveLeave now peer leave =
      ((world.touch session.slot peer now).leave session.slot, .status .ok) := by
  rw [serveLeave, Lobby.authenticate_of_eq_some h]
  rfl

/-- A slot that the lobby has is refused if its session is not the one that is named. -/
theorem serveLogout_of_position_lt {logout : Wire.Logout} {slot : SlotId}
    (hslot : SlotId.ofWire? logout.credentials.slot = some slot)
    (hlt : slot.position < config.lobbyCapacity) :
    world.serveLogout config logout =
      match world.lobby.findByCredentials logout.credentials with
      | none => (world, .status .expired)
      | some session => ((world.remove session.slot).1, .status .ok) := by
  rw [serveLogout, hslot]
  exact if_pos hlt

/-- A logout is rejected, or closes the session that it names. -/
theorem serveLogout_cases (world : World) (config : Config) (logout : Wire.Logout) :
    world.serveLogout config logout = (world, .drop) ∨
      world.serveLogout config logout = (world, .status .expired) ∨
      ∃ session, world.lobby.findByCredentials logout.credentials = some session ∧
        world.serveLogout config logout = ((world.remove session.slot).1, .status .ok) := by
  cases hslot : SlotId.ofWire? logout.credentials.slot with
  | none => exact .inl (by rw [serveLogout, hslot])
  | some slot =>
      by_cases hlt : slot.position < config.lobbyCapacity
      · rw [serveLogout_of_position_lt hslot hlt]
        cases world.lobby.findByCredentials logout.credentials with
        | none => exact .inr (.inl rfl)
        | some session => exact .inr (.inr ⟨session, rfl, rfl⟩)
      · left
        rw [serveLogout, hslot]
        exact if_neg hlt

/-- Where no seat was found, the answer is a refusal. -/
theorem answerSeated_of_seat_eq_none {slot : SlotId} (hget : world.lobby.get? slot = some session)
    (hseat : session.seat = none) (now : Instant) (refusal : Wire.Status)
    (answer : Seat → Room → UInt8 → Answer) :
    world.answerSeated config now slot refusal answer = (world, .status refusal) := by
  simp only [answerSeated, hget, hseat]

/-- Where a seat was found, there is an election and an answer. -/
theorem answerSeated_of_seat? {slot : SlotId} {seat : Seat} {room : Room}
    (hseat : world.lobby.seat? slot = some seat) (hroom : world.rooms.room? seat.room = some room)
    (now : Instant) (refusal : Wire.Status) (answer : Seat → Room → UInt8 → Answer) :
    world.answerSeated config now slot refusal answer =
      let elected := (world.elect room now config.masterTimeout).1
      (elected, answer seat room (elected.lobby.flags slot)) := by
  obtain ⟨session, hget, hseat⟩ := Lobby.seat?_eq_some_iff.mp hseat
  simp only [answerSeated, hget, hseat, hroom]

/-- An answer to someone who asked for a seat changes nothing but by an election. -/
theorem answerSeated_cases (world : World) (config : Config) (now : Instant) (slot : SlotId)
    (refusal : Wire.Status) (answer : Seat → Room → UInt8 → Answer) :
    let after := (world.answerSeated config now slot refusal answer).1
    after = world ∨
      ∃ id room, world.rooms.room? id = some room ∧
        after = (world.elect room now config.masterTimeout).1 := by
  cases hget : world.lobby.get? slot with
  | none => exact .inl (by simp only [answerSeated, hget])
  | some session =>
      cases hseat : session.seat with
      | none => exact .inl (by rw [answerSeated_of_seat_eq_none hget hseat])
      | some seat =>
          have hseated : world.lobby.seat? slot = some seat := by
            rw [Lobby.seat?_of_get? hget, hseat]
          cases hroom : world.rooms.room? seat.room with
          | none => exact .inl (by simp only [answerSeated, hget, hseat, hroom])
          | some room =>
              exact .inr ⟨seat.room, room, hroom, by rw [answerSeated_of_seat? hseated hroom]⟩

/-- Seats a session that has no seat by an attempt, and answers from the seat it has then. -/
def settle (world : World) (config : Config) (now : Instant) (slot : SlotId)
    (attempt : World → World × Bool) (refusal : Wire.Status)
    (answer : Seat → Room → UInt8 → Answer) : World × Answer :=
  (if (world.lobby.seat? slot).isSome then world else (attempt world).1).answerSeated
    config now slot refusal answer

theorem serveCreate_of_eq_none {create : Wire.Create}
    (h : world.lobby.findByToken create.token create.slot = none) :
    world.serveCreate config now peer create = (world, .status .expired) := by
  rw [serveCreate, Lobby.authenticateToken_of_eq_none h]

theorem serveCreate_of_eq_some {create : Wire.Create}
    (h : world.lobby.findByToken create.token create.slot = some session) :
    world.serveCreate config now peer create =
      (world.touch session.slot peer now).settle config now session.slot
        (fun world => world.create session.slot now create.terms) .full
        fun seat _ flags => .created
          { status := .ok, room := seat.room.toWire, index := seat.index.toWire, flags } := by
  rw [serveCreate, Lobby.authenticateToken_of_eq_some h]
  rfl

theorem serveJoin_of_eq_none {join : Wire.Join}
    (h : world.lobby.findByToken join.token join.slot = none) :
    world.serveJoin config now peer join = (world, .status .expired) := by
  rw [serveJoin, Lobby.authenticateToken_of_eq_none h]

theorem serveJoin_of_eq_some {join : Wire.Join}
    (h : world.lobby.findByToken join.token join.slot = some session) :
    world.serveJoin config now peer join =
      (world.touch session.slot peer now).settle config now session.slot
        (fun world => world.matchmake session.slot join.ranges now) .unmatched
        fun seat room flags => .joined
          { status := .ok, room := seat.room.toWire, index := seat.index.toWire, flags
            properties := room.terms.properties } := by
  rw [serveJoin, Lobby.authenticateToken_of_eq_some h]
  rfl

section Members

variable {credentials : Wire.Credentials}

theorem answerMember_of_eq_none (h : world.lobby.findByCredentials credentials = none) (seat : Seat)
    (answer : Lobby → Room → Answer) :
    world.answerMember now peer credentials seat answer = (world, .status .expired) := by
  rw [answerMember, Lobby.authenticate_of_eq_none h]

/-- Whoever is recognised is answered from the room that is claimed, if there is one. -/
theorem answerMember_of_eq_some (h : world.lobby.findByCredentials credentials = some session)
    (seat : Seat) (answer : Lobby → Room → Answer) :
    world.answerMember now peer credentials seat answer =
      (world.touch session.slot peer now,
        match world.rooms.room? seat.room with
        | none => .drop
        | some room => answer (world.touch session.slot peer now).lobby room) := by
  rw [answerMember, Lobby.authenticate_of_eq_some h]
  cases world.rooms.room? seat.room with
  | none => rfl
  | some room => rfl

end Members

/-- How a packet for members of a room is served: it is dropped for what it names, or answered from
the room that it claims. -/
inductive ForMembers (config : Config) (now : Instant) (peer : SocketAddress)
    (credentials : Wire.Credentials) : (World → World × Answer) → Prop
  | dropped : ForMembers config now peer credentials fun world => (world, .drop)
  | answered {seat : Seat} {answer : Lobby → Room → Answer}
      (hseat : config.claimedSeat? credentials = some seat)
      (hanswer : ∀ lobby room, ¬ (answer lobby room).IsRejection) :
      ForMembers config now peer credentials fun world =>
        world.answerMember now peer credentials seat answer

variable (config now peer)

theorem forMembers_serveUnreliable (header : Wire.UnreliableHeader) :
    ForMembers config now peer header.credentials fun world =>
      world.serveUnreliable config now peer header := by
  cases hseat : config.claimedSeat? header.credentials with
  | none =>
      simp only [serveUnreliable, hseat]
      exact .dropped
  | some seat =>
      simp only [serveUnreliable, hseat]
      refine .answered hseat ?_
      intro lobby room
      split <;> simp [Answer.IsRejection]

theorem forMembers_serveReliable (header : Wire.ReliableHeader) :
    ForMembers config now peer header.credentials fun world =>
      world.serveReliable config now peer header := by
  cases hseat : config.claimedSeat? header.credentials with
  | none =>
      simp only [serveReliable, hseat]
      exact .dropped
  | some seat =>
      cases htarget : config.targetIndex? header.target with
      | none =>
          simp only [serveReliable, hseat, htarget]
          exact .dropped
      | some target =>
          simp only [serveReliable, hseat, htarget]
          refine .answered hseat ?_
          intro lobby room
          split <;> simp [Answer.IsRejection]

theorem forMembers_serveRelied (relied : Wire.Relied) :
    ForMembers config now peer relied.credentials fun world =>
      world.serveRelied config now peer relied := by
  cases hseat : config.claimedSeat? relied.credentials with
  | none =>
      simp only [serveRelied, hseat]
      exact .dropped
  | some seat =>
      cases htarget : config.targetIndex? relied.target with
      | none =>
          simp only [serveRelied, hseat, htarget]
          exact .dropped
      | some target =>
          simp only [serveRelied, hseat, htarget]
          refine .answered hseat ?_
          intro lobby room
          split <;> simp [Answer.IsRejection]

end World

end RoomRelay
