import RoomRelay.Proofs.Membership.Lobby
import RoomRelay.Proofs.Session
import RoomRelay.Room.Lemmas
import RoomRelay.World.Basic

/-!
# Taking and giving up seats

Sitting down changes the record of a session and one room; so does standing up. Every attempt to
take or to give up a seat ends in one of these or leaves the world as it is. Creating a room opens
it first.
-/

namespace RoomRelay

namespace World

/-- Opens a room on new terms. -/
def reopen (world : World) (id : RoomId) (now : Instant) (terms : Terms) : World :=
  { world with rooms := world.rooms.modify id (·.reopen now terms) }

/-- Puts a session on a seat whose room takes it in. -/
def sit (world : World) (slot : SlotId) (session : Session) (seat : Seat) (room : Room) : World :=
  { world with
    rooms := world.rooms.modify seat.room fun _ => room
    lobby := world.lobby.modify slot fun _ => { session with seat := some seat } }

/-- Takes a session from its seat. -/
def stand (world : World) (slot : SlotId) (session : Session) (seat : Seat) : World :=
  { world with
    rooms := world.rooms.modify seat.room (·.vacate seat.index session.slot)
    lobby := world.lobby.modify slot fun _ => { session with seat := none }.setMaster false }

/-- Whoever sits down takes the seat, and nobody else's changes. -/
theorem seat?_sit {world : World} {slot : SlotId} {session : Session}
    (hget : world.lobby.get? slot = some session) (seat : Seat) (room : Room) (other : SlotId) :
    (world.sit slot session seat room).lobby.seat? other =
      if slot = other then some seat else world.lobby.seat? other :=
  Lobby.seat?_modify_const hget _ other

/-- The room that takes a session in is replaced. -/
theorem room?_sit {world : World} {id : RoomId} {room : Room}
    (hroom : world.rooms.room? id = some room) (slot : SlotId) (session : Session)
    (index : SeatIndex) (room' : Room) :
    (world.sit slot session ⟨id, index⟩ room').rooms.room? id = some room' := by
  rw [sit, RoomTable.room?_modify_self, hroom]
  rfl

variable (world : World) (slot : SlotId)

/-- A session that joins a room sits down there, or nothing happens. -/
theorem join_cases (id : RoomId) :
    world.join slot id = (world, false) ∨
      ∃ session room index room', world.lobby.get? slot = some session ∧ session.seat = none ∧
        world.rooms.room? id = some room ∧
        room.insert? session.slot = some (index, room') ∧
        world.join slot id = (world.sit slot session ⟨id, index⟩ room', true) := by
  simp only [join, seat, RoomTable.join]
  cases hget : world.lobby.get? slot with
  | none => exact .inl rfl
  | some session =>
      dsimp only
      cases hseat : session.seat with
      | none =>
          cases hroom : world.rooms.room? id with
          | none => exact .inl rfl
          | some room =>
              rcases hinsert : room.insert? session.slot with _ | ⟨index, room'⟩
              · left
                simp [hinsert, bind]
              · right
                refine ⟨session, room, index, room', rfl, hseat, rfl, hinsert, ?_⟩
                simp [hinsert, bind, sit]
      | some seat => exact .inl rfl

theorem join_of_insert? {world : World} {slot : SlotId} {session : Session} {id : RoomId}
    {room room' : Room} {index : SeatIndex} (hget : world.lobby.get? slot = some session)
    (hseat : session.seat = none) (hroom : world.rooms.room? id = some room)
    (hinsert : room.insert? session.slot = some (index, room')) :
    world.join slot id = (world.sit slot session ⟨id, index⟩ room', true) := by
  simp only [join, seat, RoomTable.join]
  rw [hget]
  simp [hseat, hroom, hinsert, bind, sit]

/-- Nobody who has a seat is concerned when a session joins a room. -/
theorem get?_join_of_seated (id : RoomId) {other : SlotId} (h : world.lobby.seat? other ≠ none) :
    (world.join slot id).1.lobby.get? other = world.lobby.get? other := by
  rcases world.join_cases slot id with hjoin | ⟨session, room, index, room', hget, hseat, -, -,
    hjoin⟩
  · rw [hjoin]
  · rw [hjoin]
    refine Lobby.get?_modify_of_ne _ _ ?_
    rintro rfl
    exact h (by rw [Lobby.seat?_of_get? hget, hseat])

theorem create_of_findEmpty {world : World} {slot : SlotId} {session : Session} {id : RoomId}
    (hget : world.lobby.get? slot = some session) (hseat : session.seat = none)
    (hfind : world.rooms.findEmpty = some id) (now : Instant) (terms : Terms) :
    world.create slot now terms = (world.reopen id now terms).join slot id := by
  simp [create, join, seat, RoomTable.create, reopen, hget, hseat, hfind]

/-- A session that creates a room opens the first empty one and joins it, or nothing happens. -/
theorem create_cases (now : Instant) (terms : Terms) :
    world.create slot now terms = (world, false) ∨
      ∃ session id, world.lobby.get? slot = some session ∧ session.seat = none ∧
        world.rooms.findEmpty = some id ∧
        world.create slot now terms = (world.reopen id now terms).join slot id := by
  cases hget : world.lobby.get? slot with
  | none =>
      left
      simp only [create, seat, hget]
  | some session =>
      cases hseat : session.seat with
      | none =>
          cases hfind : world.rooms.findEmpty with
          | none =>
              left
              simp [create, seat, RoomTable.create, hget, hseat, hfind]
          | some id =>
              exact .inr ⟨session, id, rfl, hseat, rfl,
                create_of_findEmpty hget hseat hfind now terms⟩
      | some taken =>
          left
          simp [create, seat, RoomTable.create, hget, hseat]

theorem get?_create_of_seated (now : Instant) (terms : Terms) {other : SlotId}
    (h : world.lobby.seat? other ≠ none) :
    (world.create slot now terms).1.lobby.get? other = world.lobby.get? other := by
  rcases world.create_cases slot now terms with hcreate | ⟨session, id, -, -, -, hcreate⟩
  · rw [hcreate]
  · rw [hcreate]
    exact (world.reopen id now terms).get?_join_of_seated slot id h

/-- A session without a seat cannot leave it. -/
theorem leave_eq_self (h : world.lobby.seat? slot = none) : world.leave slot = world := by
  rw [leave]
  split
  · rfl
  · next session hget =>
    have hseat : session.seat = none := by rw [← h, Lobby.seat?_of_get? hget]
    rw [RoomTable.leave, hseat]
    dsimp only
    rw [Lobby.modify_eq_self]
    intro found hfound
    rw [hget] at hfound
    exact Option.some.inj hfound

variable {world slot}

/-- A session that leaves its seat stands up. -/
theorem leave_of_seat {session : Session} {seat : Seat}
    (hget : world.lobby.get? slot = some session) (hseat : session.seat = some seat) :
    world.leave slot = world.stand slot session seat := by
  simp only [leave, RoomTable.leave]
  rw [hget]
  dsimp only
  rw [hseat]
  rfl

/-- Leaving a seat changes no other session. -/
theorem get?_leave_of_ne (world : World) {slot other : SlotId} (h : slot ≠ other) :
    (world.leave slot).lobby.get? other = world.lobby.get? other := by
  cases hseat : world.lobby.seat? slot with
  | none => rw [world.leave_eq_self slot hseat]
  | some seat =>
      obtain ⟨session, hget, hseat⟩ := Lobby.seat?_eq_some_iff.mp hseat
      rw [leave_of_seat hget hseat]
      exact Lobby.get?_modify_of_ne _ _ h

/-- Closing a session frees its slot and changes no other session. -/
theorem get?_remove (world : World) (slot other : SlotId) :
    (world.remove slot).1.lobby.get? other =
      if slot = other then none else world.lobby.get? other := by
  rw [remove, release, Lobby.get?_release]
  split
  · rfl
  · next hne => exact world.get?_leave_of_ne hne

/-- Whoever left has no seat. -/
theorem seat?_leave (world : World) (slot : SlotId) :
    (world.leave slot).lobby.seat? slot = none := by
  cases hseat : world.lobby.seat? slot with
  | none => rw [world.leave_eq_self slot hseat, hseat]
  | some seat =>
      obtain ⟨session, hget, hseat⟩ := Lobby.seat?_eq_some_iff.mp hseat
      rw [leave_of_seat hget hseat, stand, Lobby.seat?_modify_const hget, if_pos rfl]
      exact Session.seat_setMaster ..

end World

end RoomRelay
