import RoomRelay.Proofs.Membership.World
import RoomRelay.Proofs.Settings

/-!
# Placement

A session that asks for a seat has one already, sits down, or is refused one. It sits down in a
room that takes it in, and before that the room may be opened anew, which it only is while it is
empty. A server with valid settings never opens a room in vain: an empty room has a place.

Whoever ends up seated is answered after an election in the room. Asking again then finds the seat
and repeats the election, so the second answer is the first one.
-/

namespace RoomRelay

namespace World

/-- How a session sits down: a room takes it in, and was opened for it if it was empty. -/
inductive SitsDown (slot : SlotId) (seat : Seat) : World → World → Prop
  | join {world session room room'} (hget : world.lobby.get? slot = some session)
      (hseat : session.seat = none) (hroom : world.rooms.room? seat.room = some room)
      (hinsert : room.insert? session.slot = some (seat.index, room')) :
      SitsDown slot seat world (world.sit slot session seat room')
  | reopen {world after room} (now terms) (hroom : world.rooms.room? seat.room = some room)
      (hempty : room.isEmpty = true)
      (h : SitsDown slot seat (world.reopen seat.room now terms) after) :
      SitsDown slot seat world after

/-- How an attempt to sit down ends: in vain, or on a seat. -/
def Attempts (world : World) (slot : SlotId) (result : World × Bool) : Prop :=
  result = (world, false) ∨ ∃ seat after, SitsDown slot seat world after ∧ result = (after, true)

namespace SitsDown

variable {config : Config} {world after : World} {slot : SlotId} {seat : Seat}

theorem consistent (h : SitsDown slot seat world after) (hworld : world.Consistent config) :
    after.Consistent config := by
  induction h with
  | join hget hseat hroom hinsert => exact hworld.sit hget hseat hroom hinsert
  | reopen now terms hroom hempty _ ih => exact ih (hworld.reopen hroom hempty now terms)

/-- Sitting down changes nothing in the session's record but the seat. -/
theorem get? (h : SitsDown slot seat world after) :
    ∃ session, world.lobby.get? slot = some session ∧ session.seat = none ∧
      after.lobby.get? slot = some { session with seat := some seat } := by
  induction h with
  | join hget hseat _ _ =>
      exact ⟨_, hget, hseat, by rw [sit, Lobby.get?_modify_self, hget, Option.map_some]⟩
  | reopen _ _ _ _ _ ih => exact ih

theorem seat? (h : SitsDown slot seat world after) : after.lobby.seat? slot = some seat := by
  obtain ⟨session, -, -, hafter⟩ := h.get?
  rw [Lobby.seat?_of_get? hafter]

end SitsDown

variable {config : Config} {world : World} {slot : SlotId}

theorem attempts_join (id : RoomId) :
    world.Attempts slot (world.join slot id) := by
  rcases world.join_cases slot id with h | ⟨session, room, index, room', hget, hseat, hroom,
    hinsert, h⟩
  · exact .inl h
  · exact .inr ⟨⟨id, index⟩, _, .join hget hseat hroom hinsert, h⟩

theorem attempts_matchmake (ranges : Wire.Ranges) (now : Instant) :
    world.Attempts slot (world.matchmake slot ranges now) := by
  rw [matchmake_eq]
  split
  · exact .inl rfl
  · exact attempts_join _

/-- A session that creates a room sits down in the first empty one, opened anew, or nothing
happens: an empty room always has a place. -/
theorem Consistent.create_cases (hconfig : config.Bounded) (h : world.Consistent config)
    (slot : SlotId) (now : Instant) (terms : Terms) :
    world.create slot now terms = (world, false) ∨
      ∃ session id room index room', world.lobby.get? slot = some session ∧ session.seat = none ∧
        world.rooms.room? id = some room ∧ room.isEmpty = true ∧
        (room.reopen now terms).insert? session.slot = some (index, room') ∧
        world.create slot now terms =
          ((world.reopen id now terms).sit slot session ⟨id, index⟩ room', true) := by
  rcases world.create_cases slot now terms with hcreate | ⟨session, id, hget, hseat, hfind, hcreate⟩
  · exact .inl hcreate
  · right
    obtain ⟨room, hroom, hempty⟩ := h.of_find? hfind
    have hsound := (h.room hroom).reopen hempty now terms
    have hplace : (room.reopen now terms).isFull = false := by
      have hcapacity := hsound.capacity_eq
      have hcount : room.memberCount = 0 := by simpa [Room.isEmpty] using hempty
      have hpos := hconfig.roomCapacity_pos
      simp only [Room.isFull, decide_eq_false_iff_not, Nat.not_le]
      show room.memberCount < _
      omega
    obtain ⟨index, room', hinsert⟩ :=
      hsound.exists_insert? hconfig.roomCapacity_le_size hplace session.slot
    have hopened : (world.reopen id now terms).rooms.room? id = some (room.reopen now terms) := by
      simp [World.reopen, hroom]
    refine ⟨session, id, room, index, room', hget, hseat, hroom, hempty, hinsert, ?_⟩
    rw [hcreate]
    exact join_of_insert? hget hseat hopened hinsert

/-- A room is opened for a session only if the session then sits down in it. -/
theorem attempts_create (hconfig : config.Bounded) (h : world.Consistent config) (now : Instant)
    (terms : Terms) :
    world.Attempts slot (world.create slot now terms) := by
  rcases h.create_cases hconfig slot now terms with hcreate | ⟨session, id, room, index, room',
    hget, hseat, hroom, hempty, hinsert, hcreate⟩
  · exact .inl hcreate
  · have hopened : (world.reopen id now terms).rooms.room? id = some (room.reopen now terms) := by
      simp [reopen, hroom]
    have hsits : SitsDown slot ⟨id, index⟩ (world.reopen id now terms)
        ((world.reopen id now terms).sit slot session ⟨id, index⟩ room') :=
      .join hget hseat hopened hinsert
    exact .inr ⟨⟨id, index⟩, _, .reopen now terms hroom hempty hsits, hcreate⟩

theorem seat?_elect (room : Room) (now : Instant) (timeout : Nat) (other : SlotId) :
    (world.elect room now timeout).1.lobby.seat? other = world.lobby.seat? other := by
  refine Lobby.keep_elect (fun lobby => lobby.seat? other = world.lobby.seat? other) ?_
    _ _ _ _ rfl
  intro lobby slot master h
  rw [lobby.seat?_modify slot other _ fun _ _ => Session.seat_setMaster .., h]

/-- Whoever has a seat before an election has it afterwards, and the flags that are told. -/
theorem exists_get?_elect {seat : Seat} (hseat : world.lobby.seat? slot = some seat) (room : Room)
    (now : Instant) (timeout : Nat) :
    let elected := (world.elect room now timeout).1
    ∃ session, elected.lobby.get? slot = some session ∧ session.seat = some seat ∧
      elected.lobby.flags slot = session.flags := by
  intro elected
  obtain ⟨session, hget, hseated⟩ :=
    Lobby.seat?_eq_some_iff.mp ((world.seat?_elect room now timeout slot).trans hseat)
  exact ⟨session, hget, hseated, Lobby.flags_of_get? hget⟩

/-- An election that is repeated at once changes nothing. -/
theorem Consistent.elect_elect (h : world.Consistent config) {id : RoomId} {room : Room}
    (hroom : world.rooms.room? id = some room) (now : Instant) (timeout : Nat) :
    ((world.elect room now timeout).1.elect room now timeout).1 =
      (world.elect room now timeout).1 := by
  have once := h.elect room now timeout
  have twice := once.elect room now timeout
  have hlobby := twice.lobby.ext once.lobby (Lobby.get?_elect_elect (h.nodup_slots hroom))
  exact congrArg (fun lobby => (⟨world.tokens, lobby, world.rooms⟩ : World)) hlobby

variable {now : Instant} {attempt : World → World × Bool} {refusal : Wire.Status}
variable {answer : Seat → Room → UInt8 → Answer}

theorem settle_of_seat? {seat : Seat} {room : Room}
    (hseat : world.lobby.seat? slot = some seat)
    (hroom : world.rooms.room? seat.room = some room) :
    world.settle config now slot attempt refusal answer =
      let elected := (world.elect room now config.masterTimeout).1
      (elected, answer seat room (elected.lobby.flags slot)) := by
  rw [settle, hseat, Option.isSome_some, if_pos rfl]
  exact answerSeated_of_seat? hseat hroom now refusal answer

/-- A session that asks for a seat is refused one, or is answered where it sits after all. -/
theorem settle_cases (now : Instant) (refusal : Wire.Status)
    (answer : Seat → Room → UInt8 → Answer) (h : world.Consistent config)
    (hlive : (world.lobby.get? slot).isSome)
    (hattempt : world.Attempts slot (attempt world)) :
    world.settle config now slot attempt refusal answer = (world, .status refusal) ∨
      ∃ seat seated room, (seated = world ∨ SitsDown slot seat world seated) ∧
        seated.Consistent config ∧ seated.lobby.seat? slot = some seat ∧
        seated.rooms.room? seat.room = some room ∧
        world.settle config now slot attempt refusal answer =
          let elected := (seated.elect room now config.masterTimeout).1
          (elected, answer seat room (elected.lobby.flags slot)) := by
  cases hseat : world.lobby.seat? slot with
  | none =>
      rw [settle, hseat]
      rcases hattempt with hrefused | ⟨seat, seated, hsits, hseated⟩
      · left
        obtain ⟨session, hget⟩ := Option.isSome_iff_exists.mp hlive
        rw [Lobby.seat?_of_get? hget] at hseat
        simpa [hrefused] using answerSeated_of_seat_eq_none hget hseat now refusal answer
      · right
        have hconsistent := hsits.consistent h
        obtain ⟨room, hroom⟩ := hconsistent.seated hsits.seat?
        refine ⟨seat, seated, room, .inr hsits, hconsistent, hsits.seat?, hroom, ?_⟩
        simpa [hseated] using answerSeated_of_seat? hsits.seat? hroom now refusal answer
  | some seat =>
      obtain ⟨room, hroom⟩ := h.seated hseat
      exact .inr ⟨seat, world, room, .inl rfl, h, hseat, hroom, settle_of_seat? hseat hroom⟩

/-- Asking for a seat again is answered as before and changes nothing. -/
theorem settle_settle (h : world.Consistent config) (hlive : (world.lobby.get? slot).isSome)
    (hattempt : world.Attempts slot (attempt world)) :
    (world.settle config now slot attempt refusal answer).1.settle config now slot attempt refusal
        answer =
      world.settle config now slot attempt refusal answer := by
  rcases settle_cases now refusal answer h hlive hattempt with
    hrefused | ⟨seat, seated, room, -, hseated, hseat, hroom, hsettled⟩
  · rw [hrefused]
    exact hrefused
  · have hagain : (seated.elect room now config.masterTimeout).1.lobby.seat? slot = some seat := by
      rw [seat?_elect, hseat]
    have hroom' :
        (seated.elect room now config.masterTimeout).1.rooms.room? seat.room = some room := hroom
    rw [hsettled]
    dsimp only
    rw [settle_of_seat? hagain hroom', hseated.elect_elect hroom]

end World

end RoomRelay
