import RoomRelay.Proofs.Membership.World
import RoomRelay.World.Recipients

/-!
# Who sits in a room

The members of a room are the live sessions that have a seat in it. The room lists their slots and
the lobby has their records; together these make the roster of the room. In a consistent world the
roster names every member once, in the order of the seats, and a packet for members of the room is
sent to the addresses on it.
-/

namespace RoomRelay

/-- The room that a session has a seat in. -/
def Session.room? (session : Session) : Option RoomId := session.seat.map Seat.room

namespace Session

theorem room?_eq_some_iff {session : Session} {id : RoomId} :
    session.room? = some id ↔ ∃ index, session.seat = some ⟨id, index⟩ := by
  rw [room?, Option.map_eq_some_iff]
  constructor
  · rintro ⟨⟨_, index⟩, hseat, rfl⟩
    exact ⟨index, hseat⟩
  · rintro ⟨index, hseat⟩
    exact ⟨_, hseat, rfl⟩

@[simp] theorem room?_setMaster (session : Session) (master : Bool) :
    (session.setMaster master).room? = session.room? := by
  rw [room?, room?, seat_setMaster]

end Session

/-- The members of a room with their indices, as the lobby knows them. -/
def Room.roster (room : Room) (lobby : Lobby) : List (SeatIndex × Session) :=
  room.members.filterMap fun (index, slot) => (lobby.get? slot).map fun session => (index, session)

namespace Room

theorem mem_slots {room : Room} {slot : SlotId} :
    slot ∈ room.slots ↔ ∃ index, room.member? index = some slot := by
  simp only [slots, List.mem_map, Prod.exists, exists_eq_right, mem_members]

theorem length_members_le (room : Room) : room.members.length ≤ room.capacity := by
  rw [members]
  refine Nat.le_trans (List.length_filterMap_le _ _) ?_
  rw [List.length_zipIdx, Array.length_toList]
  exact Nat.le_refl _

theorem length_roster_le (room : Room) (lobby : Lobby) :
    (room.roster lobby).length ≤ room.capacity :=
  Nat.le_trans (List.length_filterMap_le _ _) room.length_members_le

/-- The addresses of members are those on the roster. -/
theorem addresses_eq (room : Room) (lobby : Lobby) (admits : SeatIndex → Bool) :
    room.addresses lobby admits =
      ((room.roster lobby).filter fun member => admits member.1).map fun member =>
        member.2.peer := by
  simp only [addresses, roster]
  induction room.members with
  | nil => rfl
  | cons member rest ih =>
      obtain ⟨index, slot⟩ := member
      cases hget : lobby.get? slot with
      | none => simpa [hget] using ih
      | some session => cases hadmits : admits index <;> simpa [hget, hadmits] using ih

end Room

namespace World

/-- Whether a session is live and has a seat. -/
def Sits (world : World) (session : Session) (seat : Seat) : Prop :=
  world.lobby.get? session.slot = some session ∧ session.seat = some seat

namespace Sits

variable {world : World} {session : Session} {seat : Seat}

theorem seat? (h : world.Sits session seat) : world.lobby.seat? session.slot = some seat :=
  (Lobby.seat?_of_get? h.1).trans h.2

theorem touch (h : world.Sits session seat) (peer : SocketAddress) (now : Instant) :
    (world.touch session.slot peer now).Sits (session.touch peer now) seat := by
  refine ⟨(world.lobby.get?_modify_self session.slot (·.touch peer now)).trans ?_, h.2⟩
  rw [h.1]
  rfl

theorem touch_of_ne {slot : SlotId} (h : world.Sits session seat) (peer : SocketAddress)
    (now : Instant) (hne : slot ≠ session.slot) : (world.touch slot peer now).Sits session seat :=
  ⟨(world.lobby.get?_modify_of_ne _ hne).trans h.1, h.2⟩

/-- Whoever sits down sits there, with the same record otherwise. -/
theorem of_sit (hget : world.lobby.get? session.slot = some session) (seat : Seat) (room : Room) :
    (world.sit session.slot session seat room).Sits { session with seat := some seat } seat := by
  refine ⟨(Lobby.get?_modify_self _ _ _).trans ?_, rfl⟩
  rw [hget]
  rfl

end Sits

/-- Whether a list names the members of a room: every live session that has a seat there once, in
the order of the seats. -/
structure Roster (world : World) (id : RoomId) (members : List (SeatIndex × Session)) : Prop where
  ordered : members.Pairwise fun a b => a.1.position < b.1.position
  mem_iff : ∀ {index : SeatIndex} {session : Session},
    (index, session) ∈ members ↔ world.Sits session ⟨id, index⟩

namespace Consistent

variable {config : Config} {world : World} {id : RoomId} {room : Room}

/-- A slot is listed in a room just in case its session sits there. -/
theorem mem_slots (h : world.Consistent config) (hroom : world.rooms.room? id = some room)
    {slot : SlotId} :
    slot ∈ room.slots ↔ ∃ session, world.lobby.get? slot = some session ∧
      session.room? = some id := by
  simp only [Room.mem_slots, h.member?_iff hroom, Lobby.seat?_eq_some_iff,
    Session.room?_eq_some_iff]
  constructor
  · rintro ⟨index, session, hget, hseat⟩
    exact ⟨session, hget, index, hseat⟩
  · rintro ⟨session, hget, index, hseat⟩
    exact ⟨index, session, hget, hseat⟩

/-- An election marks the winner among those who sit in its room, and nobody else there. -/
theorem get?_elect (h : world.Consistent config) (hroom : world.rooms.room? id = some room)
    (now : Instant) (timeout : Nat) (slot : SlotId) :
    (world.elect room now timeout).1.lobby.get? slot =
      (world.lobby.get? slot).map fun session =>
        if session.room? = some id then
          session.setMaster (world.lobby.winner room.slots now timeout = some slot)
        else session := by
  have hget := (world.lobby.elect_eq_winner now timeout (h.nodup_slots hroom)).2 slot
  refine hget.trans ?_
  split
  · next hmem =>
    obtain ⟨session, hlive, hinside⟩ := (h.mem_slots hroom).mp hmem
    simp [hlive, hinside]
  · next hmem =>
    cases hlive : world.lobby.get? slot with
    | none => rfl
    | some session =>
        have houtside : session.room? ≠ some id := fun hinside =>
          hmem ((h.mem_slots hroom).mpr ⟨session, hlive, hinside⟩)
        simp [houtside]

theorem roster (h : world.Consistent config) (hroom : world.rooms.room? id = some room) :
    world.Roster id (room.roster world.lobby) where
  ordered := by
    rw [Room.roster, List.pairwise_filterMap]
    refine room.pairwise_members.imp ?_
    rintro ⟨index, slot⟩ ⟨index', slot'⟩ hlt _ ha _ hb
    obtain ⟨_, -, rfl⟩ := Option.map_eq_some_iff.mp ha
    obtain ⟨_, -, rfl⟩ := Option.map_eq_some_iff.mp hb
    exact hlt
  mem_iff {index session} := by
    simp only [Room.roster, List.mem_filterMap, Option.map_eq_some_iff, Prod.exists,
      Room.mem_members, h.member?_iff hroom]
    constructor
    · rintro ⟨_, slot, hseat, found, hget, heq⟩
      cases heq
      obtain rfl := h.lobby.slot_eq hget
      exact ⟨hget, (Lobby.seat?_of_get? hget).symm.trans hseat⟩
    · intro hsits
      exact ⟨index, session.slot, hsits.seat?, session, hsits.1, rfl⟩

/-- A seat is taken by a session just in case somebody sits there. -/
theorem seat?_iff_sits (h : world.Consistent config) {slot : SlotId} {seat : Seat} :
    world.lobby.seat? slot = some seat ↔
      ∃ session, session.slot = slot ∧ world.Sits session seat := by
  rw [Lobby.seat?_eq_some_iff]
  constructor
  · rintro ⟨session, hget, hseat⟩
    obtain rfl := h.lobby.slot_eq hget
    exact ⟨session, rfl, hget, hseat⟩
  · rintro ⟨session, rfl, hget, hseat⟩
    exact ⟨session, hget, hseat⟩

/-- The address of a member is that of the session on the seat. -/
theorem memberAddress?_of_sits (h : world.Consistent config)
    (hroom : world.rooms.room? id = some room) {index : SeatIndex} {session : Session}
    (hsits : world.Sits session ⟨id, index⟩) :
    room.memberAddress? world.lobby index = some session.peer := by
  have hmember : room.member? index = some session.slot := (h.member?_iff hroom).mpr hsits.seat?
  simp [Room.memberAddress?, hmember, hsits.1]

/-- Nobody has an address on a seat that is free. -/
theorem memberAddress?_of_free (h : world.Consistent config)
    (hroom : world.rooms.room? id = some room) {index : SeatIndex}
    (hfree : ∀ session, ¬ world.Sits session ⟨id, index⟩) :
    room.memberAddress? world.lobby index = none := by
  have hmember : room.member? index = none := by
    refine Option.eq_none_iff_forall_ne_some.mpr fun slot hslot => ?_
    obtain ⟨session, -, hsits⟩ := h.seat?_iff_sits.mp ((h.member?_iff hroom).mp hslot)
    exact hfree session hsits
  simp [Room.memberAddress?, hmember]

end Consistent

end World

end RoomRelay
