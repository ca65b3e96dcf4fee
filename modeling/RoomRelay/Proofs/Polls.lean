import RoomRelay.Proofs.Elections
import RoomRelay.Proofs.Tenure

/-!
# Elections everywhere at once

All elections write to the one lobby, one after another. Since no session sits in two rooms, none of
them reads what another one has written: each room is left as if it had voted alone, in whatever
order the rooms are taken, and whoever has no seat is left alone. A room votes just in case somebody
sits there.
-/

namespace RoomRelay

namespace Lobby

variable {lobby : Lobby} {rooms order : List Room}

/-- In whatever order rooms are listed, they have no member in common. -/
theorem Apart.perm (h : Apart rooms) (hperm : order.Perm rooms) : Apart order where
  nodup room hmem := h.nodup room (hperm.mem_iff.mp hmem)
  disjoint := by
    refine hperm.symm.pairwise h.disjoint ?_
    intro a b hdisjoint slot hb ha
    exact hdisjoint slot ha hb

/-- Rooms that have no member in common can elect in any order. -/
theorem get?_electEach_perm (h : Apart rooms) (hperm : order.Perm rooms) (now : Instant)
    (timeout : Nat) (slot : SlotId) :
    (lobby.electEach order now timeout).get? slot =
      (lobby.electEach rooms now timeout).get? slot := by
  by_cases hseated : ∃ room ∈ rooms, slot ∈ room.slots
  · obtain ⟨room, hmem, hslot⟩ := hseated
    rw [get?_electEach_of_mem h hmem hslot,
      get?_electEach_of_mem (h.perm hperm) (hperm.mem_iff.mpr hmem) hslot]
  · have houtside : ∀ room ∈ rooms, slot ∉ room.slots :=
      fun room hmem hslot => hseated ⟨room, hmem, hslot⟩
    rw [get?_electEach_of_notMem h.nodup houtside,
      get?_electEach_of_notMem (h.perm hperm).nodup fun room hmem =>
        houtside room (hperm.mem_iff.mp hmem)]

end Lobby

namespace World

/-- What elections in all rooms make of a world, and how many they are. -/
structure Polls (world : World) (now : Instant) (timeout : Nat) (after : World) (count : Nat) :
    Prop where
  /-- The members of each room are left as an election in this room alone would leave them. -/
  alone : ∀ {id : RoomId} {room : Room} {index : SeatIndex} {session : Session},
    world.rooms.room? id = some room → world.Sits session ⟨id, index⟩ →
      after.lobby.get? session.slot = (world.elect room now timeout).1.lobby.get? session.slot
  /-- In whatever order the rooms with members elect, the lobby ends up the same. -/
  order : ∀ order : List Room, order.Perm world.rooms.active →
    order.foldl (fun lobby room => (lobby.elect room now timeout).1) world.lobby = after.lobby
  /-- Who has no seat is left alone. -/
  unseated : ∀ {position : Nat} {session : Session},
    world.lobby.slots[position]? = some (some session) → session.seat = none →
      after.lobby.slots[position]? = some (some session)
  tokens : after.tokens = world.tokens
  rooms : after.rooms = world.rooms
  /-- The rooms in which somebody sits are counted. -/
  count : ∃ ids : List RoomId, ids.Nodup ∧ (∀ id, id ∈ ids ↔ world.Occupied id) ∧
    count = ids.length

namespace Consistent

variable {config : Config} {world : World} {id : RoomId} {room : Room}

/-- Elections in rooms of the table keep the lobby in order. -/
theorem electEach (h : world.Consistent config) {rooms : List Room}
    (hrooms : ∀ room ∈ rooms, room ∈ world.rooms.rooms) (now : Instant) (timeout : Nat) :
    (world.lobby.electEach rooms now timeout).Sound config.lobbyCapacity :=
  (h.moves (moves_electEach world now timeout rooms hrooms)).lobby

/-- The lobby that elections end in does not depend on their order. -/
theorem electEach_perm (h : world.Consistent config) {order : List Room}
    (hperm : order.Perm world.rooms.active) (now : Instant) (timeout : Nat) :
    world.lobby.electEach order now timeout =
      world.lobby.electEach world.rooms.active now timeout := by
  have hactive : ∀ room ∈ world.rooms.active, room ∈ world.rooms.rooms :=
    fun room hmem => Array.mem_toList_iff.mp (List.mem_filter.mp hmem).1
  have horder : ∀ room ∈ order, room ∈ world.rooms.rooms :=
    fun room hmem => hactive room (hperm.mem_iff.mp hmem)
  exact (h.electEach horder now timeout).ext (h.electEach hactive now timeout)
    (Lobby.get?_electEach_perm h.apart_active hperm now timeout)

/-- A member is left by all elections as by the one in its room. -/
theorem get?_electAll_of_sits (h : world.Consistent config)
    (hroom : world.rooms.room? id = some room) {index : SeatIndex} {session : Session}
    (hsits : world.Sits session ⟨id, index⟩) (now : Instant) (timeout : Nat) :
    (world.electAll now timeout).1.lobby.get? session.slot =
      (world.elect room now timeout).1.lobby.get? session.slot := by
  have hinside : session.room? = some id := Session.room?_eq_some_iff.mpr ⟨index, hsits.2⟩
  rw [h.get?_electAll, h.get?_elect hroom, hsits.1]
  simp [hinside, hroom]

/-- The rooms that have members are numbered by those in which somebody sits. -/
theorem mem_map_id_active (h : world.Consistent config) :
    id ∈ world.rooms.active.map Room.id ↔ world.Occupied id := by
  rw [List.mem_map]
  constructor
  · rintro ⟨room, hmem, rfl⟩
    obtain ⟨hmem, hmembers⟩ := List.mem_filter.mp hmem
    obtain ⟨position, hposition⟩ := Array.mem_iff_getElem?.mp (Array.mem_toList_iff.mp hmem)
    obtain ⟨id, -, hroom⟩ := h.exists_id hposition
    rw [h.room_id hroom]
    exact (h.occupied_iff hroom).mpr (by simpa using hmembers)
  · intro hoccupied
    obtain ⟨room, hroom⟩ : ∃ room, world.rooms.room? id = some room := by
      obtain ⟨session, index, hsits⟩ := hoccupied
      exact h.seated hsits.seat?
    refine ⟨room, List.mem_filter.mpr ⟨?_, ?_⟩, h.room_id hroom⟩
    · exact Array.mem_toList_iff.mpr (Array.mem_of_getElem? hroom)
    · simpa using (h.occupied_iff hroom).mp hoccupied

/-- Rooms that have members are listed in the order of their numbers. -/
theorem pairwise_map_id_active (h : world.Consistent config) :
    (world.rooms.active.map Room.id).Pairwise fun a b => a.position < b.position := by
  rw [List.pairwise_map]
  refine List.Pairwise.sublist List.filter_sublist (List.pairwise_iff_getElem.mpr ?_)
  intro i j hi hj hlt
  obtain ⟨id, rfl, hroom⟩ := h.exists_id (Array.getElem?_eq_getElem hi)
  obtain ⟨id', rfl, hroom'⟩ := h.exists_id (Array.getElem?_eq_getElem hj)
  rwa [Array.getElem_toList, Array.getElem_toList, h.room_id hroom, h.room_id hroom']

/-- No room is listed twice. -/
theorem nodup_map_id_active (h : world.Consistent config) :
    (world.rooms.active.map Room.id).Nodup :=
  h.pairwise_map_id_active.imp fun hlt heq => Nat.ne_of_lt hlt (congrArg RoomId.position heq)

/-- The rooms of a consistent world elect independently of each other. -/
theorem polls_electAll (h : world.Consistent config) (now : Instant) (timeout : Nat) :
    world.Polls now timeout (world.electAll now timeout).1 (world.electAll now timeout).2 where
  alone hroom hsits := h.get?_electAll_of_sits hroom hsits now timeout
  order order hperm := h.electEach_perm hperm now timeout
  unseated {position session} hslots hseat := by
    obtain rfl := h.lobby.slot_position hslots
    refine Lobby.get?_eq_some_iff.mp ?_
    rw [h.get?_electAll, Lobby.get?_eq_some_iff.mpr hslots]
    simp [Session.room?, hseat]
  tokens := rfl
  rooms := rfl
  count := ⟨_, h.nodup_map_id_active, fun _ => h.mem_map_id_active, (List.length_map _).symm⟩

end Consistent

/-- Elections of different rooms are independent in any world whose tables show their membership,
with any flags and any times of activity, at any reading of the clock, and with any timeout. -/
theorem polls_of_membership {config : Config} {world : World} (h : world.Membership config)
    (now : Instant) (timeout : Nat) :
    world.Polls now timeout (world.electAll now timeout).1 (world.electAll now timeout).2 := by
  obtain ⟨settings, consistent⟩ := h.exists_consistent
  exact consistent.polls_electAll now timeout

/-- Two devices open a room each, and a third one has no seat. Nobody is marked, and one of the two
has been silent for too long; so both rooms vote, and one of them elects a master. -/
theorem polls_of_two_rooms :
    let config := { Config.small with roomCount := 2 }
    let create (token : UInt32) (slot : Int16) : Event :=
      .datagram 0 smallPeer ⟨.empty, Wire.Create.record.bytes
        ⟨token, slot, 60, Vector.replicate _ 1, Vector.replicate _ 2⟩⟩
    let opened := (ofConfig config).run config
      [smallLogin 7, create 654988 0, smallLogin 8, create 654989 1, smallLogin 9]
    let unmarked := opened.modifySession ⟨0⟩ fun session => { session with flags := 0 }
    let world := unmarked.modifySession ⟨1⟩ fun session =>
      { session with flags := 0x40, lastActive := 7000 }
    let held := world.electAll 8000 5000
    world.Membership config ∧ world.Polls 8000 5000 held.1 held.2 ∧ held.2 = 2 ∧
      held.1.lobby.flags ⟨0⟩ = 0 ∧ held.1.lobby.flags ⟨1⟩ = 0x41 ∧ held.1.lobby.flags ⟨2⟩ = 0 := by
  intro config create opened unmarked world held
  have consistent : world.Consistent config := by
    refine Consistent.modifySession ?_ ⟨1⟩ (fun _ => rfl) fun _ => rfl
    refine Consistent.modifySession ?_ ⟨0⟩ (fun _ => rfl) fun _ => rfl
    exact (Consistent.ofConfig config).run _
  have hheld : held.2 = 2 ∧ held.1.lobby.flags ⟨0⟩ = 0 ∧ held.1.lobby.flags ⟨1⟩ = 0x41 ∧
      held.1.lobby.flags ⟨2⟩ = 0 := by
    decide +kernel
  exact ⟨consistent.membership, polls_of_membership consistent.membership 8000 5000, hheld⟩

end World

end RoomRelay
