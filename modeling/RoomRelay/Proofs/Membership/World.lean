import RoomRelay.Proofs.Election
import RoomRelay.Proofs.Membership.Room
import RoomRelay.Proofs.Move
import RoomRelay.Proofs.Seating
import RoomRelay.Proofs.Settings

/-!
# Seats and cells agree

A seat is recorded twice, in the session and in a cell of the room. In a consistent world the two
records agree everywhere: a cell holds a slot just in case the session there has that seat. The
lobby and every room keep their own books as well. A server starts in a consistent world, each move
leads from one to another, and so does opening a session; hence every run keeps to them.
-/

namespace RoomRelay

namespace World

@[simp] theorem seat?_touch (world : World) (slot other : SlotId) (peer : SocketAddress)
    (now : Instant) :
    (world.touch slot peer now).lobby.seat? other = world.lobby.seat? other :=
  world.lobby.seat?_modify slot other _ fun _ _ => rfl

theorem seat?_touch_of_get? {world : World} {session : Session}
    (hget : world.lobby.get? session.slot = some session) (peer : SocketAddress)
    (now : Instant) :
    (world.touch session.slot peer now).lobby.seat? session.slot = session.seat := by
  rw [seat?_touch, Lobby.seat?_of_get? hget]

/-- Whether lobby and rooms are in order and agree with each other. -/
structure Consistent (config : Config) (world : World) : Prop where
  lobby : world.lobby.Sound config.lobbyCapacity
  size_eq : world.rooms.size = min config.roomCount 65536
  room_id : ∀ {id : RoomId} {room : Room}, world.rooms.room? id = some room → room.id = id
  room : ∀ {id : RoomId} {room : Room}, world.rooms.room? id = some room →
    room.Sound config.roomCapacity
  member?_iff : ∀ {id : RoomId} {room : Room}, world.rooms.room? id = some room →
    ∀ {index : SeatIndex} {slot : SlotId},
      room.member? index = some slot ↔ world.lobby.seat? slot = some ⟨id, index⟩
  seated : ∀ {slot : SlotId} {seat : Seat}, world.lobby.seat? slot = some seat →
    ∃ room, world.rooms.room? seat.room = some room

namespace Consistent

variable {config : Config} {world : World}

theorem ofConfig (config : Config) : (World.ofConfig config).Consistent config where
  lobby := .ofCapacity _
  size_eq := by simp [World.ofConfig, RoomTable.ofSize, RoomTable.size]
  room_id h := by rw [RoomTable.room?_ofSize h]; rfl
  room h := by rw [RoomTable.room?_ofSize h]; exact .vacant _ _
  member?_iff {id room} h {index slot} := by
    have hmember : room.member? index = none := by
      rw [RoomTable.room?_ofSize h]
      simp only [Room.vacant, Room.member?, Array.getElem?_replicate]
      split <;> rfl
    have hseat : (World.ofConfig config).lobby.seat? slot = none := by
      simp only [World.ofConfig, Lobby.ofCapacity, Lobby.seat?, Lobby.get?,
        Array.getElem?_replicate]
      split <;> rfl
    rw [hmember, hseat]
    simp
  seated {slot seat} h := by
    simp only [World.ofConfig, Lobby.ofCapacity, Lobby.seat?, Lobby.get?,
      Array.getElem?_replicate] at h
    split at h <;> cases h

/-- No two members of a room have the same slot. -/
theorem nodup_slots (h : world.Consistent config) {id : RoomId} {room : Room}
    (hroom : world.rooms.room? id = some room) : room.slots.Nodup := by
  refine List.pairwise_map.mpr (room.pairwise_members.imp_of_mem ?_)
  rintro ⟨index, slot⟩ ⟨other, _⟩ hfirst hsecond hlt rfl
  have hfirst := (h.member?_iff hroom).mp (Room.mem_members.mp hfirst)
  have hsecond := (h.member?_iff hroom).mp (Room.mem_members.mp hsecond)
  rw [hfirst] at hsecond
  cases hsecond
  exact Nat.lt_irrefl _ hlt

/-- What happens to the lobby alone is of no consequence as long as no seat changes. -/
theorem of_seat?_eq (h : world.Consistent config) {lobby : Lobby}
    (hsound : lobby.Sound config.lobbyCapacity)
    (hseat : ∀ slot, lobby.seat? slot = world.lobby.seat? slot) :
    ({ world with lobby } : World).Consistent config where
  lobby := hsound
  size_eq := h.size_eq
  room_id := h.room_id
  room := h.room
  member?_iff hroom := by
    intro index slot
    rw [hseat]
    exact h.member?_iff hroom
  seated := by
    intro slot seat hseated
    rw [hseat] at hseated
    exact h.seated hseated

/-- A session that keeps its slot and its seat may change in any other way. -/
theorem modifySession (h : world.Consistent config) (slot : SlotId) {change : Session → Session}
    (hslot : ∀ session, (change session).slot = session.slot)
    (hseat : ∀ session, (change session).seat = session.seat) :
    (world.modifySession slot change).Consistent config :=
  h.of_seat?_eq (h.lobby.modify fun session _ => hslot session) fun other =>
    world.lobby.seat?_modify slot other change fun session _ => hseat session

theorem touch (h : world.Consistent config) (slot : SlotId) (peer : SocketAddress)
    (now : Instant) : (world.touch slot peer now).Consistent config :=
  h.modifySession slot (fun _ => rfl) fun _ => rfl

theorem allocate (h : world.Consistent config) (device : Wire.Device) (peer : SocketAddress)
    (token : Token) (now : Instant) :
    (world.allocate device peer token now).1.Consistent config :=
  h.of_seat?_eq (h.lobby.allocate device peer token now)
    (world.lobby.seat?_allocate device peer token now)

/-- Tokens are of no consequence. -/
theorem reissue (h : world.Consistent config) (tokens : TokenIssuer) :
    ({ world with tokens } : World).Consistent config :=
  ⟨h.lobby, h.size_eq, h.room_id, h.room, h.member?_iff, h.seated⟩

theorem openSession (h : world.Consistent config) (device : Wire.Device) (peer : SocketAddress)
    (now : Instant) : (world.openSession device peer now).1.Consistent config :=
  (h.reissue _).allocate device peer _ now

/-- A session is opened where a slot is free. -/
theorem exists_openSession (hconfig : config.Bounded) (h : world.Consistent config)
    (hfull : world.lobby.isFull = false) (device : Wire.Device) (peer : SocketAddress)
    (now : Instant) : ∃ slot, (world.openSession device peer now).2 = some slot :=
  h.lobby.exists_allocate hconfig.lobbyCapacity_le_size hfull device peer world.issueToken.2 now

theorem elect (h : world.Consistent config) (room : Room) (now : Instant) (timeout : Nat) :
    (world.elect room now timeout).1.Consistent config := by
  have kept : (world.lobby.elect room now timeout).1.Sound config.lobbyCapacity ∧
      ∀ slot, (world.lobby.elect room now timeout).1.seat? slot = world.lobby.seat? slot := by
    refine Lobby.keep_elect (fun lobby => lobby.Sound config.lobbyCapacity ∧
      ∀ slot, lobby.seat? slot = world.lobby.seat? slot) ?_ _ _ _ _ ⟨h.lobby, fun _ => rfl⟩
    rintro lobby slot master ⟨hsound, hseat⟩
    refine ⟨hsound.modify fun _ _ => Session.slot_setMaster .., ?_⟩
    intro other
    rw [lobby.seat?_modify slot other _ fun _ _ => Session.seat_setMaster .., hseat]
  exact h.of_seat?_eq kept.1 kept.2

theorem size_le (h : world.Consistent config) : world.rooms.size ≤ 65536 := by
  rw [h.size_eq]
  exact Nat.min_le_right _ _

/-- A room that is found by a search is the one with its number. -/
theorem exists_id (h : world.Consistent config) {position : Nat} {room : Room}
    (hroom : world.rooms.rooms[position]? = some room) :
    ∃ id : RoomId, id.position = position ∧ world.rooms.room? id = some room := by
  obtain ⟨hlt, -⟩ := Array.getElem?_eq_some_iff.mp hroom
  obtain ⟨id, rfl⟩ := RoomId.exists_position (Nat.lt_of_lt_of_le hlt h.size_le)
  exact ⟨id, rfl, hroom⟩

section Find

variable {wanted : Room → Bool} {id other : RoomId} {room : Room}

theorem of_find? (h : world.Consistent config)
    (hfind : (world.rooms.rooms.find? wanted).map Room.id = some id) :
    ∃ room, world.rooms.room? id = some room ∧ wanted room = true := by
  obtain ⟨room, hfound, rfl⟩ := Option.map_eq_some_iff.mp hfind
  obtain ⟨position, hroom⟩ := Array.mem_iff_getElem?.mp (Array.mem_of_find?_eq_some hfound)
  obtain ⟨id, rfl, hroom⟩ := h.exists_id hroom
  exact ⟨room, by rw [h.room_id hroom]; exact hroom, Array.find?_some hfound⟩

/-- A search finds the room with the lowest number of those that it is for. -/
theorem position_le_of_find? (h : world.Consistent config)
    (hfind : (world.rooms.rooms.find? wanted).map Room.id = some id)
    (hroom : world.rooms.room? other = some room) (hwanted : wanted room = true) :
    id.position ≤ other.position := by
  obtain ⟨found, hfound, rfl⟩ := Option.map_eq_some_iff.mp hfind
  obtain ⟨-, position, hlt, hget, hlower⟩ := Array.find?_eq_some_iff_getElem.mp hfound
  obtain ⟨id, rfl, hid⟩ := h.exists_id (Array.getElem?_eq_some_iff.mpr ⟨hlt, hget⟩)
  rw [h.room_id hid]
  refine Nat.le_of_not_lt fun hbefore => ?_
  obtain ⟨_, hget'⟩ := Array.getElem?_eq_some_iff.mp hroom
  have hskipped := hlower other.position hbefore
  rw [hget', hwanted] at hskipped
  cases hskipped

/-- A search that finds no room passes over all of them. -/
theorem not_wanted_of_find? (hfind : (world.rooms.rooms.find? wanted).map Room.id = none)
    (hroom : world.rooms.room? other = some room) : ¬ wanted room = true :=
  Array.find?_eq_none.mp (Option.map_eq_none_iff.mp hfind) room (Array.mem_of_getElem? hroom)

end Find

/-- A session sits down on a free seat. -/
theorem sit (h : world.Consistent config) {slot : SlotId} {session : Session} {id : RoomId}
    {room room' : Room} {index : SeatIndex} (hget : world.lobby.get? slot = some session)
    (hseat : session.seat = none) (hroom : world.rooms.room? id = some room)
    (hinsert : room.insert? session.slot = some (index, room')) :
    (world.sit slot session ⟨id, index⟩ room').Consistent config where
  lobby := h.lobby.modify fun found hfound => by rw [hget] at hfound; cases hfound; rfl
  size_eq := by rw [← h.size_eq]; exact RoomTable.size_modify ..
  room_id hfound := by
    refine RoomTable.forall_modify h.room_id (fun _ => ?_) hfound
    obtain ⟨-, rfl⟩ := Room.insert?_eq_some_iff.mp hinsert
    exact (h.room_id hroom : room.id = id)
  room hfound := RoomTable.forall_modify h.room (fun _ => (h.room hroom).insert? hinsert) hfound
  member?_iff := by
    intro other found hfound place taken
    have hslot : session.slot = slot := h.lobby.slot_eq hget
    have hunseated : world.lobby.seat? slot = none := by
      rw [Lobby.seat?_of_get? hget, hseat]
    rw [seat?_sit hget]
    rcases RoomTable.of_room?_modify hfound with ⟨rfl, -, -, rfl⟩ | ⟨hne, hfound⟩
    · rw [Room.member?_insert? hinsert, hslot]
      by_cases heq : slot = taken
      · subst heq
        have hfree : room.member? place ≠ some slot := by
          simp [h.member?_iff hroom, hunseated]
        by_cases hplace : index = place <;> simp [hplace, hfree]
      · by_cases hplace : index = place
        · subst hplace
          have hfree := Room.member?_of_insert? hinsert
          have : world.lobby.seat? taken ≠ some ⟨id, index⟩ := by
            simp [← h.member?_iff hroom, hfree]
          simp [heq, this]
        · simp [hplace, heq, h.member?_iff hroom]
    · rw [h.member?_iff hfound]
      by_cases heq : slot = taken
      · subst heq
        simp [hunseated, hne]
      · simp [heq]
  seated := by
    intro other place hplace
    rw [seat?_sit hget] at hplace
    apply RoomTable.exists_room?_modify
    split at hplace
    · cases hplace
      exact ⟨room, hroom⟩
    · exact h.seated hplace

theorem stand (h : world.Consistent config) {slot : SlotId} {session : Session} {seat : Seat}
    (hget : world.lobby.get? slot = some session) (hseat : session.seat = some seat) :
    (world.stand slot session seat).Consistent config where
  lobby := h.lobby.modify fun found hfound => by
    rw [hget] at hfound
    cases hfound
    exact Session.slot_setMaster ..
  size_eq := by rw [← h.size_eq]; exact RoomTable.size_modify ..
  room_id hfound := by
    refine RoomTable.forall_modify h.room_id (fun hroom => ?_) hfound
    rw [Room.id_vacate]
    exact h.room_id hroom
  room hfound := RoomTable.forall_modify h.room (fun hroom => (h.room hroom).vacate _ _) hfound
  member?_iff := by
    intro other found hfound place taken
    have hslot : session.slot = slot := h.lobby.slot_eq hget
    have hseated : world.lobby.seat? slot = some seat := by
      rw [Lobby.seat?_of_get? hget, hseat]
    simp only [World.stand]
    rw [Lobby.seat?_modify_const hget, Session.seat_setMaster]
    rcases RoomTable.of_room?_modify hfound with ⟨rfl, room, hroom, rfl⟩ | ⟨hne, hfound⟩
    · have hmember : room.member? seat.index = some slot := (h.member?_iff hroom).mpr hseated
      rw [Room.member?_vacate, hslot]
      by_cases heq : slot = taken
      · subst heq
        have hother : seat.index ≠ place → room.member? place ≠ some slot := by
          intro hne hplace
          have hboth := (h.member?_iff hroom).mp hplace
          rw [hseated] at hboth
          exact hne (congrArg Seat.index (Option.some.inj hboth))
        by_cases hplace : seat.index = place
        · simp [hplace, hplace ▸ hmember]
        · simp [hplace, hother hplace]
      · by_cases hplace : seat.index = place
        · subst hplace
          have hother : world.lobby.seat? taken ≠ some ⟨seat.room, seat.index⟩ := by
            rw [ne_eq, ← h.member?_iff hroom, hmember]
            exact fun hboth => heq (Option.some.inj hboth)
          simp [hmember, heq, hother]
        · simp [hplace, heq, h.member?_iff hroom]
    · rw [h.member?_iff hfound]
      by_cases heq : slot = taken
      · subst heq
        rw [hseated, if_pos rfl]
        constructor
        · intro h
          cases h
          exact absurd rfl hne
        · intro h
          cases h
      · simp [heq]
  seated := by
    intro other place hplace
    simp only [World.stand] at hplace ⊢
    rw [Lobby.seat?_modify_const hget] at hplace
    apply RoomTable.exists_room?_modify
    split at hplace
    · rw [Session.seat_setMaster] at hplace
      cases hplace
    · exact h.seated hplace

theorem join (h : world.Consistent config) (slot : SlotId) (id : RoomId) :
    (world.join slot id).1.Consistent config := by
  rcases world.join_cases slot id with hjoin | ⟨session, room, index, room', hget, hseat, hroom,
    hinsert, hjoin⟩
  · rw [hjoin]
    exact h
  · rw [hjoin]
    exact h.sit hget hseat hroom hinsert

/-- An empty room has no members that could be lost when it is opened anew. -/
theorem reopen (h : world.Consistent config) {id : RoomId} {room : Room}
    (hroom : world.rooms.room? id = some room) (hempty : room.isEmpty = true) (now : Instant)
    (terms : Terms) : (world.reopen id now terms).Consistent config where
  lobby := h.lobby
  size_eq := by rw [← h.size_eq]; exact RoomTable.size_modify ..
  room_id hfound := by
    refine RoomTable.forall_modify h.room_id (fun {old} hold => ?_) hfound
    exact (h.room_id hold : old.id = id)
  room hfound := by
    refine RoomTable.forall_modify h.room (fun hold => ?_) hfound
    rw [hroom] at hold
    cases hold
    exact (h.room hroom).reopen hempty now terms
  member?_iff := by
    intro other found hfound index slot
    rcases RoomTable.of_room?_modify hfound with ⟨rfl, old, hold, rfl⟩ | ⟨-, hfound⟩
    · rw [hroom] at hold
      cases hold
      rw [Room.member?_reopen, ← (h.room hroom).member?_of_isEmpty hempty index]
      exact h.member?_iff hroom
    · exact h.member?_iff hfound
  seated hseat := RoomTable.exists_room?_modify id _ (h.seated hseat)

theorem create (h : world.Consistent config) (slot : SlotId) (now : Instant) (terms : Terms) :
    (world.create slot now terms).1.Consistent config := by
  rcases world.create_cases slot now terms with hcreate | ⟨session, id, -, -, hfind, hcreate⟩
  · rw [hcreate]
    exact h
  · obtain ⟨room, hroom, hempty⟩ := h.of_find? hfind
    rw [hcreate]
    exact (h.reopen hroom hempty now terms).join slot id

theorem leave (h : world.Consistent config) (slot : SlotId) :
    (world.leave slot).Consistent config := by
  cases hseat : world.lobby.seat? slot with
  | none =>
      rw [world.leave_eq_self slot hseat]
      exact h
  | some seat =>
      obtain ⟨session, hget, hseat⟩ := Lobby.seat?_eq_some_iff.mp hseat
      rw [leave_of_seat hget hseat]
      exact h.stand hget hseat

theorem remove (h : world.Consistent config) (slot : SlotId) :
    (world.remove slot).1.Consistent config :=
  (h.leave slot).of_seat?_eq ((h.leave slot).lobby.release slot) fun other =>
    Lobby.seat?_release (world.seat?_leave slot) other

/-- A move leads from one consistent world to another. -/
theorem move (h : world.Consistent config) {after : World} (move : Move world after) :
    after.Consistent config := by
  cases move with
  | touch slot peer now => exact h.touch slot peer now
  | create slot now terms => exact h.create slot now terms
  | join slot room => exact h.join slot room
  | leave slot => exact h.leave slot
  | remove slot => exact h.remove slot
  | elect now timeout _ => exact h.elect _ now timeout

theorem moves (h : world.Consistent config) {after : World} (moves : Moves world after) :
    after.Consistent config :=
  moves.keep (fun step before => before.move step) h

theorem handle (h : world.Consistent config) (event : Event) :
    (world.handle config event).Consistent config := by
  rcases world.moves_handle config event with made | ⟨device, peer, now, -, -, hopened⟩
  · exact h.moves made
  · rw [hopened]
    exact h.openSession device peer now

theorem act (h : world.Consistent config) (action : Action) :
    (world.act config action).Consistent config := by
  rcases world.moves_act config action with made | ⟨tokens, device, peer, token, now, hopened⟩
  · exact h.moves made
  · rw [hopened]
    exact (h.reissue tokens).allocate device peer token now

theorem perform (h : world.Consistent config) (actions : List Action) :
    (world.perform config actions).Consistent config := by
  induction actions generalizing world with
  | nil => exact h
  | cons action rest ih => exact ih (h.act action)

theorem run (h : world.Consistent config) (events : List Event) :
    (world.run config events).Consistent config := by
  induction events generalizing world with
  | nil => exact h
  | cons event rest ih => exact ih (h.handle event)

/-- Every world that a server comes to is consistent. -/
theorem of_reachable (h : Reachable config world) : world.Consistent config :=
  h.invariant (.ofConfig config) fun _ event before => before.handle event

end Consistent

/-- Membership as the tables themselves show it, by positions of slots, rooms and cells. -/
structure Membership (config : Config) (world : World) : Prop where
  /-- A session knows the slot that it is stored in. -/
  slot_position : ∀ {position : Nat} {session : Session},
    world.lobby.slots[position]? = some (some session) → session.slot.position = position
  /-- The live sessions are counted. -/
  live_eq : world.lobby.live = world.lobby.slots.countP Option.isSome
  /-- A room knows its number. -/
  id_position : ∀ {position : Nat} {room : Room},
    world.rooms.rooms[position]? = some room → room.id.position = position
  /-- A room has as many cells as the settings say. -/
  size_cells : ∀ {position : Nat} {room : Room},
    world.rooms.rooms[position]? = some room → room.cells.size = config.roomCapacity
  /-- The members of a room are counted. -/
  memberCount_eq : ∀ {position : Nat} {room : Room},
    world.rooms.rooms[position]? = some room →
      room.memberCount = room.cells.countP Option.isSome
  /-- A cell holds a slot just in case the session there is live and has that seat. -/
  cell_iff : ∀ {position cell : Nat} {room : Room} {slot : SlotId},
    world.rooms.rooms[position]? = some room →
      (room.cells[cell]? = some (some slot) ↔
        ∃ session seat, world.lobby.slots[slot.position]? = some (some session) ∧
          session.seat = some seat ∧ seat.room.position = position ∧ seat.index.position = cell)
  /-- No session sits in two cells. -/
  cell_unique : ∀ {position position' cell cell' : Nat} {room room' : Room} {slot : SlotId},
    world.rooms.rooms[position]? = some room → room.cells[cell]? = some (some slot) →
      world.rooms.rooms[position']? = some room' → room'.cells[cell']? = some (some slot) →
        position = position' ∧ cell = cell'
  /-- No seat lies outside the table. -/
  seat_cell : ∀ {position : Nat} {session : Session} {seat : Seat},
    world.lobby.slots[position]? = some (some session) → session.seat = some seat →
      ∃ room, world.rooms.rooms[seat.room.position]? = some room ∧
        room.cells[seat.index.position]? = some (some session.slot)

namespace Consistent

variable {config : Config} {world : World}

theorem cell_iff (h : world.Consistent config) {position cell : Nat} {room : Room}
    {slot : SlotId} (hroom : world.rooms.rooms[position]? = some room) :
    room.cells[cell]? = some (some slot) ↔
      ∃ session seat, world.lobby.slots[slot.position]? = some (some session) ∧
        session.seat = some seat ∧ seat.room.position = position ∧
        seat.index.position = cell := by
  obtain ⟨id, rfl, hroom⟩ := h.exists_id hroom
  constructor
  · intro hcell
    have hindex : SeatIndex.ofPosition? cell = some ⟨UInt8.ofNat cell⟩ := by
      rw [SeatIndex.ofPosition?, if_pos ((h.room hroom).cell_lt hcell)]
    have hposition := SeatIndex.position_of_ofPosition? hindex
    have hmember := Room.member?_eq_some_iff.mpr (hposition.symm ▸ hcell)
    obtain ⟨session, hget, hseat⟩ :=
      Lobby.seat?_eq_some_iff.mp ((h.member?_iff hroom).mp hmember)
    exact ⟨session, _, Lobby.get?_eq_some_iff.mp hget, hseat, rfl, hposition⟩
  · rintro ⟨session, ⟨place, index⟩, hget, hseat, hplace, rfl⟩
    obtain rfl := RoomId.position_inj.mp hplace
    refine Room.member?_eq_some_iff.mp ((h.member?_iff hroom).mpr ?_)
    rw [Lobby.seat?_of_get? (Lobby.get?_eq_some_iff.mpr hget), hseat]

/-- A consistent world shows its membership in the tables. -/
theorem membership (h : world.Consistent config) : world.Membership config where
  slot_position := h.lobby.slot_position
  live_eq := h.lobby.live_eq
  id_position hroom := by
    obtain ⟨id, rfl, hroom⟩ := h.exists_id hroom
    rw [h.room_id hroom]
  size_cells hroom := by
    obtain ⟨id, rfl, hroom⟩ := h.exists_id hroom
    exact (h.room hroom).capacity_eq
  memberCount_eq hroom := by
    obtain ⟨id, rfl, hroom⟩ := h.exists_id hroom
    exact (h.room hroom).memberCount_eq
  cell_iff := h.cell_iff
  cell_unique hroom hcell hroom' hcell' := by
    obtain ⟨session, seat, hget, hseat, rfl, rfl⟩ := (h.cell_iff hroom).mp hcell
    obtain ⟨session', seat', hget', hseat', rfl, rfl⟩ := (h.cell_iff hroom').mp hcell'
    rw [hget] at hget'
    cases hget'
    rw [hseat] at hseat'
    cases hseat'
    exact ⟨rfl, rfl⟩
  seat_cell {position session seat} hget hseat := by
    have hposition := h.lobby.slot_position hget
    subst hposition
    have hseated : world.lobby.seat? session.slot = some seat := by
      rw [Lobby.seat?_of_get? (Lobby.get?_eq_some_iff.mpr hget), hseat]
    obtain ⟨room, hroom⟩ := h.seated hseated
    exact ⟨room, hroom, (h.cell_iff hroom).mpr ⟨session, seat, hget, hseat, rfl, rfl⟩⟩

end Consistent

/-- Tables that show their membership are those of a consistent world, whose settings are the sizes
of the tables. -/
theorem Membership.exists_consistent {config : Config} {world : World}
    (h : world.Membership config) : ∃ settings, world.Consistent settings := by
  refine ⟨{ config with roomCount := world.rooms.size, lobbySize := some world.lobby.capacity },
    ⟨rfl, h.slot_position, h.live_eq⟩, ?_, ?_, ?_, ?_, ?_⟩
  · -- The last room knows its number, so no room lies beyond the numbers.
    refine (Nat.min_eq_left (Nat.le_of_not_lt fun hlarge => ?_)).symm
    have hroom : world.rooms.rooms[65536]? = some world.rooms.rooms[65536] :=
      Array.getElem?_eq_getElem hlarge
    have hposition := h.id_position hroom
    have hnumber : world.rooms.rooms[65536].id.position < 65536 :=
      world.rooms.rooms[65536].id.number.toNat_lt
    omega
  · intro id room hroom
    exact RoomId.position_inj.mp (h.id_position hroom)
  · intro id room hroom
    refine ⟨h.size_cells hroom, h.memberCount_eq hroom, ?_⟩
    intro cell slot hcell
    obtain ⟨_, seat, -, -, -, rfl⟩ := (h.cell_iff hroom).mp hcell
    exact seat.index.number.toNat_lt
  · intro id room hroom index slot
    rw [Room.member?_eq_some_iff, h.cell_iff hroom, Lobby.seat?_eq_some_iff]
    constructor
    · rintro ⟨session, ⟨place, other⟩, hget, hseat, hplace, hindex⟩
      obtain rfl := RoomId.position_inj.mp hplace
      obtain rfl := SeatIndex.position_inj.mp hindex
      exact ⟨session, Lobby.get?_eq_some_iff.mpr hget, hseat⟩
    · rintro ⟨session, hget, hseat⟩
      exact ⟨session, _, Lobby.get?_eq_some_iff.mp hget, hseat, rfl, rfl⟩
  · intro slot seat hseated
    obtain ⟨session, hget, hseat⟩ := Lobby.seat?_eq_some_iff.mp hseated
    obtain ⟨room, hroom, -⟩ := h.seat_cell (Lobby.get?_eq_some_iff.mp hget) hseat
    exact ⟨room, hroom⟩

/-- Whatever is done to a server in whatever order, and whatever its settings, seats and cells
agree. -/
theorem membership_of_perform (config : Config) (actions : List Action) :
    ((ofConfig config).perform config actions).Membership config :=
  ((Consistent.ofConfig config).perform actions).membership

end World

end RoomRelay
