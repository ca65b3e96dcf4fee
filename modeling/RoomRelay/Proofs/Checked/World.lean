import RoomRelay.Proofs.Checked.Tables
import RoomRelay.Proofs.Membership.World

/-!
# Checked operations on the world

What is done to the world by taking and giving up seats, by closing sessions and by elections, with
everything checked that it does to the tables. In a consistent world a room that a search has found
lies at the position of its number, every room keeps its books, and there are no more sessions to
close than are counted; so nothing that is checked fails.
-/

namespace RoomRelay

namespace RoomTable

/-- Seats a session without a seat in a room. -/
def joinChecked (table : RoomTable) (session : Session) (id : RoomId) :
    Checked (RoomTable × Option Session) :=
  if session.seat.isSome then return (table, none)
  else
    match table.room? id with
    | none => return (table, none)
    | some room => do
      match ← room.insertChecked session.slot with
      | none => return (table, none)
      | some (index, room) =>
        return (table.modify id fun _ => room, some { session with seat := some ⟨id, index⟩ })

/-- Reopens the first empty room on a session's terms and seats the session in it. -/
def createChecked (table : RoomTable) (session : Session) (now : Instant) (terms : Terms) :
    Checked (RoomTable × Option Session) :=
  if session.seat.isSome then return (table, none)
  else
    match table.findEmpty with
    | none => return (table, none)
    | some id => do
      let room ← Checked.get table.rooms id.position
      (table.modify id fun _ => room.reopen now terms).joinChecked session id

/-- Seats a session in the first room that suits it. -/
def matchmakeChecked (table : RoomTable) (session : Session) (ranges : Wire.Ranges)
    (now : Instant) : Checked (RoomTable × Option Session) :=
  if session.seat.isSome then return (table, none)
  else
    match table.findJoinable ranges now with
    | none => return (table, none)
    | some id => table.joinChecked session id

/-- Takes a session from its seat. -/
def leaveChecked (table : RoomTable) (session : Session) : Checked (RoomTable × Session) :=
  match session.seat with
  | none => return (table, session)
  | some seat => do
    let left := { session with seat := none }.setMaster false
    match table.room? seat.room with
    | none => return (table, left)
    | some room =>
      let room ← room.vacateChecked seat.index session.slot
      return (table.modify seat.room fun _ => room, left)

/-- To change the room with a number is to put another one in its place, if there is one. -/
theorem modify_eq (table : RoomTable) (id : RoomId) (change : Room → Room) :
    table.modify id change =
      match table.room? id with
      | none => table
      | some room => table.modify id fun _ => change room := by
  cases hroom : table.room? id with
  | none =>
      refine congrArg mk (Array.ext_getElem? fun position => ?_)
      rw [Array.getElem?_modify]
      split
      · next heq =>
        subst heq
        rw [show table.rooms[id.position]? = none from hroom]
        rfl
      · rfl
  | some room =>
      refine congrArg mk (Array.ext_getElem? fun position => ?_)
      rw [Array.getElem?_modify, Array.getElem?_modify]
      split
      · next heq =>
        subst heq
        rw [show table.rooms[id.position]? = some room from hroom]
        rfl
      · rfl

end RoomTable

namespace World

/-- Opens a session in the first free slot. -/
def allocateChecked (world : World) (device : Wire.Device) (peer : SocketAddress) (token : Token)
    (now : Instant) : Checked (World × Option SlotId) := do
  let (lobby, slot) ← world.lobby.allocateChecked device peer token now
  return ({ world with lobby }, slot)

/-- Lets the session in a slot try for a seat, and tells whether it got one. -/
def seatChecked (world : World) (slot : SlotId)
    (attempt : RoomTable → Session → Checked (RoomTable × Option Session)) :
    Checked (World × Bool) :=
  match world.lobby.get? slot with
  | none => return (world, false)
  | some session => do
    match ← attempt world.rooms session with
    | (rooms, none) => return ({ world with rooms }, false)
    | (rooms, some seated) =>
      return ({ world with rooms, lobby := world.lobby.modify slot fun _ => seated }, true)

/-- Reopens an empty room on the terms of the session in a slot, and seats the session there. -/
def createChecked (world : World) (slot : SlotId) (now : Instant) (terms : Terms) :
    Checked (World × Bool) :=
  world.seatChecked slot fun rooms session => rooms.createChecked session now terms

/-- Seats the session in a slot in a given room. -/
def joinChecked (world : World) (slot : SlotId) (room : RoomId) : Checked (World × Bool) :=
  world.seatChecked slot fun rooms session => rooms.joinChecked session room

/-- Seats the session in a slot in the first room that suits it. -/
def matchmakeChecked (world : World) (slot : SlotId) (ranges : Wire.Ranges) (now : Instant) :
    Checked (World × Bool) :=
  world.seatChecked slot fun rooms session => rooms.matchmakeChecked session ranges now

/-- Takes the session in a slot from its seat. -/
def leaveChecked (world : World) (slot : SlotId) : Checked World :=
  match world.lobby.get? slot with
  | none => return world
  | some session => do
    let (rooms, session) ← world.rooms.leaveChecked session
    return { world with rooms, lobby := world.lobby.modify slot fun _ => session }

/-- Closes the session in a slot: it leaves its seat and then its slot. -/
def removeChecked (world : World) (slot : SlotId) : Checked (World × Option Session) := do
  let world ← world.leaveChecked slot
  let (lobby, session) ← world.lobby.releaseChecked slot
  return ({ world with lobby }, session)

/-- Closes those sessions among slots that have been silent for longer than a timeout, and goes on
counting them. -/
def expireSlotsChecked (world : World) (now : Instant) (timeout count : Nat) :
    List SlotId → Checked (World × Nat)
  | [] => return (world, count)
  | slot :: rest =>
    if world.lobby.isOverdue now timeout slot then do
      let (world, _) ← world.removeChecked slot
      let count ← Checked.add count 1
      world.expireSlotsChecked now timeout count rest
    else world.expireSlotsChecked now timeout count rest

/-- Closes every session that has been silent for longer than a timeout, and counts them. -/
def expireIdleChecked (world : World) (now : Instant) (timeout : Nat) : Checked (World × Nat) :=
  world.expireSlotsChecked now timeout 0
    ((List.range world.lobby.capacity).filterMap SlotId.ofPosition?)

/-- Elects the masters of rooms one after another, and goes on counting the rooms. -/
def electEachChecked (world : World) (now : Instant) (timeout count : Nat) :
    List Room → Checked (World × Nat)
  | [] => return (world, count)
  | room :: rest => do
    let (world, _) := world.elect room now timeout
    let count ← Checked.add count 1
    world.electEachChecked now timeout count rest

/-- Elects the master of every room that has members, and counts those rooms. -/
def electAllChecked (world : World) (now : Instant) (timeout : Nat) : Checked (World × Nat) :=
  world.electEachChecked now timeout 0 world.rooms.active

variable {config : Config} {world : World}

namespace Consistent

theorem rooms_joinChecked_eq (h : world.Consistent config) (session : Session) (id : RoomId) :
    world.rooms.joinChecked session id = .ok (world.rooms.join session id) := by
  rw [RoomTable.joinChecked, RoomTable.join]
  split
  · rfl
  · cases hroom : world.rooms.room? id with
    | none => rfl
    | some room =>
        simp only [bind, Option.bind, (h.room hroom).insertChecked_eq]
        cases room.insert? session.slot <;> rfl

theorem rooms_createChecked_eq (h : world.Consistent config) (session : Session) (now : Instant)
    (terms : Terms) :
    world.rooms.createChecked session now terms =
      .ok (world.rooms.create session now terms) := by
  rw [RoomTable.createChecked, RoomTable.create]
  split
  · rfl
  · cases hfind : world.rooms.findEmpty with
    | none => rfl
    | some id =>
        obtain ⟨room, hroom, hempty⟩ := h.of_find? hfind
        have hreopen := world.rooms.modify_eq id (·.reopen now terms)
        rw [hroom] at hreopen
        dsimp only at hreopen ⊢
        rw [Checked.get_of_getElem? hroom, Checked.ok_bind, ← hreopen]
        exact (h.reopen hroom hempty now terms).rooms_joinChecked_eq session id

theorem rooms_matchmakeChecked_eq (h : world.Consistent config) (session : Session)
    (ranges : Wire.Ranges) (now : Instant) :
    world.rooms.matchmakeChecked session ranges now =
      .ok (world.rooms.matchmake session ranges now) := by
  rw [RoomTable.matchmakeChecked, RoomTable.matchmake]
  split
  · rfl
  · cases world.rooms.findJoinable ranges now with
    | none => rfl
    | some id => exact h.rooms_joinChecked_eq session id

theorem rooms_leaveChecked_eq (h : world.Consistent config) (session : Session) :
    world.rooms.leaveChecked session = .ok (world.rooms.leave session) := by
  rw [RoomTable.leaveChecked, RoomTable.leave]
  cases session.seat with
  | none => rfl
  | some seat =>
      dsimp only
      rw [RoomTable.modify_eq]
      cases hroom : world.rooms.room? seat.room with
      | none => rfl
      | some room =>
          dsimp only
          rw [(h.room hroom).vacateChecked_eq, Checked.ok_bind]
          rfl

theorem allocateChecked_eq (h : world.Consistent config) (device : Wire.Device)
    (peer : SocketAddress) (token : Token) (now : Instant) :
    world.allocateChecked device peer token now =
      .ok (world.allocate device peer token now) := by
  rw [World.allocateChecked, h.lobby.allocateChecked_eq, Checked.ok_bind]
  rfl

/-- A session tries for a seat without a fault if the rooms let it do so. -/
theorem seatChecked_eq {slot : SlotId}
    {checked : RoomTable → Session → Checked (RoomTable × Option Session)}
    {attempt : RoomTable → Session → RoomTable × Option Session}
    (h : ∀ session, checked world.rooms session = .ok (attempt world.rooms session)) :
    world.seatChecked slot checked = .ok (world.seat slot attempt) := by
  rw [seatChecked, seat]
  cases world.lobby.get? slot with
  | none => rfl
  | some session =>
      dsimp only
      rw [h session, Checked.ok_bind]
      rcases attempt world.rooms session with ⟨rooms, _ | seated⟩ <;> rfl

theorem createChecked_eq (h : world.Consistent config) (slot : SlotId) (now : Instant)
    (terms : Terms) : world.createChecked slot now terms = .ok (world.create slot now terms) :=
  seatChecked_eq fun session => h.rooms_createChecked_eq session now terms

theorem joinChecked_eq (h : world.Consistent config) (slot : SlotId) (room : RoomId) :
    world.joinChecked slot room = .ok (world.join slot room) :=
  seatChecked_eq fun session => h.rooms_joinChecked_eq session room

theorem matchmakeChecked_eq (h : world.Consistent config) (slot : SlotId) (ranges : Wire.Ranges)
    (now : Instant) :
    world.matchmakeChecked slot ranges now = .ok (world.matchmake slot ranges now) :=
  seatChecked_eq fun session => h.rooms_matchmakeChecked_eq session ranges now

theorem leaveChecked_eq (h : world.Consistent config) (slot : SlotId) :
    world.leaveChecked slot = .ok (world.leave slot) := by
  rw [leaveChecked, World.leave]
  cases world.lobby.get? slot with
  | none => rfl
  | some session =>
      dsimp only
      rw [h.rooms_leaveChecked_eq, Checked.ok_bind]
      rfl

theorem removeChecked_eq (h : world.Consistent config) (slot : SlotId) :
    world.removeChecked slot = .ok (world.remove slot) := by
  rw [removeChecked, h.leaveChecked_eq, Checked.ok_bind,
    (h.leave slot).lobby.releaseChecked_eq, Checked.ok_bind]
  rfl

/-- A session that is closed is no longer counted. -/
theorem live_remove (h : world.Consistent config) {slot : SlotId} {session : Session}
    (hget : world.lobby.get? slot = some session) :
    (world.remove slot).1.lobby.live + 1 = world.lobby.live := by
  obtain ⟨left, hleft, hlive⟩ : ∃ left, (world.leave slot).lobby.get? slot = some left ∧
      (world.leave slot).lobby.live = world.lobby.live := by
    cases hseat : session.seat with
    | none =>
        rw [world.leave_eq_self slot (by rw [Lobby.seat?_of_get? hget, hseat])]
        exact ⟨session, hget, rfl⟩
    | some seat =>
        rw [leave_of_seat hget hseat]
        refine ⟨{ session with seat := none }.setMaster false, ?_, rfl⟩
        rw [World.stand, Lobby.get?_modify_self, hget, Option.map_some]
  have hcounted : 1 ≤ world.lobby.live :=
    h.lobby.live_eq ▸ one_le_countP_isSome (Lobby.get?_eq_some_iff.mp hget)
  have hremoved : (world.remove slot).1.lobby.live = world.lobby.live - 1 := by
    rw [World.remove, release, Lobby.release, hleft, ← hlive]
  omega

/-- No more sessions are closed than are counted. -/
theorem expireSlotsChecked_eq (h : world.Consistent config) (now : Instant) (timeout : Nat)
    {count : Nat} (hcount : count + world.lobby.live ≤ maxSize) (slots : List SlotId) :
    world.expireSlotsChecked now timeout count slots =
      .ok ((world.expireSlots now timeout slots).1,
        count + (world.expireSlots now timeout slots).2) := by
  induction slots generalizing world count with
  | nil => rfl
  | cons slot rest ih =>
      rw [expireSlotsChecked, expireSlots]
      split
      · next hoverdue =>
        obtain ⟨session, hget⟩ : ∃ session, world.lobby.get? slot = some session := by
          rw [Lobby.isOverdue] at hoverdue
          split at hoverdue
          · cases hoverdue
          · next session hget => exact ⟨session, hget⟩
        have hlive := h.live_remove hget
        rw [h.removeChecked_eq, Checked.ok_bind, Checked.add_of_le (by omega)]
        dsimp only [Checked.ok_bind]
        rw [ih (h.remove slot) (by omega), Nat.add_assoc, Nat.add_comm 1]
      · exact ih h hcount

theorem expireIdleChecked_eq (h : world.Consistent config) (now : Instant) (timeout : Nat) :
    world.expireIdleChecked now timeout = .ok (world.expireIdle now timeout) := by
  have hcount : 0 + world.lobby.live ≤ maxSize := by
    rw [Nat.zero_add]
    exact Nat.le_trans h.lobby.live_le (by decide)
  rw [expireIdleChecked, h.expireSlotsChecked_eq now timeout hcount, Nat.zero_add]
  rfl

end Consistent

theorem electEachChecked_eq (world : World) (now : Instant) (timeout : Nat) {count : Nat}
    {rooms : List Room} (hcount : count + rooms.length ≤ maxSize) :
    world.electEachChecked now timeout count rooms =
      .ok ({ world with lobby := world.lobby.electEach rooms now timeout },
        count + rooms.length) := by
  induction rooms generalizing world count with
  | nil => rfl
  | cons room rest ih =>
      rw [List.length_cons] at hcount ⊢
      rw [electEachChecked, Checked.add_of_le (by omega)]
      dsimp only [Checked.ok_bind]
      rw [ih _ (by omega), Nat.add_assoc, Nat.add_comm 1]
      rfl

/-- There are no more rooms to count than can be numbered. -/
theorem Consistent.electAllChecked_eq (h : world.Consistent config) (now : Instant)
    (timeout : Nat) : world.electAllChecked now timeout = .ok (world.electAll now timeout) := by
  have hactive : world.rooms.active.length ≤ world.rooms.size :=
    Nat.le_trans (List.length_filter_le _ _) (Nat.le_of_eq Array.length_toList)
  have hcount : 0 + world.rooms.active.length ≤ maxSize := by
    rw [Nat.zero_add]
    exact Nat.le_trans hactive (Nat.le_trans h.size_le (by decide))
  rw [electAllChecked, electEachChecked_eq world now timeout hcount, Nat.zero_add]
  rfl

end World

end RoomRelay
