import Mathlib.Algebra.BigOperators.Group.List.Lemmas
import Mathlib.Algebra.Ring.Nat
import RoomRelay.Operator.Report
import RoomRelay.Proofs.Polls

/-!
# Reports tell the truth

A report counts and lists what the rooms hold, while who sits where is a matter of the sessions'
records. In a consistent world both agree: the members of a room are its sessions, each looked up
with success, and the counts of the rooms add up to the number of sessions that have a seat.
-/

namespace RoomRelay

/-- A room whose members can all be named lists as many as it has cells that are taken. -/
theorem Room.Sound.length_members {room : Room} {capacity : Nat} (h : room.Sound capacity) :
    room.members.length = room.cells.countP Option.isSome := by
  have hcells : room.cells.countP Option.isSome =
      room.cells.toList.zipIdx.countP fun cell => cell.1.isSome := by
    rw [← Array.countP_toList]
    conv_lhs => rw [← List.zipIdx_map_fst 0 room.cells.toList, List.countP_map]
    rfl
  rw [Room.members, List.length_filterMap_eq_countP, hcells]
  refine List.countP_congr ?_
  rintro ⟨cell, position⟩ hmem
  cases cell with
  | none => simp
  | some slot =>
      have hcell := List.mk_mem_zipIdx_iff_getElem?.mp hmem
      rw [Array.getElem?_toList] at hcell
      simp [SeatIndex.ofPosition?, h.cell_lt hcell]

/-- What is reported about the members of a room are the records on its roster. -/
theorem Room.members_reported (room : Room) (lobby : Lobby) (now : Instant) :
    (room.members.filterMap fun (index, slot) =>
      (lobby.get? slot).map fun session => MemberReport.ofSession index session now) =
        (room.roster lobby).map fun member => MemberReport.ofSession member.1 member.2 now := by
  rw [Room.roster, List.map_filterMap]
  refine List.filterMap_congr ?_
  rintro ⟨index, slot⟩ -
  simp [Function.comp_def]

namespace World

/-- How many live sessions have a seat in a room. -/
def census (world : World) (id : RoomId) : Nat :=
  world.lobby.sessions.countP fun session => session.room? = some id

theorem census_eq_count (world : World) (id : RoomId) :
    world.census id = (world.lobby.sessions.filterMap Session.room?).count id := by
  rw [census, List.count_filterMap]
  exact List.countP_congr fun session _ => by simp

namespace Roster

variable {world : World} {id : RoomId} {members : List (SeatIndex × Session)}

/-- Nobody sits on two seats. -/
theorem nodup_sessions (h : world.Roster id members) : (members.map Prod.snd).Nodup := by
  rw [List.Nodup, List.pairwise_map]
  refine h.ordered.imp_of_mem ?_
  rintro ⟨index, session⟩ ⟨index', session'⟩ hmem hmem' hlt rfl
  have hseat := (h.mem_iff.mp hmem).2.symm.trans (h.mem_iff.mp hmem').2
  cases hseat
  exact Nat.lt_irrefl _ hlt

/-- The sessions on the roster of a room are those that have a seat there. -/
theorem perm_sessions {config : Config} (consistent : world.Consistent config)
    (h : world.Roster id members) :
    (members.map Prod.snd).Perm
      (world.lobby.sessions.filter fun session => session.room? = some id) := by
  refine (List.perm_ext_iff_of_nodup h.nodup_sessions
    (consistent.lobby.nodup_sessions.filter _)).mpr fun session => ?_
  simp only [List.mem_map, Prod.exists, exists_eq_right, h.mem_iff, List.mem_filter,
    consistent.lobby.mem_sessions, decide_eq_true_eq, Session.room?_eq_some_iff, Sits,
    exists_and_left]

theorem length_eq_census {config : Config} (consistent : world.Consistent config)
    (h : world.Roster id members) : members.length = world.census id := by
  rw [census, List.countP_eq_length_filter, ← (h.perm_sessions consistent).length_eq,
    List.length_map]

end Roster

namespace Consistent

variable {config : Config} {world : World} {id : RoomId} {room : Room}

/-- All members of a room are on its roster: none of them has lost its session. -/
theorem length_roster (h : world.Consistent config) (hroom : world.rooms.room? id = some room) :
    (room.roster world.lobby).length = room.members.length := by
  rw [Room.roster, List.length_filterMap_eq_countP, List.countP_eq_length]
  rintro ⟨index, slot⟩ hmem
  obtain ⟨session, hget, -⟩ := Lobby.seat?_eq_some_iff.mp
    ((h.member?_iff hroom).mp (Room.mem_members.mp hmem))
  simp [hget]

/-- A room counts the sessions that have a seat in it. -/
theorem memberCount_eq_census (h : world.Consistent config)
    (hroom : world.rooms.room? id = some room) : room.memberCount = world.census id := by
  rw [(h.room hroom).memberCount_eq, ← (h.room hroom).length_members, ← h.length_roster hroom,
    (h.roster hroom).length_eq_census h]

theorem census_pos_iff (h : world.Consistent config) :
    0 < world.census id ↔ world.Occupied id := by
  rw [census, List.countP_pos_iff]
  simp only [h.lobby.mem_sessions, decide_eq_true_eq, Session.room?_eq_some_iff]
  constructor
  · rintro ⟨session, hget, index, hseat⟩
    exact ⟨session, index, hget, hseat⟩
  · rintro ⟨session, index, hget, hseat⟩
    exact ⟨session, hget, index, hseat⟩

/-- The counts of the rooms that are in use add up to the number of sessions with a seat. -/
theorem sum_census (h : world.Consistent config) :
    ((world.rooms.active.map Room.id).map world.census).sum =
      world.lobby.sessions.countP fun session => session.seat.isSome := by
  -- The rooms in use are those of the sessions, each taken once.
  let ids := world.lobby.sessions.filterMap Session.room?
  have hperm : (world.rooms.active.map Room.id).Perm ids.dedup := by
    refine (List.perm_ext_iff_of_nodup h.nodup_map_id_active ids.nodup_dedup).mpr fun id => ?_
    rw [h.mem_map_id_active, ← h.census_pos_iff, census_eq_count, List.count_pos_iff,
      List.mem_dedup]
  calc ((world.rooms.active.map Room.id).map world.census).sum
    _ = (ids.dedup.map world.census).sum := (hperm.map _).sum_eq
    _ = (ids.dedup.map fun id => ids.count id).sum :=
      congrArg List.sum (List.map_congr_left fun id _ => world.census_eq_count id)
    _ = ids.length := ids.sum_map_count_dedup_eq_length
    _ = world.lobby.sessions.countP fun session => session.seat.isSome := by
      rw [List.length_filterMap_eq_countP]
      exact List.countP_congr fun session _ => by simp [Session.room?]

end Consistent

end World

/-- Whether a report says of the server what the records of its live sessions say. -/
structure ServerReport.Tells (report : ServerReport) (config : Config) (world : World)
    (traffic : Traffic) : Prop where
  sessions : report.sessions = world.lobby.sessions.length
  lobbyCapacity : report.lobbyCapacity = config.lobbyCapacity
  ordered : report.rooms.Pairwise fun a b => a.1.position < b.1.position
  /-- The rooms in which somebody sits are listed, each with the number of those who sit there. -/
  mem_rooms_iff : ∀ {id : RoomId} {count : Nat},
    (id, count) ∈ report.rooms ↔ 0 < count ∧ count = world.census id
  seated : report.seated = world.lobby.sessions.countP fun session => session.seat.isSome
  traffic : report.traffic = traffic

/-- What the record of a session says about it as a member of a room, if it has a seat there. -/
def Session.report? (session : Session) (id : RoomId) (now : Instant) : Option MemberReport :=
  session.seat.bind fun seat =>
    if seat.room = id then
      some
        { index := seat.index
          slot := session.slot
          token := session.token.word
          flags := session.flags
          idle := now.toNat - session.lastActive.toNat
          device := session.device }
    else none

namespace Session

theorem report?_of_seat {session : Session} {id : RoomId} {index : SeatIndex}
    (h : session.seat = some ⟨id, index⟩) (now : Instant) :
    session.report? id now = some (MemberReport.ofSession index session now) := by
  rw [report?, h, Option.bind_some, if_pos rfl]
  rfl

theorem report?_of_room?_ne {session : Session} {id : RoomId} (h : session.room? ≠ some id)
    (now : Instant) : session.report? id now = none := by
  rw [report?, Option.bind_eq_none_iff]
  intro seat hseat
  refine if_neg ?_
  rintro rfl
  exact h (Session.room?_eq_some_iff.mpr ⟨seat.index, hseat⟩)

end Session

/-- Whether a report says of a room what the records of the live sessions say. -/
structure RoomReport.Tells (report : RoomReport) (config : Config) (world : World) (now : Instant)
    (id : RoomId) : Prop where
  room : report.room = id
  memberCount : report.memberCount = world.census id
  capacity : report.capacity = config.roomCapacity
  ordered : report.members.Pairwise fun a b => a.index.position < b.index.position
  /-- Each session that has a seat in the room is listed once, as its record has it, and nobody
  else is. -/
  members : report.members.Perm
    (world.lobby.sessions.filterMap fun session => session.report? id now)
  length_members : report.members.length = report.memberCount
  memberCount_le : report.memberCount ≤ report.capacity

namespace World

namespace Consistent

variable {config : Config} {world : World} {id : RoomId} {room : Room}

theorem rooms_capture (h : world.Consistent config) (traffic : Traffic) :
    (ServerReport.capture world traffic).rooms =
      (world.rooms.active.map Room.id).map fun id => (id, world.census id) := by
  rw [ServerReport.capture, List.map_map]
  refine List.map_congr_left fun room hmem => ?_
  obtain ⟨hmem, -⟩ := List.mem_filter.mp hmem
  obtain ⟨position, hposition⟩ := Array.mem_iff_getElem?.mp (Array.mem_toList_iff.mp hmem)
  obtain ⟨id, -, hroom⟩ := h.exists_id hposition
  rw [h.memberCount_eq_census hroom, ← h.room_id hroom]
  rfl

theorem server_tells (h : world.Consistent config) (traffic : Traffic) :
    (ServerReport.capture world traffic).Tells config world traffic where
  sessions := by
    rw [Lobby.sessions, List.length_filterMap_eq_countP]
    exact h.lobby.live_eq.trans Array.countP_toList.symm
  lobbyCapacity := h.lobby.capacity_eq
  ordered := by
    rw [h.rooms_capture, List.pairwise_map]
    exact h.pairwise_map_id_active
  mem_rooms_iff {id count} := by
    rw [h.rooms_capture]
    simp only [List.mem_map (l := world.rooms.active.map Room.id), Prod.mk.injEq,
      h.mem_map_id_active, ← h.census_pos_iff]
    constructor
    · rintro ⟨_, hpos, rfl, rfl⟩
      exact ⟨hpos, rfl⟩
    · rintro ⟨hpos, rfl⟩
      exact ⟨id, hpos, rfl, rfl⟩
  seated := by
    have hseated : (ServerReport.capture world traffic).seated =
        (ServerReport.capture world traffic).rooms.foldl (fun seated room => seated + room.2) 0 :=
      rfl
    rw [hseated, h.rooms_capture, ← h.sum_census, List.sum_eq_foldl, List.foldl_map,
      List.foldl_map (f := world.census)]
  traffic := rfl

/-- The members that are reported are those on the roster. -/
theorem perm_roster (h : world.Consistent config) (hroom : world.rooms.room? id = some room)
    (now : Instant) :
    ((room.roster world.lobby).map fun member =>
      MemberReport.ofSession member.1 member.2 now).Perm
        (world.lobby.sessions.filterMap fun session => session.report? id now) := by
  have hroster := h.roster hroom
  have hlist : ((room.roster world.lobby).map fun member =>
      MemberReport.ofSession member.1 member.2 now) =
        ((room.roster world.lobby).map Prod.snd).filterMap (·.report? id now) := by
    rw [List.filterMap_map, ← List.filterMap_eq_map]
    refine List.filterMap_congr fun member hmem => ?_
    exact (Session.report?_of_seat (hroster.mem_iff.mp hmem).2 now).symm
  rw [hlist]
  refine ((hroster.perm_sessions h).filterMap _).trans (.of_eq ?_)
  rw [List.filterMap_filter]
  refine List.filterMap_congr fun session _ => ?_
  by_cases hinside : session.room? = some id
  · simp [hinside]
  · simp [hinside, Session.report?_of_room?_ne hinside]

theorem room_tells (h : world.Consistent config) (now : Instant) {report : RoomReport}
    (hreport : RoomReport.capture? world now id = some report) :
    report.Tells config world now id := by
  obtain ⟨room, hroom, rfl⟩ := Option.map_eq_some_iff.mp hreport
  have hroster := h.roster hroom
  have hcount := h.memberCount_eq_census hroom
  have hlength := hroster.length_eq_census h
  rw [room.members_reported]
  constructor
  case room => rfl
  case memberCount => exact hcount
  case capacity => exact (h.room hroom).capacity_eq
  case ordered => exact List.pairwise_map.mpr hroster.ordered
  case members => exact h.perm_roster hroom now
  case length_members => exact (List.length_map _).trans (hlength.trans hcount.symm)
  case memberCount_le =>
    exact (hcount.trans hlength.symm).trans_le (room.length_roster_le world.lobby)

end Consistent

/-- Reports tell the truth: whatever is done to a server, its totals are those of its live sessions,
and it reports each of its rooms, no others, by the records of those who have a seat there. -/
theorem reports_tell (config : Config) (actions : List Action) (now : Instant)
    (traffic : Traffic) :
    let world := (ofConfig config).perform config actions
    (ServerReport.capture world traffic).Tells config world traffic ∧
      ∀ id : RoomId,
        ((RoomReport.capture? world now id).isSome ↔ id.position < world.rooms.size) ∧
          ∀ report, RoomReport.capture? world now id = some report →
            report.Tells config world now id := by
  intro world
  have consistent : world.Consistent config := (Consistent.ofConfig config).perform actions
  refine ⟨consistent.server_tells traffic, fun id => ⟨?_, fun report => consistent.room_tells now⟩⟩
  simp [RoomReport.capture?, RoomTable.room?, RoomTable.size]

end World

end RoomRelay
