import Mathlib.Data.List.Find
import Mathlib.Data.List.Nodup
import RoomRelay.Proofs.Roster

/-!
# Elections in many rooms

An election looks at the members of its room and marks nobody else. So rooms that have no member in
common elect independently of each other: a series of elections leaves the members of each room as
its own election alone would have left them. The rooms of a consistent world have no member in
common, since a session has one seat at most.
-/

namespace RoomRelay

namespace Lobby

variable {lobby after : Lobby} {slots : List SlotId} {now : Instant} {timeout : Nat}

/-- Who wins an election depends on the candidates alone. -/
theorem winner_congr (h : ∀ slot ∈ slots, after.get? slot = lobby.get? slot) (now : Instant)
    (timeout : Nat) : after.winner slots now timeout = lobby.winner slots now timeout := by
  have hmarked : slots.find? after.isMarked = slots.find? lobby.isMarked :=
    List.find?_congr fun slot hmem => by simp only [isMarked, h slot hmem]
  have hlive : ∀ slot ∈ slots, after.isLive now timeout slot = lobby.isLive now timeout slot :=
    fun slot hmem => by simp only [isLive, h slot hmem]
  rw [winner, winner, hmarked, List.find?_congr hlive]
  cases hfind : slots.find? lobby.isMarked with
  | none => rfl
  | some master =>
      dsimp only
      rw [hlive master (List.mem_of_find?_eq_some hfind)]

/-- Where the winner is marked alone, those found to be marked are the winner, if there is one. -/
theorem filter_isMarked (hnodup : slots.Nodup)
    (hget : ∀ slot ∈ slots, after.get? slot =
      (lobby.get? slot).map (·.setMaster (lobby.winner slots now timeout = some slot))) :
    slots.filter after.isMarked = (lobby.winner slots now timeout).toList := by
  have hmarked : ∀ slot ∈ slots,
      after.isMarked slot = decide (lobby.winner slots now timeout = some slot) := by
    intro slot hmem
    rw [isMarked, hget slot hmem]
    cases hsession : lobby.get? slot with
    | some session => exact Session.isMaster_setMaster session _
    | none =>
        -- Nobody is elected to an empty slot.
        refine (decide_eq_false fun hwinner => ?_).symm
        have hlive := isSome_get?_of_isLive (of_winner_eq_some hwinner).2
        rw [hsession] at hlive
        cases hlive
  rw [List.filter_congr hmarked]
  cases hwinner : lobby.winner slots now timeout with
  | none => simp
  | some master =>
      have hmem := (of_winner_eq_some hwinner).1
      have hsame : slots.filter (fun slot => decide (some master = some slot)) =
          slots.filter (· == master) :=
        List.filter_congr fun slot _ => by simp only [Option.some.injEq, beq_eq_decide, eq_comm]
      rw [hsame, List.filter_beq, List.count_eq_one_of_mem hnodup hmem]
      rfl

/-- Rooms that name each of their members once, and no two of which have a member in common. -/
structure Apart (rooms : List Room) : Prop where
  nodup : ∀ room ∈ rooms, room.slots.Nodup
  disjoint : rooms.Pairwise fun a b => ∀ slot ∈ a.slots, slot ∉ b.slots

/-- Whoever sits in none of the rooms is not affected by their elections. -/
theorem get?_electEach_of_notMem {rooms : List Room} (hnodup : ∀ room ∈ rooms, room.slots.Nodup)
    {slot : SlotId} (h : ∀ room ∈ rooms, slot ∉ room.slots) (now : Instant) (timeout : Nat) :
    (lobby.electEach rooms now timeout).get? slot = lobby.get? slot := by
  induction rooms generalizing lobby with
  | nil => rfl
  | cons room rest ih =>
      obtain ⟨hroom, hrest⟩ := List.forall_mem_cons.mp hnodup
      obtain ⟨houtside, hothers⟩ := List.forall_mem_cons.mp h
      have hkept := (lobby.elect_eq_winner now timeout hroom).2 slot
      rw [if_neg houtside] at hkept
      exact (ih hrest hothers).trans hkept

/-- The members of each of several rooms are left as the election of their room alone would leave
them. -/
theorem get?_electEach_of_mem {rooms : List Room} (h : Apart rooms) {room : Room}
    (hroom : room ∈ rooms) {slot : SlotId} (hslot : slot ∈ room.slots) (now : Instant)
    (timeout : Nat) :
    (lobby.electEach rooms now timeout).get? slot =
      (lobby.get? slot).map (·.setMaster (lobby.winner room.slots now timeout = some slot)) := by
  induction rooms generalizing lobby with
  | nil => cases hroom
  | cons first rest ih =>
      obtain ⟨hfirst, hnodup⟩ := List.forall_mem_cons.mp h.nodup
      obtain ⟨hdisjoint, hrest⟩ := List.pairwise_cons.mp h.disjoint
      have hget := (lobby.elect_eq_winner now timeout hfirst).2
      rw [electEach, List.foldl_cons]
      rcases List.mem_cons.mp hroom with rfl | hmem
      · have hothers : ∀ other ∈ rest, slot ∉ other.slots :=
          fun other hother => hdisjoint other hother slot hslot
        refine (get?_electEach_of_notMem hnodup hothers now timeout).trans ?_
        rw [hget, if_pos hslot]
      · have hkept : ∀ other ∈ room.slots,
            (lobby.elect first now timeout).1.get? other = lobby.get? other := by
          intro other hother
          rw [hget, if_neg fun hboth => hdisjoint room hmem other hboth hother]
        refine (ih ⟨hnodup, hrest⟩ hmem).trans ?_
        rw [hkept slot hslot, winner_congr hkept]

end Lobby

namespace World

namespace Consistent

variable {config : Config} {world : World}

theorem apart_rooms (h : world.Consistent config) : Lobby.Apart world.rooms.rooms.toList where
  nodup room hmem := by
    obtain ⟨position, hposition⟩ := Array.mem_iff_getElem?.mp (Array.mem_toList_iff.mp hmem)
    obtain ⟨id, -, hroom⟩ := h.exists_id hposition
    exact h.nodup_slots hroom
  disjoint := by
    rw [List.pairwise_iff_getElem]
    intro i j hi hj hlt slot hslot hslot'
    obtain ⟨id, rfl, hroom⟩ := h.exists_id (Array.getElem?_eq_getElem hi)
    obtain ⟨id', rfl, hroom'⟩ := h.exists_id (Array.getElem?_eq_getElem hj)
    obtain ⟨session, hget, hinside⟩ := (h.mem_slots hroom).mp hslot
    obtain ⟨session', hget', hinside'⟩ := (h.mem_slots hroom').mp hslot'
    obtain rfl := Option.some.inj (hget.symm.trans hget')
    obtain rfl := Option.some.inj (hinside.symm.trans hinside')
    exact Nat.lt_irrefl _ hlt

theorem apart_active (h : world.Consistent config) : Lobby.Apart world.rooms.active where
  nodup room hmem := h.apart_rooms.nodup room (List.mem_filter.mp hmem).1
  disjoint := h.apart_rooms.disjoint.filter _

/-- A room with a member has an election. -/
theorem mem_active (h : world.Consistent config) {id : RoomId} {room : Room}
    (hroom : world.rooms.room? id = some room) {slot : SlotId} (hslot : slot ∈ room.slots) :
    room ∈ world.rooms.active := by
  refine List.mem_filter.mpr ⟨Array.mem_toList_iff.mpr (Array.mem_of_getElem? hroom), ?_⟩
  obtain ⟨index, hmember⟩ := Room.mem_slots.mp hslot
  cases hempty : room.isEmpty with
  | false => rfl
  | true =>
      rw [(h.room hroom).member?_of_isEmpty hempty] at hmember
      cases hmember

/-- Elections everywhere mark each seated session just in case it wins in its room, and leave all
others alone. -/
theorem get?_electAll (h : world.Consistent config) (now : Instant) (timeout : Nat)
    (slot : SlotId) :
    (world.electAll now timeout).1.lobby.get? slot =
      (world.lobby.get? slot).map fun session =>
        match session.room?.bind world.rooms.room? with
        | none => session
        | some room =>
          session.setMaster (world.lobby.winner room.slots now timeout = some slot) := by
  show (world.lobby.electEach world.rooms.active now timeout).get? slot = _
  by_cases hseated : ∃ id room, world.rooms.room? id = some room ∧ slot ∈ room.slots
  · obtain ⟨id, room, hroom, hslot⟩ := hseated
    obtain ⟨session, hget, hinside⟩ := (h.mem_slots hroom).mp hslot
    rw [Lobby.get?_electEach_of_mem h.apart_active (h.mem_active hroom hslot) hslot, hget]
    simp [hinside, hroom]
  · have houtside : ∀ room ∈ world.rooms.active, slot ∉ room.slots := by
      intro room hmem hslot
      have hmem := Array.mem_toList_iff.mp (List.mem_filter.mp hmem).1
      obtain ⟨position, hposition⟩ := Array.mem_iff_getElem?.mp hmem
      obtain ⟨id, -, hroom⟩ := h.exists_id hposition
      exact hseated ⟨id, room, hroom, hslot⟩
    rw [Lobby.get?_electEach_of_notMem h.apart_active.nodup houtside]
    cases hget : world.lobby.get? slot with
    | none => rfl
    | some session =>
        have hnone : session.room?.bind world.rooms.room? = none := by
          refine Option.eq_none_iff_forall_ne_some.mpr fun room hbind => ?_
          obtain ⟨id, hinside, hroom⟩ := Option.bind_eq_some_iff.mp hbind
          exact hseated ⟨id, room, hroom, (h.mem_slots hroom).mpr ⟨session, hget, hinside⟩⟩
        simp [hnone]

/-- Elections everywhere leave the winner of each room marked there, and nobody else. -/
theorem filter_isMarked_electAll (h : world.Consistent config) {id : RoomId} {room : Room}
    (hroom : world.rooms.room? id = some room) (now : Instant) (timeout : Nat) :
    room.slots.filter (world.electAll now timeout).1.lobby.isMarked =
      (world.lobby.winner room.slots now timeout).toList := by
  refine Lobby.filter_isMarked (h.nodup_slots hroom) fun slot hslot => ?_
  exact Lobby.get?_electEach_of_mem h.apart_active (h.mem_active hroom hslot) hslot now timeout

end Consistent

end World

end RoomRelay
