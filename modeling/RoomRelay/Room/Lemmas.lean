import RoomRelay.Room.Table

/-!
# What the cells of a room hold

A room is seen through `Room.member?` and the room table through `RoomTable.room?`. Each operation
is described by what these find afterwards: seating a session fills one cell that was free, and
taking it from its seat frees at most that cell.
-/

namespace RoomRelay

namespace Room

theorem member?_eq_some_iff {room : Room} {index : SeatIndex} {slot : SlotId} :
    room.member? index = some slot ↔ room.cells[index.position]? = some (some slot) := by
  simp [member?, Option.join_eq_some_iff]

theorem mem_members {room : Room} {index : SeatIndex} {slot : SlotId} :
    (index, slot) ∈ room.members ↔ room.member? index = some slot := by
  rw [member?_eq_some_iff]
  simp only [members, List.mem_filterMap, Prod.exists]
  constructor
  · rintro ⟨cell, position, hmem, h⟩
    rcases cell with _ | taken
    · cases h
    cases hindex : SeatIndex.ofPosition? position with
    | none => simp [hindex] at h
    | some found =>
        simp only [hindex, bind, Option.bind, pure, Option.some.injEq, Prod.mk.injEq] at h
        obtain ⟨rfl, rfl⟩ := h
        rw [SeatIndex.position_of_ofPosition? hindex, ← Array.getElem?_toList]
        exact List.mk_mem_zipIdx_iff_getElem?.mp hmem
  · intro h
    refine ⟨some slot, index.position, ?_, by simp⟩
    exact List.mk_mem_zipIdx_iff_getElem?.mpr (by rw [Array.getElem?_toList]; exact h)

@[simp] theorem capacity_reopen (room : Room) (now : Instant) (terms : Terms) :
    (room.reopen now terms).capacity = room.capacity := by
  simp [reopen, capacity]

@[simp] theorem member?_reopen (room : Room) (now : Instant) (terms : Terms) (index : SeatIndex) :
    (room.reopen now terms).member? index = none := by
  simp only [reopen, member?, Array.getElem?_replicate]
  split <;> rfl

@[simp] theorem capacity_vacate (room : Room) (index : SeatIndex) (slot : SlotId) :
    (room.vacate index slot).capacity = room.capacity := by
  rw [vacate]
  split <;> simp [capacity]

theorem member?_vacate (room : Room) (index other : SeatIndex) (slot : SlotId) :
    (room.vacate index slot).member? other =
      if index = other ∧ room.member? index = some slot then none else room.member? other := by
  rw [vacate]
  split
  · next h =>
    simp only [h, and_true]
    simp only [member?, Array.getElem?_setIfInBounds, SeatIndex.position_inj]
    split
    · split <;> rfl
    · rfl
  · next h => simp [h]

/-- What `insert?` finds and changes. -/
theorem insert?_eq_some_iff {room room' : Room} {slot : SlotId} {index : SeatIndex} :
    room.insert? slot = some (index, room') ↔
      room.cells.findIdx? Option.isNone = some index.position ∧
        room' =
          { room with
            cells := room.cells.setIfInBounds index.position (some slot)
            memberCount := room.memberCount + 1 } := by
  simp only [insert?, bind, Option.bind_eq_some_iff, pure, Option.some.injEq, Prod.mk.injEq]
  constructor
  · rintro ⟨position, hfind, found, hindex, rfl, rfl⟩
    rw [SeatIndex.position_of_ofPosition? hindex]
    exact ⟨hfind, rfl⟩
  · rintro ⟨hfind, rfl⟩
    exact ⟨index.position, hfind, index, SeatIndex.ofPosition?_position index, rfl, rfl⟩

variable {room room' : Room} {slot : SlotId} {index : SeatIndex}

theorem capacity_of_insert? (h : room.insert? slot = some (index, room')) :
    room'.capacity = room.capacity := by
  obtain ⟨-, rfl⟩ := insert?_eq_some_iff.mp h
  simp [capacity]

/-- A session is put into a cell that was free. -/
theorem member?_of_insert? (h : room.insert? slot = some (index, room')) :
    room.member? index = none := by
  obtain ⟨hfind, -⟩ := insert?_eq_some_iff.mp h
  obtain ⟨hlt, hfree, -⟩ := Array.findIdx?_eq_some_iff_getElem.mp hfind
  simp [member?, hlt, Option.isNone_iff_eq_none.mp hfree]

theorem member?_insert? (h : room.insert? slot = some (index, room')) (other : SeatIndex) :
    room'.member? other = if index = other then some slot else room.member? other := by
  obtain ⟨hfind, rfl⟩ := insert?_eq_some_iff.mp h
  obtain ⟨hlt, -⟩ := Array.findIdx?_eq_some_iff_getElem.mp hfind
  simp only [member?, Array.getElem?_setIfInBounds, SeatIndex.position_inj, hlt, if_true]
  split <;> rfl

end Room

namespace RoomTable

@[simp] theorem size_modify (table : RoomTable) (id : RoomId) (change : Room → Room) :
    (table.modify id change).size = table.size := by
  simp [modify, size]

theorem room?_modify (table : RoomTable) (id other : RoomId) (change : Room → Room) :
    (table.modify id change).room? other =
      if id = other then (table.room? other).map change else table.room? other := by
  simp only [room?, modify, Array.getElem?_modify, RoomId.position_inj]

@[simp] theorem room?_modify_self (table : RoomTable) (id : RoomId) (change : Room → Room) :
    (table.modify id change).room? id = (table.room? id).map change := by
  rw [room?_modify, if_pos rfl]

theorem room?_modify_of_ne {id other : RoomId} (table : RoomTable) (change : Room → Room)
    (h : id ≠ other) : (table.modify id change).room? other = table.room? other := by
  rw [room?_modify, if_neg h]

end RoomTable
end RoomRelay
