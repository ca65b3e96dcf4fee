import RoomRelay.Proofs.Membership.Lobby
import RoomRelay.Room.Lemmas

/-!
# Rooms that keep their books

A room stores next to its cells how many of them are taken, and only cells that an index can name
are ever filled. A room in which both are right is sound. Emptiness and fullness of a sound room,
which are told by the count, are those of its cells: an empty room has no members left to lose when
it is opened anew, and a room that is not full has a cell for one more.
-/

namespace RoomRelay

namespace Room

/-- A room of a given capacity whose members are counted and can all be named. -/
structure Sound (capacity : Nat) (room : Room) : Prop where
  capacity_eq : room.capacity = capacity
  memberCount_eq : room.memberCount = room.cells.countP Option.isSome
  cell_lt : ∀ {cell : Nat} {slot : SlotId}, room.cells[cell]? = some (some slot) → cell < 256

/-- Members are listed in the order of their indices. -/
theorem pairwise_members (room : Room) :
    room.members.Pairwise fun a b => a.1.position < b.1.position := by
  rw [members, List.pairwise_filterMap]
  apply (pairwise_zipIdx room.cells.toList).imp
  rintro ⟨first, i⟩ ⟨second, j⟩ hlt a ha b hb
  simp only [bind, Option.bind_eq_some_iff, pure, Option.some.injEq] at ha hb
  obtain ⟨_, -, x, hx, rfl⟩ := ha
  obtain ⟨_, -, y, hy, rfl⟩ := hb
  rw [SeatIndex.position_of_ofPosition? hx, SeatIndex.position_of_ofPosition? hy]
  exact hlt

@[simp] theorem id_vacate (room : Room) (index : SeatIndex) (slot : SlotId) :
    (room.vacate index slot).id = room.id := by
  rw [vacate]
  split <;> rfl

namespace Sound

variable {capacity : Nat} {room room' : Room} {slot : SlotId} {index : SeatIndex}

theorem vacant (id : RoomId) (capacity : Nat) :
    (Room.vacant id (Array.replicate capacity none)).Sound capacity where
  capacity_eq := by simp [Room.vacant, Room.capacity]
  memberCount_eq := by simp [Room.vacant, Array.countP_replicate]
  cell_lt := by
    intro cell slot h
    simp [Room.vacant, Array.getElem?_replicate] at h

/-- A room that is not empty has a member. -/
theorem isEmpty_eq_false_iff (h : room.Sound capacity) :
    room.isEmpty = false ↔ ∃ slot, some slot ∈ room.cells := by
  have hpos : room.isEmpty = false ↔ 0 < room.cells.countP Option.isSome := by
    rw [isEmpty, h.memberCount_eq, beq_eq_false_iff_ne, Nat.pos_iff_ne_zero]
  rw [hpos, Array.countP_pos_iff]
  constructor
  · rintro ⟨cell, hcell, htaken⟩
    obtain ⟨slot, rfl⟩ := Option.isSome_iff_exists.mp htaken
    exact ⟨slot, hcell⟩
  · rintro ⟨slot, hcell⟩
    exact ⟨some slot, hcell, rfl⟩

/-- A room that is not full has a free cell. -/
theorem isFull_eq_false_iff (h : room.Sound capacity) :
    room.isFull = false ↔ none ∈ room.cells := by
  rw [isFull, decide_eq_false_iff_not, h.memberCount_eq, Room.capacity,
    size_le_countP_isSome_iff, Classical.not_not]

/-- An empty room has free cells only. -/
theorem cells_of_isEmpty (h : room.Sound capacity) (hempty : room.isEmpty = true) :
    room.cells = Array.replicate room.capacity none := by
  have hcount : room.cells.countP Option.isSome = 0 := by
    rw [← h.memberCount_eq]
    simpa [isEmpty] using hempty
  have hfree := Array.countP_eq_zero.mp hcount
  apply Array.ext (by simp [Room.capacity])
  intro i hi _
  have hnone := hfree _ (Array.getElem_mem hi)
  simpa using hnone

theorem member?_of_isEmpty (h : room.Sound capacity) (hempty : room.isEmpty = true)
    (index : SeatIndex) : room.member? index = none := by
  rw [member?, h.cells_of_isEmpty hempty, Array.getElem?_replicate]
  split <;> rfl

/-- Opening an empty room anew changes its terms only. -/
theorem reopen_eq (h : room.Sound capacity) (hempty : room.isEmpty = true) (now : Instant)
    (terms : Terms) : room.reopen now terms = { room with openSince := some now, terms } := by
  rw [reopen, ← h.cells_of_isEmpty hempty]

theorem reopen (h : room.Sound capacity) (hempty : room.isEmpty = true) (now : Instant)
    (terms : Terms) : (room.reopen now terms).Sound capacity := by
  rw [h.reopen_eq hempty]
  exact ⟨h.capacity_eq, h.memberCount_eq, h.cell_lt⟩

theorem insert? (h : room.Sound capacity) (hinsert : room.insert? slot = some (index, room')) :
    room'.Sound capacity := by
  have hcapacity := capacity_of_insert? hinsert
  obtain ⟨hfind, rfl⟩ := insert?_eq_some_iff.mp hinsert
  have hcell := (findIdx?_isNone_eq_some_iff.mp hfind).1
  refine ⟨hcapacity.trans h.capacity_eq, ?_, ?_⟩
  · rw [countP_isSome_set_some hcell, ← h.memberCount_eq]
  · intro cell other hget
    simp only [Array.getElem?_setIfInBounds] at hget
    split at hget
    · next heq => exact heq ▸ index.number.toNat_lt
    · exact h.cell_lt hget

theorem vacate (h : room.Sound capacity) (index : SeatIndex) (slot : SlotId) :
    (room.vacate index slot).Sound capacity := by
  have hcapacity := capacity_vacate room index slot
  rw [Room.vacate] at hcapacity ⊢
  split at hcapacity
  · next hmember =>
    rw [if_pos hmember]
    refine ⟨hcapacity.trans h.capacity_eq, ?_, ?_⟩
    · rw [countP_isSome_set_none (member?_eq_some_iff.mp hmember), ← h.memberCount_eq]
    · intro cell other hget
      simp only [Array.getElem?_setIfInBounds] at hget
      split at hget
      · split at hget <;> cases hget
      · exact h.cell_lt hget
  · next hmember =>
    rw [if_neg hmember]
    exact h

/-- A room that is not full takes one more member, if its cells can be numbered. -/
theorem exists_insert? (h : room.Sound capacity) (hcapacity : capacity ≤ 256)
    (hfull : room.isFull = false) (slot : SlotId) :
    ∃ index room', room.insert? slot = some (index, room') := by
  cases hfind : room.cells.findIdx? Option.isNone with
  | none =>
      have hcount := countP_isSome_of_findIdx? hfind
      simp [isFull, Room.capacity, h.memberCount_eq, hcount] at hfull
  | some position =>
      obtain ⟨hlt, -⟩ := Array.findIdx?_eq_some_iff_getElem.mp hfind
      have hsize : room.cells.size = capacity := h.capacity_eq
      have hposition : position < 256 := by omega
      have hindex : SeatIndex.ofPosition? position = some ⟨UInt8.ofNat position⟩ := by
        rw [SeatIndex.ofPosition?, if_pos hposition]
      refine ⟨⟨UInt8.ofNat position⟩, _, insert?_eq_some_iff.mpr ⟨?_, rfl⟩⟩
      rw [hfind, SeatIndex.position_of_ofPosition? hindex]

end Sound

end Room

theorem RoomId.exists_position {position : Nat} (h : position < 65536) :
    ∃ id : RoomId, id.position = position :=
  ⟨⟨UInt16.ofNat position⟩, Nat.mod_eq_of_lt h⟩

namespace RoomTable

/-- A room of a table in which one room was changed is the changed one or an old one. -/
theorem of_room?_modify {table : RoomTable} {id other : RoomId} {change : Room → Room}
    {room : Room} (h : (table.modify id change).room? other = some room) :
    (id = other ∧ ∃ old, table.room? id = some old ∧ room = change old) ∨
      (id ≠ other ∧ table.room? other = some room) := by
  rw [room?_modify] at h
  split at h
  · next heq =>
    subst heq
    obtain ⟨old, hold, rfl⟩ := Option.map_eq_some_iff.mp h
    exact .inl ⟨rfl, old, hold, rfl⟩
  · next hne => exact .inr ⟨hne, h⟩

theorem modify_modify (table : RoomTable) (id : RoomId) (f g : Room → Room) :
    (table.modify id f).modify id g = table.modify id (g ∘ f) := by
  simp only [modify, RoomRelay.modify_modify]

/-- What holds of every room holds after one was changed, if the change keeps it. -/
theorem forall_modify {table : RoomTable} {id : RoomId} {change : Room → Room}
    {holds : RoomId → Room → Prop}
    (h : ∀ {other room}, table.room? other = some room → holds other room)
    (hchange : ∀ {room}, table.room? id = some room → holds id (change room)) {other : RoomId}
    {room : Room} (hroom : (table.modify id change).room? other = some room) :
    holds other room := by
  rcases of_room?_modify hroom with ⟨rfl, old, hold, rfl⟩ | ⟨-, hother⟩
  · exact hchange hold
  · exact h hother

/-- No room is lost when one is changed. -/
theorem exists_room?_modify {table : RoomTable} {other : RoomId} (id : RoomId)
    (change : Room → Room) (h : ∃ room, table.room? other = some room) :
    ∃ room, (table.modify id change).room? other = some room := by
  obtain ⟨room, hroom⟩ := h
  rw [room?_modify, hroom]
  split
  · exact ⟨change room, rfl⟩
  · exact ⟨room, rfl⟩

/-- A table that was just made has rooms that were never opened. -/
theorem room?_ofSize {count capacity : Nat} {id : RoomId} {room : Room}
    (h : (ofSize count capacity).room? id = some room) :
    room = Room.vacant id (Array.replicate capacity none) := by
  simp only [ofSize, room?, Array.getElem?_ofFn] at h
  split at h
  · cases h
    congr 1
    obtain ⟨number⟩ := id
    simp [RoomId.position]
  · cases h

end RoomTable

end RoomRelay
