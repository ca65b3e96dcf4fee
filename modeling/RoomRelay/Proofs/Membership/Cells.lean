import RoomRelay.Proofs.Membership.World

/-!
# Tables told by what they are asked

The cells of a room in a consistent world can be read off the seats of the live sessions: where some
sessions lose their seats and nobody takes one, each room is left with the cells of those that still
sit there.
-/

namespace RoomRelay

/-- What is in a taken cell meets a condition or does not. -/
theorem countP_any_add {α : Type} (cells : Array (Option α)) (keep : α → Bool) :
    cells.countP (Option.any keep) + cells.countP (Option.any fun a => !keep a) =
      cells.countP Option.isSome := by
  simp only [← Array.countP_toList]
  induction cells.toList with
  | nil => rfl
  | cons cell rest ih =>
      simp only [List.countP_cons]
      rcases cell with _ | a
      · simpa using ih
      · cases hkeep : keep a <;> simp [hkeep] <;> omega

namespace Lobby

namespace Sound

variable {capacity : Nat} {a : Lobby}

/-- A lobby with a free slot is not full. -/
theorem isFull_of_get?_eq_none (h : a.Sound capacity) {slot : SlotId}
    (hlt : slot.position < capacity) (hget : a.get? slot = none) : a.isFull = false := by
  have hcell := h.getElem?_slots hlt
  rw [hget] at hcell
  exact Bool.eq_false_iff.mpr fun hfull => h.isFull_iff.mp hfull (Array.mem_of_getElem? hcell)

end Sound
end Lobby

/-- A room in which only those members are left that a condition admits. -/
def Room.retain (room : Room) (keep : SlotId → Bool) : Room :=
  let cells := room.cells.map (Option.filter keep)
  { room with cells, memberCount := cells.countP Option.isSome }

attribute [ext] Room

theorem Room.eq_retain {room room' : Room} {keep : SlotId → Bool} (hid : room'.id = room.id)
    (hcount : room'.memberCount = room'.cells.countP Option.isSome)
    (hcells : room'.cells = room.cells.map (Option.filter keep))
    (hsince : room'.openSince = room.openSince) (hterms : room'.terms = room.terms) :
    room' = room.retain keep := by
  refine Room.ext hid ?_ hcells hsince hterms
  rw [hcount, hcells]
  rfl

namespace World

namespace Consistent

variable {config : Config} {world after : World} {id : RoomId} {room room' : Room}

/-- A cell holds a slot just in case the session there has the seat of that cell. -/
theorem cell_iff_seat? (h : world.Consistent config) (hroom : world.rooms.room? id = some room)
    (cell : Nat) (slot : SlotId) :
    room.cells[cell]? = some (some slot) ↔
      ∃ index : SeatIndex, index.position = cell ∧ world.lobby.seat? slot = some ⟨id, index⟩ := by
  rw [h.cell_iff hroom]
  constructor
  · rintro ⟨session, ⟨place, index⟩, hget, hseat, hplace, hcell⟩
    obtain rfl := RoomId.position_inj.mp hplace
    exact ⟨index, hcell,
      (Lobby.seat?_of_get? (Lobby.get?_eq_some_iff.mpr hget)).trans hseat⟩
  · rintro ⟨index, hcell, hseat⟩
    obtain ⟨session, hget, hseat⟩ := Lobby.seat?_eq_some_iff.mp hseat
    exact ⟨session, _, Lobby.get?_eq_some_iff.mp hget, hseat, rfl, hcell⟩

/-- Where only some sessions keep their seats, they keep their cells, and the others are freed. -/
theorem cells_eq_map_filter (h : world.Consistent config) (h' : after.Consistent config)
    (hroom : world.rooms.room? id = some room) (hroom' : after.rooms.room? id = some room')
    (keep : SlotId → Bool)
    (hseat : ∀ slot, after.lobby.seat? slot =
      if keep slot then world.lobby.seat? slot else none) :
    room'.cells = room.cells.map (Option.filter keep) := by
  have hsize : room'.cells.size = (room.cells.map (Option.filter keep)).size := by
    rw [Array.size_map]
    exact (h'.room hroom').capacity_eq.trans (h.room hroom).capacity_eq.symm
  apply Array.ext hsize
  intro cell hlt hlt'
  rw [Array.size_map] at hlt'
  have holds : ∀ slot, room'.cells[cell] = some slot ↔
      room.cells[cell] = some slot ∧ keep slot = true := by
    intro slot
    have hafter := h'.cell_iff_seat? hroom' cell slot
    have hbefore := h.cell_iff_seat? hroom cell slot
    rw [Array.getElem?_eq_getElem hlt, Option.some.injEq] at hafter
    rw [Array.getElem?_eq_getElem hlt', Option.some.injEq] at hbefore
    rw [hafter, hbefore, hseat]
    cases keep slot <;> simp
  rw [Array.getElem_map]
  ext slot
  rw [holds, Option.filter_eq_some_iff]

/-- Where nobody's seat has changed, no cell has. -/
theorem cells_eq (h : world.Consistent config) (h' : after.Consistent config)
    (hroom : world.rooms.room? id = some room) (hroom' : after.rooms.room? id = some room')
    (hseat : ∀ slot, after.lobby.seat? slot = world.lobby.seat? slot) :
    room'.cells = room.cells := by
  have hall : ∀ cell : Option SlotId, cell.filter (fun _ => true) = cell := by
    intro cell
    cases cell <;> rfl
  rw [h.cells_eq_map_filter h' hroom hroom' (fun _ => true) hseat, funext hall, Array.map_id']

end Consistent

end World

end RoomRelay
