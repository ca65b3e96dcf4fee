import RoomRelay.Proofs.Checked.Basic
import RoomRelay.Proofs.Membership.Room
import RoomRelay.Room.Matching

/-!
# Checked tables

What is done to the slots of the lobby and to the rooms, with positions and counts checked. A
session goes into a cell that was found by a search, so the cell is there. A count is lowered when a
taken cell becomes free, so it is not zero; and no more cells are taken than can be numbered, so it
does not outgrow a word. This holds of tables of any size as long as they keep their books.
-/

namespace RoomRelay

/-- No more cells are taken than lie before a bound on their positions. -/
theorem countP_isSome_le {α : Type} {cells : Array (Option α)} {bound : Nat}
    (h : ∀ {position : Nat} {a : α}, cells[position]? = some (some a) → position < bound) :
    cells.countP Option.isSome ≤ bound := by
  have hbeyond : (cells.toList.drop bound).countP Option.isSome = 0 := by
    refine List.countP_eq_zero.mpr fun cell hcell => ?_
    obtain ⟨i, hi⟩ := List.mem_iff_getElem?.mp hcell
    rw [List.getElem?_drop, Array.getElem?_toList] at hi
    cases cell with
    | none => simp
    | some a =>
        have := h hi
        omega
  have hwithin : (cells.toList.take bound).countP Option.isSome ≤ bound :=
    Nat.le_trans List.countP_le_length (List.length_take_le bound _)
  rw [← Array.countP_toList, ← List.take_append_drop bound cells.toList, List.countP_append]
  omega

/-- A taken cell is counted. -/
theorem one_le_countP_isSome {α : Type} {cells : Array (Option α)} {position : Nat} {a : α}
    (h : cells[position]? = some (some a)) : 1 ≤ cells.countP Option.isSome :=
  Array.countP_pos_iff.mpr ⟨some a, Array.mem_of_getElem? h, rfl⟩

namespace Lobby

/-- Opens a session in the first free slot. -/
def allocateChecked (lobby : Lobby) (device : Wire.Device) (peer : SocketAddress) (token : Token)
    (now : Instant) : Checked (Lobby × Option SlotId) :=
  match lobby.slots.findIdx? Option.isNone with
  | none => return (lobby, none)
  | some position =>
    match SlotId.ofPosition? position with
    | none => return (lobby, none)
    | some slot => do
      let session := Session.fresh slot device token peer now
      let slots ← Checked.set lobby.slots position (some session)
      let live ← Checked.add lobby.live 1
      return ({ slots, live }, some slot)

/-- Frees a slot and returns the session that was in it. -/
def releaseChecked (lobby : Lobby) (slot : SlotId) : Checked (Lobby × Option Session) :=
  match lobby.get? slot with
  | none => return (lobby, none)
  | some session => do
    let slots ← Checked.set lobby.slots slot.position none
    let live ← Checked.sub lobby.live 1
    return ({ slots, live }, some session)

namespace Sound

variable {capacity : Nat} {lobby : Lobby}

/-- No more sessions are live than slots can be numbered. -/
theorem live_le (h : lobby.Sound capacity) : lobby.live ≤ 65536 := by
  rw [h.live_eq]
  refine countP_isSome_le fun {position session} hcell => ?_
  rw [← h.slot_position hcell]
  exact session.slot.number.toNat_lt

theorem allocateChecked_eq (h : lobby.Sound capacity) (device : Wire.Device)
    (peer : SocketAddress) (token : Token) (now : Instant) :
    lobby.allocateChecked device peer token now = .ok (lobby.allocate device peer token now) := by
  rw [allocateChecked, Lobby.allocate]
  cases hfind : lobby.slots.findIdx? Option.isNone with
  | none => rfl
  | some position =>
      obtain ⟨hlt, -⟩ := Array.findIdx?_eq_some_iff_getElem.mp hfind
      have hlive : lobby.live + 1 ≤ maxSize := Nat.le_trans (Nat.succ_le_succ h.live_le) (by decide)
      dsimp only
      cases SlotId.ofPosition? position with
      | none => rfl
      | some slot =>
          dsimp only
          rw [Checked.set_of_lt hlt, Checked.ok_bind, Checked.add_of_le hlive]
          rfl

theorem releaseChecked_eq (h : lobby.Sound capacity) (slot : SlotId) :
    lobby.releaseChecked slot = .ok (lobby.release slot) := by
  rw [releaseChecked, Lobby.release]
  cases hget : lobby.get? slot with
  | none => rfl
  | some session =>
      have hcell := get?_eq_some_iff.mp hget
      obtain ⟨hlt, -⟩ := Array.getElem?_eq_some_iff.mp hcell
      have hlive : 1 ≤ lobby.live := h.live_eq ▸ one_le_countP_isSome hcell
      dsimp only
      rw [Checked.set_of_lt hlt, Checked.ok_bind, Checked.sub_of_le hlive]
      rfl

-- The books matter: a session that was not counted cannot be closed.
example (session : Session) :
    (Lobby.mk #[some session] 0).releaseChecked ⟨0⟩ = .error (.difference 0 1) := rfl

end Sound

end Lobby

namespace Room

/-- Puts a session into the first free cell, if there is one. -/
def insertChecked (room : Room) (slot : SlotId) : Checked (Option (SeatIndex × Room)) :=
  match room.cells.findIdx? Option.isNone with
  | none => return none
  | some position =>
    match SeatIndex.ofPosition? position with
    | none => return none
    | some index => do
      let cells ← Checked.set room.cells position (some slot)
      let memberCount ← Checked.add room.memberCount 1
      return some (index, { room with cells, memberCount })

/-- Frees the cell at an index if a session is in it. -/
def vacateChecked (room : Room) (index : SeatIndex) (slot : SlotId) : Checked Room :=
  if room.member? index = some slot then do
    let cells ← Checked.set room.cells index.position none
    let memberCount ← Checked.sub room.memberCount 1
    return { room with cells, memberCount }
  else return room

namespace Sound

variable {capacity : Nat} {room : Room}

/-- No more members are counted than cells can be numbered. -/
theorem memberCount_le (h : room.Sound capacity) : room.memberCount ≤ 256 := by
  rw [h.memberCount_eq]
  exact countP_isSome_le h.cell_lt

theorem insertChecked_eq (h : room.Sound capacity) (slot : SlotId) :
    room.insertChecked slot = .ok (room.insert? slot) := by
  rw [insertChecked, Room.insert?]
  cases hfind : room.cells.findIdx? Option.isNone with
  | none => rfl
  | some position =>
      obtain ⟨hlt, -⟩ := Array.findIdx?_eq_some_iff_getElem.mp hfind
      have hcount : room.memberCount + 1 ≤ maxSize :=
        Nat.le_trans (Nat.succ_le_succ h.memberCount_le) (by decide)
      dsimp only
      cases hindex : SeatIndex.ofPosition? position with
      | none => simp only [hindex, bind, Option.bind]; rfl
      | some index =>
          dsimp only
          rw [Checked.set_of_lt hlt, Checked.ok_bind, Checked.add_of_le hcount, Checked.ok_bind]
          simp only [hindex, bind, Option.bind]
          rfl

theorem vacateChecked_eq (h : room.Sound capacity) (index : SeatIndex) (slot : SlotId) :
    room.vacateChecked index slot = .ok (room.vacate index slot) := by
  rw [vacateChecked, Room.vacate]
  split
  · next hmember =>
    have hcell := member?_eq_some_iff.mp hmember
    obtain ⟨hlt, -⟩ := Array.getElem?_eq_some_iff.mp hcell
    have hcount : 1 ≤ room.memberCount := h.memberCount_eq ▸ one_le_countP_isSome hcell
    rw [Checked.set_of_lt hlt, Checked.ok_bind, Checked.sub_of_le hcount]
    rfl
  · rfl

end Sound

end Room

end RoomRelay
