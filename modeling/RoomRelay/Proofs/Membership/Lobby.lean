import RoomRelay.Lobby.Lemmas

/-!
# Lobbies that keep their books

The lobby stores in each session the slot that it lies in, and next to the slots how many of them
are taken. A lobby in which both are right is sound, and every operation keeps it so. The slots of
a sound lobby can be read off what `Lobby.get?` finds in them, since no session lies in a slot that
has no number. Seen from the rooms only the seats of its sessions matter: opening a session, closing
one that has no seat, and recording activity change no seat.
-/

namespace RoomRelay

section Cells

theorem pairwise_zipIdx {α : Type} (cells : List α) :
    cells.zipIdx.Pairwise fun a b => a.2 < b.2 := by
  rw [← List.pairwise_map (f := Prod.snd), List.zipIdx_map_snd]
  exact List.pairwise_lt_range'

variable {α : Type} {cells : Array (Option α)} {position : Nat}

theorem countP_isSome_set_some (h : cells[position]? = some none) (a : α) :
    (cells.setIfInBounds position (some a)).countP Option.isSome =
      cells.countP Option.isSome + 1 := by
  obtain ⟨hlt, hcell⟩ := Array.getElem?_eq_some_iff.mp h
  rw [Array.setIfInBounds, dif_pos hlt, Array.countP_set hlt, hcell]
  rfl

theorem countP_isSome_set_none {a : α} (h : cells[position]? = some (some a)) :
    (cells.setIfInBounds position none).countP Option.isSome =
      cells.countP Option.isSome - 1 := by
  obtain ⟨hlt, hcell⟩ := Array.getElem?_eq_some_iff.mp h
  rw [Array.setIfInBounds, dif_pos hlt, Array.countP_set hlt, hcell]
  rfl

/-- Where no free cell is found, all cells are taken. -/
theorem countP_isSome_of_findIdx? (h : cells.findIdx? Option.isNone = none) :
    cells.countP Option.isSome = cells.size :=
  Array.countP_eq_size.mpr fun cell hcell => by
    simpa using Array.findIdx?_eq_none_iff.mp h cell hcell

/-- All cells are taken just in case none is free. -/
theorem size_le_countP_isSome_iff :
    cells.size ≤ cells.countP Option.isSome ↔ none ∉ cells := by
  have hle : cells.countP Option.isSome ≤ cells.size := Array.countP_le_size
  constructor
  · intro hsize hfree
    have htaken := Array.countP_eq_size.mp (Nat.le_antisymm hle hsize) none hfree
    cases htaken
  · intro hfree
    refine Nat.le_of_eq (Array.countP_eq_size.mpr fun cell hcell => ?_).symm
    cases cell with
    | none => exact absurd hcell hfree
    | some a => rfl

/-- The free cell that is found is the first one. -/
theorem findIdx?_isNone_eq_some_iff :
    cells.findIdx? Option.isNone = some position ↔
      cells[position]? = some none ∧ ∀ lower < position, cells[lower]? ≠ some none := by
  rw [Array.findIdx?_eq_some_iff_getElem]
  constructor
  · rintro ⟨hlt, hfree, hlower⟩
    rw [Array.getElem?_eq_getElem hlt, Option.isNone_iff_eq_none.mp hfree]
    refine ⟨rfl, fun lower hbelow hcell => hlower lower hbelow ?_⟩
    obtain ⟨_, hcell⟩ := Array.getElem?_eq_some_iff.mp hcell
    rw [hcell]
    rfl
  · rintro ⟨hcell, hlower⟩
    obtain ⟨hlt, hfree⟩ := Array.getElem?_eq_some_iff.mp hcell
    refine ⟨hlt, by rw [hfree]; rfl, fun lower hbelow htaken => hlower lower hbelow ?_⟩
    rw [Array.getElem?_eq_getElem (Nat.lt_trans hbelow hlt), Option.isNone_iff_eq_none.mp htaken]

/-- A change that a function does not see is not seen by mapping it. -/
theorem map_modify_map {β : Type} {change : α → α} {see : Option α → β}
    (h : ∀ cell, see (cell.map change) = see cell) :
    (cells.modify position (Option.map change)).map see = cells.map see := by
  apply Array.ext_getElem?
  intro i
  simp only [Array.getElem?_map, Array.getElem?_modify]
  split
  · cases cells[i]? <;> simp [h]
  · rfl

/-- Of two changes of one cell the second is made to what the first has made of it. -/
theorem modify_modify {β : Type} (table : Array β) (f g : β → β) :
    (table.modify position f).modify position g = table.modify position (g ∘ f) := by
  apply Array.ext_getElem?
  intro i
  simp only [Array.getElem?_modify]
  split
  · exact Option.map_map g f _
  · rfl

theorem countP_isSome_modify_map (change : α → α) :
    (cells.modify position (Option.map change)).countP Option.isSome =
      cells.countP Option.isSome := by
  have same : (cells.modify position (Option.map change)).map Option.isSome =
      cells.map Option.isSome := map_modify_map fun cell => by simp
  have counted := congrArg (Array.countP id) same
  simpa only [Array.countP_map, Function.id_comp] using counted

end Cells

namespace Lobby

/-- The seat of the session in a slot. -/
def seat? (lobby : Lobby) (slot : SlotId) : Option Seat := (lobby.get? slot).bind Session.seat

/-- A lobby of a given size in which sessions know their slots and the live ones are counted. -/
structure Sound (capacity : Nat) (lobby : Lobby) : Prop where
  capacity_eq : lobby.capacity = capacity
  slot_position : ∀ {position : Nat} {session : Session},
    lobby.slots[position]? = some (some session) → session.slot.position = position
  live_eq : lobby.live = lobby.slots.countP Option.isSome

theorem seat?_eq_some_iff {lobby : Lobby} {slot : SlotId} {seat : Seat} :
    lobby.seat? slot = some seat ↔
      ∃ session, lobby.get? slot = some session ∧ session.seat = some seat := by
  simp [seat?, Option.bind_eq_some_iff]

theorem seat?_of_get? {lobby : Lobby} {slot : SlotId} {session : Session}
    (h : lobby.get? slot = some session) : lobby.seat? slot = session.seat := by
  simp [seat?, h]

theorem seat?_modify (lobby : Lobby) (slot other : SlotId) (change : Session → Session)
    (h : ∀ session, lobby.get? slot = some session → (change session).seat = session.seat) :
    (lobby.modify slot change).seat? other = lobby.seat? other := by
  simp only [seat?, get?_modify]
  split
  · next heq =>
    subst heq
    cases hget : lobby.get? slot with
    | none => rfl
    | some session => simp [h session hget]
  · rfl

/-- A session whose record is replaced has the seat of the new record. -/
theorem seat?_modify_const {lobby : Lobby} {slot : SlotId} {session : Session}
    (h : lobby.get? slot = some session) (record : Session) (other : SlotId) :
    (lobby.modify slot fun _ => record).seat? other =
      if slot = other then record.seat else lobby.seat? other := by
  simp only [seat?, get?_modify]
  split
  · next heq => simp [← heq, h]
  · rfl

/-- Closing a session that has no seat changes no seat. -/
theorem seat?_release {lobby : Lobby} {slot : SlotId} (h : lobby.seat? slot = none)
    (other : SlotId) : (lobby.release slot).1.seat? other = lobby.seat? other := by
  rw [seat?, get?_release]
  split
  · next heq => rw [← heq, h]; rfl
  · rfl

theorem seat?_allocate (lobby : Lobby) (device : Wire.Device) (peer : SocketAddress)
    (token : Token) (now : Instant) (other : SlotId) :
    (lobby.allocate device peer token now).1.seat? other = lobby.seat? other := by
  cases hslot : (lobby.allocate device peer token now).2 with
  | none => rw [fst_allocate_of_eq_none hslot]
  | some slot =>
      rw [seat?, get?_allocate hslot]
      split
      · next heq => simp [← heq, seat?, get?_of_allocate hslot, Session.fresh]
      · rfl

theorem modify_modify (lobby : Lobby) (slot : SlotId) (f g : Session → Session) :
    (lobby.modify slot f).modify slot g = lobby.modify slot (g ∘ f) := by
  simp only [modify, RoomRelay.modify_modify, Option.map_comp_map]

/-- A session that is replaced by itself is not changed. -/
theorem modify_eq_self {lobby : Lobby} {slot : SlotId} {change : Session → Session}
    (h : ∀ session, lobby.get? slot = some session → change session = session) :
    lobby.modify slot change = lobby := by
  obtain ⟨slots, live⟩ := lobby
  simp only [modify, mk.injEq, and_true]
  apply Array.ext_getElem?
  intro position
  rw [Array.getElem?_modify]
  split
  · next heq =>
    rcases hcell : slots[position]? with _ | _ | session
    · rfl
    · rfl
    · have hget : (Lobby.mk slots live).get? slot = some session :=
        get?_eq_some_iff.mpr (by rw [← hcell, ← heq])
      simp [h session hget]
  · rfl

namespace Sound

variable {capacity : Nat} {lobby a b : Lobby} {slot : SlotId}

/-- A session is found in its own slot. -/
theorem slot_eq {session : Session} (h : lobby.Sound capacity)
    (hget : lobby.get? slot = some session) : session.slot = slot :=
  SlotId.position_inj.mp (h.slot_position (get?_eq_some_iff.mp hget))

/-- A slot that is taken is one of the lobby's. -/
theorem position_lt {session : Session} (h : lobby.Sound capacity)
    (hget : lobby.get? slot = some session) : slot.position < capacity := by
  obtain ⟨hlt, -⟩ := Array.getElem?_eq_some_iff.mp (get?_eq_some_iff.mp hget)
  rw [← h.capacity_eq]
  exact hlt

theorem ofCapacity (capacity : Nat) : (Lobby.ofCapacity capacity).Sound capacity where
  capacity_eq := by simp [Lobby.ofCapacity, Lobby.capacity]
  slot_position := by
    intro position session h
    simp [Lobby.ofCapacity, Array.getElem?_replicate] at h
  live_eq := by simp [Lobby.ofCapacity, Array.countP_replicate]

theorem modify {change : Session → Session} (h : lobby.Sound capacity)
    (hslot : ∀ session, lobby.get? slot = some session → (change session).slot = session.slot) :
    (lobby.modify slot change).Sound capacity where
  capacity_eq := by rw [capacity_modify, h.capacity_eq]
  slot_position := by
    intro position session hget
    simp only [Lobby.modify, Array.getElem?_modify] at hget
    split at hget
    · next heq =>
      obtain ⟨cell, hcell, hchange⟩ := Option.map_eq_some_iff.mp hget
      obtain ⟨old, rfl, rfl⟩ := Option.map_eq_some_iff.mp hchange
      rw [hslot old (get?_eq_some_iff.mpr (by rw [heq, hcell])), h.slot_position hcell]
    · exact h.slot_position hget
  live_eq := by
    rw [live_modify, h.live_eq]
    exact (countP_isSome_modify_map change).symm

theorem allocate (h : lobby.Sound capacity) (device : Wire.Device) (peer : SocketAddress)
    (token : Token) (now : Instant) : (lobby.allocate device peer token now).1.Sound capacity := by
  cases hslot : (lobby.allocate device peer token now).2 with
  | none =>
      rw [fst_allocate_of_eq_none hslot]
      exact h
  | some slot =>
      obtain ⟨hfind, hlobby⟩ := of_allocate hslot
      have hcell := (findIdx?_isNone_eq_some_iff.mp hfind).1
      obtain ⟨hlt, -⟩ := Array.getElem?_eq_some_iff.mp hcell
      rw [hlobby]
      constructor
      · rw [← h.capacity_eq]
        exact Array.size_setIfInBounds
      · intro position session hget
        simp only [Array.getElem?_setIfInBounds] at hget
        split at hget
        · next heq =>
          cases hget
          exact heq
        · exact h.slot_position hget
      · rw [countP_isSome_set_some hcell, ← h.live_eq]

theorem release (h : lobby.Sound capacity) (slot : SlotId) :
    (lobby.release slot).1.Sound capacity := by
  rw [Lobby.release]
  split
  · exact h
  · next session hget =>
    constructor
    · rw [← h.capacity_eq]
      exact Array.size_setIfInBounds
    · intro position session hget
      simp only [Array.getElem?_setIfInBounds] at hget
      split at hget
      · split at hget <;> cases hget
      · exact h.slot_position hget
    · rw [countP_isSome_set_none (get?_eq_some_iff.mp hget), ← h.live_eq]

/-- A lobby is full just in case it has no free slot. -/
theorem isFull_iff (h : lobby.Sound capacity) : lobby.isFull = true ↔ none ∉ lobby.slots := by
  rw [isFull, decide_eq_true_iff, h.live_eq, Lobby.capacity, size_le_countP_isSome_iff]

/-- A lobby that is not full opens a session, if its slots can be numbered. -/
theorem exists_allocate (h : lobby.Sound capacity) (hcapacity : capacity ≤ 65536)
    (hfull : lobby.isFull = false) (device : Wire.Device) (peer : SocketAddress) (token : Token)
    (now : Instant) : ∃ slot, (lobby.allocate device peer token now).2 = some slot := by
  rw [Lobby.allocate]
  cases hfind : lobby.slots.findIdx? Option.isNone with
  | none =>
      have hcount := countP_isSome_of_findIdx? hfind
      simp [isFull, Lobby.capacity, h.live_eq, hcount] at hfull
  | some position =>
      obtain ⟨hlt, -⟩ := Array.findIdx?_eq_some_iff_getElem.mp hfind
      have hsize : lobby.slots.size = capacity := h.capacity_eq
      have hposition : position < 65536 := by omega
      simp [SlotId.ofPosition?, hposition]

/-- A slot holds what is found in it. -/
theorem getElem?_slots (h : a.Sound capacity) {slot : SlotId} (hlt : slot.position < capacity) :
    a.slots[slot.position]? = some (a.get? slot) := by
  have hsize : slot.position < a.slots.size := Nat.lt_of_lt_of_eq hlt h.capacity_eq.symm
  rw [Lobby.get?, Array.getElem?_eq_getElem hsize]
  rfl

/-- No session lies where no slot has a number. -/
theorem getElem?_slots_of_le (h : a.Sound capacity) {position : Nat} (hlt : position < capacity)
    (hle : 65536 ≤ position) : a.slots[position]? = some none := by
  have hsize : position < a.slots.size := Nat.lt_of_lt_of_eq hlt h.capacity_eq.symm
  rw [Array.getElem?_eq_getElem hsize]
  cases hcell : a.slots[position] with
  | none => rfl
  | some session =>
      have hposition := h.slot_position (Array.getElem?_eq_some_iff.mpr ⟨hsize, hcell⟩)
      have hnumber : session.slot.position < 65536 := session.slot.number.toNat_lt
      omega

/-- Lobbies of the same size look alike if they do so slot by slot. -/
theorem map_slots_eq {β : Type} (ha : a.Sound capacity) (hb : b.Sound capacity)
    (see see' : Option Session → β) (hnone : see none = see' none)
    (hget : ∀ slot, see (a.get? slot) = see' (b.get? slot)) :
    a.slots.map see = b.slots.map see' := by
  apply Array.ext
  · rw [Array.size_map, Array.size_map]
    exact ha.capacity_eq.trans hb.capacity_eq.symm
  · intro position hsize hsize'
    rw [Array.size_map] at hsize hsize'
    have hlt : position < capacity := Nat.lt_of_lt_of_eq hsize ha.capacity_eq
    rw [Array.getElem_map, Array.getElem_map]
    have cells : ∀ {first second : Option Session}, a.slots[position]? = some first →
        b.slots[position]? = some second → see first = see' second →
          see a.slots[position] = see' b.slots[position] := by
      intro first second hfirst hsecond heq
      obtain ⟨_, rfl⟩ := Array.getElem?_eq_some_iff.mp hfirst
      obtain ⟨_, rfl⟩ := Array.getElem?_eq_some_iff.mp hsecond
      exact heq
    by_cases hnumber : position < 65536
    · obtain ⟨slot, rfl⟩ : ∃ slot : SlotId, slot.position = position :=
        ⟨⟨UInt16.ofNat position⟩, Nat.mod_eq_of_lt hnumber⟩
      exact cells (ha.getElem?_slots hlt) (hb.getElem?_slots hlt) (hget slot)
    · have hle := Nat.le_of_not_lt hnumber
      exact cells (ha.getElem?_slots_of_le hlt hle) (hb.getElem?_slots_of_le hlt hle) hnone

/-- Lobbies count as many sessions if the same slots are taken. -/
theorem live_eq_of_isSome (ha : a.Sound capacity) (hb : b.Sound capacity)
    (h : ∀ slot, (a.get? slot).isSome = (b.get? slot).isSome) : a.live = b.live := by
  have hcount := congrArg (Array.countP id) (ha.map_slots_eq hb Option.isSome Option.isSome rfl h)
  simp only [Array.countP_map, Function.id_comp] at hcount
  rw [ha.live_eq, hb.live_eq, hcount]

/-- Sound lobbies of the same size are equal if they hold the same sessions. -/
theorem ext (ha : a.Sound capacity) (hb : b.Sound capacity)
    (hget : ∀ slot, a.get? slot = b.get? slot) : a = b := by
  have hslots := ha.map_slots_eq hb id id rfl hget
  rw [Array.map_id, Array.map_id] at hslots
  have hlive : a.live = b.live := by rw [ha.live_eq, hb.live_eq, hslots]
  obtain ⟨slots, live⟩ := a
  cases hslots
  cases hlive
  rfl

theorem mem_sessions (h : lobby.Sound capacity) {session : Session} :
    session ∈ lobby.sessions ↔ lobby.get? session.slot = some session := by
  simp only [sessions, List.mem_filterMap, id, exists_eq_right, Array.mem_toList_iff]
  constructor
  · intro hmem
    obtain ⟨position, hposition⟩ := Array.mem_iff_getElem?.mp hmem
    obtain rfl := h.slot_position hposition
    exact get?_eq_some_iff.mpr hposition
  · intro hget
    exact Array.mem_of_getElem? (get?_eq_some_iff.mp hget)

/-- No session is listed twice. -/
theorem nodup_sessions (h : lobby.Sound capacity) : lobby.sessions.Nodup := by
  have hsessions : lobby.sessions = lobby.slots.toList.zipIdx.filterMap Prod.fst := by
    have hfirst := List.filterMap_map (f := Prod.fst) (g := id) (l := lobby.slots.toList.zipIdx)
    rwa [List.zipIdx_map_fst] at hfirst
  rw [hsessions, List.Nodup, List.pairwise_filterMap]
  apply (pairwise_zipIdx lobby.slots.toList).imp_of_mem
  rintro ⟨first, i⟩ ⟨second, j⟩ hfirst hsecond hlt session hsession _ hsession' rfl
  have hi := List.mk_mem_zipIdx_iff_getElem?.mp hfirst
  have hj := List.mk_mem_zipIdx_iff_getElem?.mp hsecond
  rw [Array.getElem?_toList] at hi hj
  subst hsession
  subst hsession'
  have := h.slot_position hi
  have := h.slot_position hj
  omega

end Sound

end Lobby

end RoomRelay
