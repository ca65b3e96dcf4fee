import RoomRelay.Lobby.Basic

/-!
# What the slots of a lobby hold

A lobby is seen through `Lobby.get?`. Each operation is described by what that finds afterwards:
changing or freeing a slot affects no other slot, and a new session goes into a slot that was free.
-/

namespace RoomRelay.Lobby

theorem get?_eq_some_iff {lobby : Lobby} {slot : SlotId} {session : Session} :
    lobby.get? slot = some session ↔ lobby.slots[slot.position]? = some (some session) := by
  simp [get?, Option.join_eq_some_iff]

@[simp] theorem capacity_modify (lobby : Lobby) (slot : SlotId) (change : Session → Session) :
    (lobby.modify slot change).capacity = lobby.capacity := by
  simp [modify, capacity]

@[simp] theorem live_modify (lobby : Lobby) (slot : SlotId) (change : Session → Session) :
    (lobby.modify slot change).live = lobby.live := rfl

theorem get?_modify (lobby : Lobby) (slot other : SlotId) (change : Session → Session) :
    (lobby.modify slot change).get? other =
      if slot = other then (lobby.get? other).map change else lobby.get? other := by
  simp only [get?, modify, Array.getElem?_modify, SlotId.position_inj]
  split
  · rcases lobby.slots[other.position]? with _ | _ | session <;> rfl
  · rfl

@[simp] theorem get?_modify_self (lobby : Lobby) (slot : SlotId) (change : Session → Session) :
    (lobby.modify slot change).get? slot = (lobby.get? slot).map change := by
  rw [get?_modify, if_pos rfl]

theorem get?_modify_of_ne {slot other : SlotId} (lobby : Lobby) (change : Session → Session)
    (h : slot ≠ other) : (lobby.modify slot change).get? other = lobby.get? other := by
  rw [get?_modify, if_neg h]

@[simp] theorem capacity_release (lobby : Lobby) (slot : SlotId) :
    (lobby.release slot).1.capacity = lobby.capacity := by
  rw [release]
  split <;> simp [capacity]

theorem get?_release (lobby : Lobby) (slot other : SlotId) :
    (lobby.release slot).1.get? other = if slot = other then none else lobby.get? other := by
  rw [release]
  split
  · next h =>
    split
    · next heq => rw [← heq, h]
    · rfl
  · simp only [get?, Array.getElem?_setIfInBounds, SlotId.position_inj]
    split
    · split <;> rfl
    · rfl

variable {lobby : Lobby} {device : Wire.Device} {peer : SocketAddress} {token : Token}
variable {now : Instant} {slot : SlotId}

/-- A lobby in which no session could be opened stays as it is. -/
theorem fst_allocate_of_eq_none (h : (lobby.allocate device peer token now).2 = none) :
    (lobby.allocate device peer token now).1 = lobby := by
  rw [allocate] at h ⊢
  split
  · rfl
  · split
    · rfl
    · simp_all

/-- A new session goes into the first free slot. -/
theorem of_allocate (h : (lobby.allocate device peer token now).2 = some slot) :
    lobby.slots.findIdx? Option.isNone = some slot.position ∧
      (lobby.allocate device peer token now).1 =
        { slots := lobby.slots.setIfInBounds slot.position
            (some (Session.fresh slot device token peer now))
          live := lobby.live + 1 } := by
  rw [allocate] at h ⊢
  split at h
  · cases h
  · next position hfind =>
    split at h
    · cases h
    · next found hslot =>
      cases h
      rw [SlotId.position_of_ofPosition? hslot]
      exact ⟨hfind, rfl⟩

theorem get?_of_allocate (h : (lobby.allocate device peer token now).2 = some slot) :
    lobby.get? slot = none := by
  obtain ⟨hlt, hfree, -⟩ := Array.findIdx?_eq_some_iff_getElem.mp (of_allocate h).1
  simp [get?, hlt, Option.isNone_iff_eq_none.mp hfree]

theorem get?_allocate (h : (lobby.allocate device peer token now).2 = some slot)
    (other : SlotId) :
    (lobby.allocate device peer token now).1.get? other =
      if slot = other then some (Session.fresh slot device token peer now)
      else lobby.get? other := by
  obtain ⟨hfind, hlobby⟩ := of_allocate h
  obtain ⟨hlt, -⟩ := Array.findIdx?_eq_some_iff_getElem.mp hfind
  rw [hlobby]
  simp only [get?, Array.getElem?_setIfInBounds, SlotId.position_inj, hlt, if_true]
  split <;> rfl

/-- A token and a slot name the session in that slot if it has that token. -/
theorem findByToken_eq_some_iff {word : UInt32} {raw : Int16} {session : Session} :
    lobby.findByToken word raw = some session ↔
      ∃ id, SlotId.ofWire? raw = some id ∧ lobby.get? id = some session ∧
        session.token.word = word := by
  simp only [findByToken, bind, Option.bind_eq_some_iff]
  constructor
  · rintro ⟨id, hid, found, hfound, h⟩
    split at h
    · next htoken =>
      cases h
      exact ⟨id, hid, hfound, htoken⟩
    · cases h
  · rintro ⟨id, hid, hfound, htoken⟩
    exact ⟨id, hid, session, hfound, by rw [if_pos htoken]⟩

end RoomRelay.Lobby
