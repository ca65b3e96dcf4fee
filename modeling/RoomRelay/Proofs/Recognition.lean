import RoomRelay.Proofs.Handler

/-!
# Who is recognised

A request other than a login names a session by token and slot, and most name its seat as well. It
is recognised if what it names is what the session is. Being recognised brings the session's
activity up to date and is repeated without effect.
-/

namespace RoomRelay

theorem SlotId.toWire_of_ofWire? {raw : Int16} {slot : SlotId}
    (h : SlotId.ofWire? raw = some slot) : slot.toWire = raw := by
  rw [ofWire?] at h
  split at h
  · cases h
  · cases h
    exact Int16.toInt16_toUInt16 raw

/-- A seat in a room that signed numbers can tell apart is not mistaken for the lack of one. -/
theorem Seat.toWire_some_ne {seat : Seat} (h : seat.room.position ≤ maxWireNumber) :
    Seat.toWire (some seat) ≠ Seat.toWire none := by
  intro heq
  have hnumber : seat.room.number = 65535 :=
    congrArg Int16.toUInt16 (congrArg Prod.fst heq)
  simp [RoomId.position, hnumber, maxWireNumber] at h

/-- The token and the slot by which a request names a session. A login names none. -/
def Request.claim? : Request → Option (UInt32 × Int16)
  | .login _ => none
  | .create request => some (request.token, request.slot)
  | .join request => some (request.token, request.slot)
  | .ping ⟨credentials, _⟩ | .logout ⟨credentials⟩ | .leave ⟨credentials⟩
  | .unreliable ⟨credentials, _, _⟩ | .reliable ⟨credentials, _, _, _⟩
  | .relied ⟨credentials, _, _⟩ => some (credentials.token, credentials.slot)

namespace Lobby

variable {lobby : Lobby} {credentials : Wire.Credentials} {session : Session}
variable {peer : SocketAddress} {now : Instant}

/-- Full credentials name the session that token and slot name, if it has that seat. -/
theorem findByCredentials_eq_some_iff :
    lobby.findByCredentials credentials = some session ↔
      lobby.findByToken credentials.token credentials.slot = some session ∧
        Seat.toWire session.seat = (credentials.room, credentials.index) := by
  simp only [findByCredentials, bind, Option.bind_eq_some_iff]
  constructor
  · rintro ⟨found, hfound, h⟩
    split at h
    · next hseat =>
      cases h
      exact ⟨hfound, hseat⟩
    · cases h
  · rintro ⟨hfound, hseat⟩
    exact ⟨session, hfound, if_pos hseat⟩

/-- The session that a token and a slot name lies in that slot. -/
theorem of_findByToken {capacity : Nat} {token : UInt32} {raw : Int16}
    (hsound : lobby.Sound capacity) (h : lobby.findByToken token raw = some session) :
    SlotId.ofWire? raw = some session.slot ∧ lobby.get? session.slot = some session ∧
      session.token.word = token := by
  obtain ⟨slot, hslot, hget, htoken⟩ := findByToken_eq_some_iff.mp h
  obtain rfl := hsound.slot_eq hget
  exact ⟨hslot, hget, htoken⟩

/-- The session that credentials name lies in their slot and has their seat. -/
theorem of_findByCredentials {capacity : Nat} (hsound : lobby.Sound capacity)
    (h : lobby.findByCredentials credentials = some session) :
    SlotId.ofWire? credentials.slot = some session.slot ∧
      lobby.get? session.slot = some session ∧ session.token.word = credentials.token ∧
      Seat.toWire session.seat = (credentials.room, credentials.index) := by
  obtain ⟨hnamed, hseat⟩ := findByCredentials_eq_some_iff.mp h
  obtain ⟨hslot, hget, htoken⟩ := of_findByToken hsound hnamed
  exact ⟨hslot, hget, htoken, hseat⟩

variable {token : UInt32} {slot : Int16}

/-- A record that keeps the token is found by the same token and slot. -/
theorem findByToken_of_get? {after : Lobby} {session' : Session} {capacity : Nat}
    (hsound : lobby.Sound capacity) (h : lobby.findByToken token slot = some session)
    (hget : after.get? session.slot = some session') (htoken : session'.token = session.token) :
    after.findByToken token slot = some session' := by
  obtain ⟨hslot, -, hword⟩ := of_findByToken hsound h
  exact findByToken_eq_some_iff.mpr ⟨session.slot, hslot, hget, by rw [htoken, hword]⟩

/-- A record that keeps the token and the seat is found by the same credentials. -/
theorem findByCredentials_of_get? {after : Lobby} {session' : Session} {capacity : Nat}
    (hsound : lobby.Sound capacity) (h : lobby.findByCredentials credentials = some session)
    (hget : after.get? session.slot = some session') (htoken : session'.token = session.token)
    (hseat : session'.seat = session.seat) :
    after.findByCredentials credentials = some session' := by
  obtain ⟨hfound, hplace⟩ := findByCredentials_eq_some_iff.mp h
  exact findByCredentials_eq_some_iff.mpr
    ⟨findByToken_of_get? hsound hfound hget htoken, by rw [hseat, hplace]⟩

@[simp] theorem get?_touch_self (lobby : Lobby) (slot : SlotId) (peer : SocketAddress)
    (now : Instant) :
    (lobby.touch slot peer now).get? slot = (lobby.get? slot).map (·.touch peer now) := by
  rw [touch, get?_modify_self]

/-- Activity that is recorded already is not recorded anew. -/
theorem touch_eq_self {slot : SlotId} (hget : lobby.get? slot = some session)
    (hpeer : session.peer = peer) (hactive : session.lastActive = now) :
    lobby.touch slot peer now = lobby := by
  apply modify_eq_self
  intro found hfound
  rw [hget] at hfound
  cases hfound
  subst hpeer hactive
  rfl

/-- Activity that is recorded twice is recorded once. -/
theorem touch_touch (lobby : Lobby) (slot : SlotId) (peer : SocketAddress) (now : Instant) :
    (lobby.touch slot peer now).touch slot peer now = lobby.touch slot peer now := by
  cases hget : lobby.get? slot with
  | none =>
      apply modify_eq_self
      intro found hfound
      simp [hget] at hfound
  | some session =>
      have htouched : (lobby.touch slot peer now).get? slot = some (session.touch peer now) := by
        simp [hget]
      exact touch_eq_self htouched rfl rfl

/-- Whoever was recognised is recognised again, its activity recorded. -/
theorem findByCredentials_touch {capacity : Nat} (hsound : lobby.Sound capacity)
    (h : lobby.findByCredentials credentials = some session) :
    (lobby.touch session.slot peer now).findByCredentials credentials =
      some (session.touch peer now) := by
  obtain ⟨-, hget, -, -⟩ := of_findByCredentials hsound h
  have htouched : (lobby.touch session.slot peer now).get? session.slot =
      some (session.touch peer now) := by
    simp [hget]
  exact findByCredentials_of_get? hsound h htouched rfl rfl

variable {device : Wire.Device}

/-- The device that is found has a live session. -/
theorem of_findByDevice {capacity : Nat} {slot : SlotId} (hsound : lobby.Sound capacity)
    (h : lobby.findByDevice device = some slot) :
    ∃ session, lobby.get? slot = some session ∧ session.device = device := by
  obtain ⟨cell, hmem, hcell⟩ := Array.exists_of_findSome?_eq_some h
  cases cell with
  | none => cases hcell
  | some session =>
      obtain ⟨position, hposition⟩ := Array.mem_iff_getElem?.mp hmem
      obtain rfl := hsound.slot_position hposition
      dsimp only at hcell
      split at hcell
      · next hdevice =>
        cases hcell
        exact ⟨session, get?_eq_some_iff.mpr hposition, hdevice⟩
      · cases hcell

/-- A device that has a live session is found. -/
theorem findByDevice_ne_none {slot : SlotId} (hget : lobby.get? slot = some session) :
    lobby.findByDevice session.device ≠ none := by
  intro hnone
  have hcell := Array.findSome?_eq_none_iff.mp hnone (some session)
    (Array.mem_of_getElem? (get?_eq_some_iff.mp hget))
  simp at hcell

/-- A device is new just in case no live session is of it. -/
theorem findByDevice_eq_none_iff {capacity : Nat} (hsound : lobby.Sound capacity) :
    lobby.findByDevice device = none ↔
      ∀ slot session, lobby.get? slot = some session → session.device ≠ device := by
  constructor
  · rintro hnone slot session hget rfl
    exact findByDevice_ne_none hget hnone
  · intro hnew
    refine Option.eq_none_iff_forall_ne_some.mpr fun slot hfound => ?_
    obtain ⟨session, hget, hdevice⟩ := of_findByDevice hsound hfound
    exact hnew slot session hget hdevice

theorem findByDevice_touch (lobby : Lobby) (slot : SlotId) (peer : SocketAddress) (now : Instant)
    (device : Wire.Device) :
    (lobby.touch slot peer now).findByDevice device = lobby.findByDevice device := by
  let see (cell : Option Session) : Option SlotId :=
    cell.bind fun session => if session.device = device then some session.slot else none
  have found : ∀ lobby : Lobby, lobby.findByDevice device = (lobby.slots.map see).findSome? id := by
    intro lobby
    rw [findByDevice, Array.findSome?_map]
    congr 1
    funext cell
    cases cell <;> rfl
  have same : (lobby.touch slot peer now).slots.map see = lobby.slots.map see :=
    map_modify_map fun cell => by cases cell <;> rfl
  rw [found, found, same]

end Lobby

namespace Request

/-- The session that recognises a request as its own. A login is nobody's. -/
def recognise? (request : Request) (lobby : Lobby) : Option Session :=
  match request with
  | .login _ => none
  | .create request => lobby.findByToken request.token request.slot
  | .join request => lobby.findByToken request.token request.slot
  | .ping ⟨credentials, _⟩ | .logout ⟨credentials⟩ | .leave ⟨credentials⟩
  | .unreliable ⟨credentials, _, _⟩ | .reliable ⟨credentials, _, _, _⟩
  | .relied ⟨credentials, _, _⟩ => lobby.findByCredentials credentials

variable {request : Request} {lobby : Lobby} {session : Session}

theorem findByToken_of_recognise? (h : request.recognise? lobby = some session) :
    ∃ token slot, request.claim? = some (token, slot) ∧
      lobby.findByToken token slot = some session := by
  cases request with
  | login _ => cases h
  | create request => exact ⟨request.token, request.slot, rfl, h⟩
  | join request => exact ⟨request.token, request.slot, rfl, h⟩
  | ping request => exact ⟨_, _, rfl, (Lobby.findByCredentials_eq_some_iff.mp h).1⟩
  | logout request => exact ⟨_, _, rfl, (Lobby.findByCredentials_eq_some_iff.mp h).1⟩
  | leave request => exact ⟨_, _, rfl, (Lobby.findByCredentials_eq_some_iff.mp h).1⟩
  | unreliable request => exact ⟨_, _, rfl, (Lobby.findByCredentials_eq_some_iff.mp h).1⟩
  | reliable request => exact ⟨_, _, rfl, (Lobby.findByCredentials_eq_some_iff.mp h).1⟩
  | relied request => exact ⟨_, _, rfl, (Lobby.findByCredentials_eq_some_iff.mp h).1⟩

/-- A recognised request names a live session by its token and its slot. -/
theorem of_recognise? {capacity : Nat} (hsound : lobby.Sound capacity)
    (h : request.recognise? lobby = some session) :
    lobby.get? session.slot = some session ∧
      request.claim? = some (session.token.word, session.slot.toWire) := by
  obtain ⟨token, raw, hclaim, hfound⟩ := findByToken_of_recognise? h
  obtain ⟨hslot, hget, rfl⟩ := Lobby.of_findByToken hsound hfound
  exact ⟨hget, by rw [hclaim, SlotId.toWire_of_ofWire? hslot]⟩

/-- A request with a token that no live session has is not recognised. -/
theorem recognise?_eq_none {token : UInt32} {raw : Int16}
    (hclaim : request.claim? = some (token, raw))
    (h : ∀ slot session, lobby.get? slot = some session → session.token.word ≠ token) :
    request.recognise? lobby = none := by
  apply Option.eq_none_iff_forall_ne_some.mpr
  intro session hsession
  obtain ⟨token', raw', hclaim', hfound⟩ := findByToken_of_recognise? hsession
  obtain ⟨slot, -, hget, htoken⟩ := Lobby.findByToken_eq_some_iff.mp hfound
  cases hclaim.symm.trans hclaim'
  exact h slot session hget htoken

end Request

end RoomRelay
