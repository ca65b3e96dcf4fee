import RoomRelay.Proofs.Membership.World
import RoomRelay.Proofs.Settings

/-!
# What identifies a session

As long as a session lives it keeps its slot, its device and its token. A move closes sessions at
most, and an event does no more than that, or opens a single session in a slot that was free, with
the next token of the issuer.
-/

namespace RoomRelay.World

/-- Whether each session of a later world is one of an earlier world. -/
structure Shrinks (before after : World) : Prop where
  tokens : after.tokens = before.tokens
  get? : ∀ {slot session}, after.lobby.get? slot = some session →
    ∃ old, before.lobby.get? slot = some old ∧ session.slot = old.slot ∧
      session.device = old.device ∧ session.token = old.token

/-- Whether a later world has the sessions of an earlier one and a new one. -/
structure Opens (session : Session) (before after : World) : Prop where
  tokens : after.tokens = before.tokens.issue.2
  token : session.token = before.tokens.issue.1
  free : before.lobby.get? session.slot = none
  get? : ∀ slot, after.lobby.get? slot =
    if session.slot = slot then some session else before.lobby.get? slot

namespace Shrinks

variable {world : World}

theorem refl (world : World) : Shrinks world world :=
  ⟨rfl, fun hget => ⟨_, hget, rfl, rfl, rfl⟩⟩

theorem trans {a b c : World} (first : Shrinks a b) (second : Shrinks b c) : Shrinks a c where
  tokens := second.tokens.trans first.tokens
  get? hget := by
    obtain ⟨mid, hmid, hslot, hdevice, htoken⟩ := second.get? hget
    obtain ⟨old, hold, hslot', hdevice', htoken'⟩ := first.get? hmid
    exact ⟨old, hold, hslot.trans hslot', hdevice.trans hdevice', htoken.trans htoken'⟩

/-- Changing a record to one of the same session, and rooms in any way. -/
theorem modify (slot : SlotId) (change : Session → Session) (rooms : RoomTable)
    (hchange : ∀ session, world.lobby.get? slot = some session →
      (change session).slot = session.slot ∧ (change session).device = session.device ∧
        (change session).token = session.token) :
    Shrinks world { world with rooms, lobby := world.lobby.modify slot change } where
  tokens := rfl
  get? {other session} hget := by
    rw [Lobby.get?_modify] at hget
    split at hget
    · next heq =>
      subst heq
      obtain ⟨old, hold, rfl⟩ := Option.map_eq_some_iff.mp hget
      exact ⟨old, hold, hchange old hold⟩
    · exact ⟨session, hget, rfl, rfl, rfl⟩

theorem leave (slot : SlotId) : Shrinks world (world.leave slot) := by
  cases hseat : world.lobby.seat? slot with
  | none =>
      rw [world.leave_eq_self slot hseat]
      exact refl world
  | some seat =>
      obtain ⟨session, hget, hseat⟩ := Lobby.seat?_eq_some_iff.mp hseat
      rw [leave_of_seat hget hseat]
      refine modify slot _ _ ?_
      intro found hfound
      rw [hget] at hfound
      cases hfound
      exact ⟨Session.slot_setMaster .., Session.device_setMaster .., Session.token_setMaster ..⟩

theorem release (slot : SlotId) : Shrinks world (world.release slot).1 where
  tokens := rfl
  get? {other session} hget := by
    rw [World.release, Lobby.get?_release] at hget
    split at hget
    · cases hget
    · exact ⟨session, hget, rfl, rfl, rfl⟩

theorem join (slot : SlotId) (id : RoomId) : Shrinks world (world.join slot id).1 := by
  rcases world.join_cases slot id with hjoin | ⟨session, room, index, room', hget, -, -, -, hjoin⟩
  · rw [hjoin]
    exact refl world
  · rw [hjoin]
    refine modify slot _ _ ?_
    intro found hfound
    rw [hget] at hfound
    cases hfound
    exact ⟨rfl, rfl, rfl⟩

theorem elect (room : Room) (now : Instant) (timeout : Nat) :
    Shrinks world (world.elect room now timeout).1 where
  tokens := rfl
  get? {slot session} hget := by
    obtain ⟨master, helected⟩ := world.lobby.exists_get?_elect room now timeout slot
    rw [show (world.lobby.elect room now timeout).1.get? slot = some session from hget] at helected
    obtain ⟨old, hold, rfl⟩ := Option.map_eq_some_iff.mp helected.symm
    exact ⟨old, hold, Session.slot_setMaster .., Session.device_setMaster ..,
      Session.token_setMaster ..⟩

/-- A move adds no session. -/
theorem move {after : World} (move : Move world after) : Shrinks world after := by
  cases move with
  | touch slot peer now => exact modify slot _ _ fun _ _ => ⟨rfl, rfl, rfl⟩
  | create slot now terms =>
      rcases world.create_cases slot now terms with hcreate | ⟨session, id, -, -, -, hcreate⟩
      · rw [hcreate]
        exact refl world
      · rw [hcreate]
        have opened : Shrinks world (world.reopen id now terms) :=
          ⟨rfl, fun hget => ⟨_, hget, rfl, rfl, rfl⟩⟩
        exact opened.trans (join slot id)
  | join slot room => exact join slot room
  | leave slot => exact leave slot
  | remove slot => exact (leave slot).trans (release slot)
  | elect now timeout _ => exact elect _ now timeout

theorem moves {after : World} (moves : Moves world after) : Shrinks world after :=
  moves.keep (fun step before => before.trans (move step)) (refl world)

end Shrinks

variable {config : Config} {world : World}

theorem opens_openSession {device : Wire.Device} {peer : SocketAddress} {now : Instant}
    {slot : SlotId} (hslot : (world.openSession device peer now).2 = some slot) :
    Opens (Session.fresh slot device world.issueToken.2 peer now) world
      (world.openSession device peer now).1 where
  tokens := rfl
  token := rfl
  free := Lobby.get?_of_allocate hslot
  get? := get?_openSession hslot

/-- An event adds no session, or it opens one. -/
theorem shrinks_or_opens (hconfig : config.Bounded) (h : world.Consistent config)
    (event : Event) :
    Shrinks world (world.handle config event) ∨
      ∃ session, Opens session world (world.handle config event) := by
  rcases world.moves_handle config event with made | ⟨device, peer, now, -, hfull, hopened⟩
  · exact .inl (.moves made)
  · obtain ⟨slot, hslot⟩ := h.exists_openSession hconfig hfull device peer now
    rw [hopened]
    exact .inr ⟨_, opens_openSession hslot⟩

end RoomRelay.World
