import RoomRelay.Proofs.Fate
import RoomRelay.Proofs.StaleCredentials

/-!
# A session and its history

What the server knows about a session is what the events of its life have made of it. It has the
slot, the device and the token of the login that opened it, the address and the clock reading of
the latest event that was heard of it, and the seat that it was given last, unless it has left its
seat since.
-/

namespace RoomRelay.World

variable {config : Config} {world : World} {event : Event} {session : Session} {slot : SlotId}

/-- What the events of its life so far have made of a session. The first of them is the login that
opened it. -/
structure Chronicle (config : Config) (start : World) (life : List Event) (session : Session) :
    Prop where
  /-- It had its slot, its device and its token all the time. -/
  same : ∀ past rest, life = past ++ rest → past ≠ [] → ∃ earlier,
    (start.run config past).lobby.get? session.slot = some earlier ∧
      earlier.slot = session.slot ∧ earlier.device = session.device ∧
      earlier.token = session.token
  /-- The latest event that was heard of it tells its address and when it was last heard of. -/
  active : ∃ past event, Latest config start (Hears config session.slot) life past event ∧
    event.peer? = some session.peer ∧ event.now = session.lastActive
  /-- The seat that it has is the one that it was given last, and that it has not left since. -/
  seat : ∀ seat, session.seat = some seat ↔
    ∃ past event, Latest config start (Places config session.slot) life past event ∧
      Seats config session.slot (start.run config past) event seat
  /-- It was never moved: a seat that it had was its seat until it left it. -/
  stays : ∀ past event rest seat, life = past ++ event :: rest →
    (start.run config past).lobby.seat? session.slot = some seat →
      (start.run config (past ++ [event])).lobby.seat? session.slot = some seat ∨
        Leaves config session.slot (start.run config past) event

theorem toWire_inj {seat other : Seat} (h : Seat.toWire (some seat) = Seat.toWire (some other)) :
    seat = other := by
  obtain ⟨hroom, hindex⟩ := Prod.mk.inj h
  obtain ⟨⟨room⟩, ⟨index⟩⟩ := seat
  obtain ⟨⟨room'⟩, ⟨index'⟩⟩ := other
  have hroom : room = room' := by simpa [RoomId.toWire] using congrArg Int16.toUInt16 hroom
  have hindex : index = index' := by simpa [SeatIndex.toWire] using congrArg Int8.toUInt8 hindex
  rw [hroom, hindex]

theorem Seats.unique {seat other : Seat} (h : Seats config slot world event seat)
    (h' : Seats config slot world event other) : seat = other := by
  obtain ⟨_, -, -, -, hgiven⟩ := h
  obtain ⟨_, -, -, -, hgiven'⟩ := h'
  exact toWire_inj (Option.some.inj (hgiven.symm.trans hgiven'))

theorem Leaves.not_seats (h : Leaves config slot world event) (seat : Seat) :
    ¬ Seats config slot world event seat := by
  obtain ⟨request, hasks, hleave⟩ := h
  rintro ⟨other, hother, hkind, -⟩
  rw [← hasks.unique hother.1, hleave] at hkind
  obtain hkind | hkind := hkind <;> cases hkind

namespace Opened

theorem request? (h : Opened config world event session) :
    ∃ login, event.request? = some (.login login) := by
  cases h with
  | intro hdecode _ _ _ _ _ =>
      exact ⟨_, Event.request?_eq_some_iff.mpr ⟨_, _, _, rfl, hdecode⟩⟩

theorem get? (h : Opened config world event session) :
    (world.handle config event).lobby.get? session.slot = some session := by
  cases h with
  | intro _ _ _ _ hget _ => exact hget

theorem active (h : Opened config world event session) :
    event.peer? = some session.peer ∧ event.now = session.lastActive := by
  cases h with
  | intro _ _ _ _ _ _ => exact ⟨rfl, rfl⟩

theorem seat (h : Opened config world event session) : session.seat = none := by
  cases h with
  | intro _ _ _ _ _ _ => rfl

/-- A login gives nobody a seat. -/
theorem not_places (h : Opened config world event session) :
    ¬ Places config slot world event := by
  obtain ⟨login, hrequest⟩ := h.request?
  rintro (⟨other, hasks, hkind⟩ | ⟨seat, other, hasks, hkind, -⟩)
  · rw [hasks.unique hrequest] at hkind
    cases hkind
  · rw [hasks.unique hrequest] at hkind
    obtain hkind | hkind := hkind <;> cases hkind

end Opened

namespace Chronicle

variable {start : World} {life : List Event} {old : Session}

/-- The life of a session begins when it is opened. -/
theorem single {login : Event} (h : Opened config start login session) :
    Chronicle config start [login] session where
  same past rest hsplit hpast := by
    obtain rfl : past = [login] := by
      cases past with
      | nil => exact absurd rfl hpast
      | cons first past =>
          obtain ⟨rfl, hrest⟩ := List.cons.inj hsplit
          rw [(List.append_eq_nil_iff.mp hrest.symm).1]
    exact ⟨session, h.get?, rfl, rfl, rfl⟩
  active := by
    have first : Latest config start (Hears config session.slot) ([] ++ [login]) [] login :=
      .concat_of_kind (.opened h rfl)
    exact ⟨[], login, first, h.active⟩
  seat seat := by
    rw [h.seat]
    constructor
    · intro hseat
      cases hseat
    · rintro ⟨past, event, hlatest, -⟩
      rw [← List.nil_append [login]] at hlatest
      obtain ⟨hplaces, -⟩ | ⟨-, hnone⟩ := hlatest.of_concat
      · exact absurd hplaces h.not_places
      · exact absurd hnone Latest.not_nil
  stays past event rest seat hsplit hseat := by
    cases past with
    | nil =>
        have hfree : start.lobby.seat? session.slot = none := by
          rw [Lobby.seat?, h.get?_eq_none]
          rfl
        cases hfree.symm.trans hseat
    | cons first past => simp at hsplit

/-- The life of a session goes on with what becomes of it at the next event. -/
theorem concat (h : Chronicle config start life old)
    (hold : (start.run config life).lobby.get? old.slot = some old)
    (fate : Fate config (start.run config life) event old (some session))
    (hget : (start.run config (life ++ [event])).lobby.get? old.slot = some session) :
    Chronicle config start (life ++ [event]) session := by
  have hsame : session.slot = old.slot ∧ session.device = old.device ∧
      session.token = old.token := by
    cases fate <;> exact ⟨rfl, rfl, rfl⟩
  obtain ⟨hslot, hdevice, htoken⟩ := hsame
  constructor
  case same =>
    intro past rest hsplit hpast
    rw [hslot, hdevice, htoken]
    obtain rfl | ⟨rest, last, rfl⟩ := rest.eq_nil_or_concat
    · rw [List.append_nil] at hsplit
      rw [← hsplit]
      exact ⟨session, hget, hslot, hdevice, htoken⟩
    · rw [List.concat_eq_append, ← List.append_assoc] at hsplit
      exact h.same past rest (List.append_inj' hsplit rfl).1 hpast
  case active =>
    rw [hslot]
    cases fate with
    | spared hears =>
        obtain ⟨past, heard, hlatest, hpeer, hnow⟩ := h.active
        exact ⟨past, heard, hlatest.concat_of_not hears, hpeer, hnow⟩
    | heard hears hpeer _ => exact ⟨life, event, .concat_of_kind hears, hpeer, rfl⟩
    | seated seats hpeer => exact ⟨life, event, .concat_of_kind seats.hears, hpeer, rfl⟩
    | left leaves hpeer => exact ⟨life, event, .concat_of_kind leaves.hears, hpeer, rfl⟩
  case seat =>
    intro seat
    rw [hslot]
    cases fate with
    | spared hears =>
        simp only [latest_concat_iff_of_not fun places => hears (Places.hears places)]
        exact h.seat seat
    | heard _ _ places =>
        simp only [latest_concat_iff_of_not places]
        exact h.seat seat
    | seated seats _ =>
        have places : Places config old.slot (start.run config life) event := .inr ⟨_, seats⟩
        constructor
        · intro hseat
          obtain rfl := Option.some.inj hseat
          exact ⟨life, event, .concat_of_kind places, seats⟩
        · rintro ⟨past, placed, hlatest, hseats⟩
          obtain ⟨-, rfl, rfl⟩ | ⟨hnot, -⟩ := hlatest.of_concat
          · exact congrArg some (seats.unique hseats)
          · exact absurd places hnot
    | left leaves _ =>
        have places : Places config old.slot (start.run config life) event := .inl leaves
        constructor
        · intro hseat
          cases hseat
        · rintro ⟨past, placed, hlatest, hseats⟩
          obtain ⟨-, rfl, rfl⟩ | ⟨hnot, -⟩ := hlatest.of_concat
          · exact absurd hseats (leaves.not_seats seat)
          · exact absurd places hnot
  case stays =>
    intro past next rest seat hsplit hseat
    rw [hslot] at hseat ⊢
    obtain rfl | ⟨rest, last, rfl⟩ := rest.eq_nil_or_concat
    · obtain ⟨rfl, hnext⟩ := List.append_inj' hsplit rfl
      obtain rfl := List.singleton_inj.mp hnext
      rw [Lobby.seat?_of_get? hold] at hseat
      rw [Lobby.seat?_of_get? hget]
      cases fate with
      | spared _ => exact .inl hseat
      | heard _ _ _ => exact .inl hseat
      | left leaves _ => exact .inr leaves
      | seated seats _ =>
          obtain ⟨_, -, -, hunseated, -⟩ := seats
          rw [Lobby.seat?_of_get? hold, hseat] at hunseated
          cases hunseated
    · rw [List.concat_eq_append, ← List.cons_append, ← List.append_assoc] at hsplit
      exact h.stays past next rest seat (List.append_inj' hsplit rfl).1 hseat

end Chronicle

/-- A session that is live after a run from the start was opened during the run, and is what the
events since then have made of it. -/
theorem exists_chronicle (hconfig : config.Bounded) (events : List Event)
    (hget : ((ofConfig config).run config events).lobby.get? session.slot = some session) :
    ∃ before login since opened, events = before ++ login :: since ∧
      Opened config ((ofConfig config).run config before) login opened ∧
      session.slot = opened.slot ∧ session.device = opened.device ∧
      session.token = opened.token ∧
      Chronicle config ((ofConfig config).run config before) (login :: since) session := by
  induction events using List.reverseRecOn generalizing session with
  | nil => cases (get?_ofConfig config session.slot).symm.trans hget
  | append_singleton events event ih =>
      have consistent := (Consistent.ofConfig config).run events
      have hafter := hget
      rw [run_concat] at hafter
      cases hold : ((ofConfig config).run config events).lobby.get? session.slot with
      | none =>
          obtain ⟨hopened, -⟩ := opened_of_handle hconfig consistent hold event hafter
          exact ⟨events, event, [], session, rfl, hopened, rfl, rfl, rfl, .single hopened⟩
      | some old =>
          have hslot := consistent.lobby.slot_eq hold
          rw [← hslot] at hold hafter
          have fate := fate_of_handle hconfig consistent hold event
          rw [hafter] at fate
          obtain ⟨hdevice, htoken⟩ : session.device = old.device ∧ session.token = old.token := by
            cases fate <;> exact ⟨rfl, rfl⟩
          obtain ⟨before, login, since, opened, rfl, hopened, hslots, hdevices, htokens,
            chronicle⟩ := ih hold
          refine ⟨before, login, since ++ [event], opened, by simp, hopened,
            hslot.symm.trans hslots, hdevice.trans hdevices, htoken.trans htokens, ?_⟩
          rw [run_append] at hold fate hafter
          exact chronicle.concat hold fate (by rw [run_concat, hafter])

/-- A session record is what its own history has made of it. A session that is live after a run was
opened by a login of the run, and has the slot, the device and the token that this login was told.
It has the address and the clock reading of the latest event since then that was heard of it, and
the seat that it was given last if it has not left since. An event changes no more of it, and closes
it only if it is its own logout or a sweep that finds it overdue. -/
theorem chronicle_of_run (hconfig : config.validate = .ok ()) (events : List Event)
    (hget : ((ofConfig config).run config events).lobby.get? slot = some session) :
    let world := (ofConfig config).run config events
    session.slot = slot ∧
      (∃ before login since opened, events = before ++ login :: since ∧
        Opened config ((ofConfig config).run config before) login opened ∧
        session.slot = opened.slot ∧ session.device = opened.device ∧
        session.token = opened.token ∧
        Chronicle config ((ofConfig config).run config before) (login :: since) session) ∧
      ∀ event, Fate config world event session ((world.handle config event).lobby.get? slot) := by
  intro world
  have bounded := Config.bounded_of_validate hconfig
  have consistent : world.Consistent config := (Consistent.ofConfig config).run events
  obtain rfl := consistent.lobby.slot_eq hget
  exact ⟨rfl, exists_chronicle bounded events hget, fate_of_handle bounded consistent hget⟩

/-- The second of two devices was seated by the last event of its life, and a late sweep closes
it. -/
theorem chronicle_of_pair :
    let world := (ofConfig .small).run .small smallPair
    let second : Session :=
      { slot := ⟨1⟩, device := Vector.replicate _ 8, token := ⟨654989, by decide⟩
        peer := smallPeer, lastActive := 0, seat := some ⟨⟨0⟩, ⟨1⟩⟩, flags := 0 }
    Config.validate .small = .ok () ∧ world.lobby.get? ⟨1⟩ = some second ∧
      (∃ before login since opened, smallPair = before ++ login :: since ∧
        Opened .small ((ofConfig .small).run .small before) login opened ∧
        second.token = opened.token ∧
        ∃ past event,
          Latest .small ((ofConfig .small).run .small before) (Places .small ⟨1⟩) (login :: since)
            past event ∧
          Seats .small ⟨1⟩ (((ofConfig .small).run .small before).run .small past) event
            ⟨⟨0⟩, ⟨1⟩⟩) ∧
      Fate .small world (.sweep 1000000 .fresh) second none := by
  intro world second
  have hconfig : Config.validate .small = .ok () := rfl
  have hget : world.lobby.get? ⟨1⟩ = some second := by decide +kernel
  have hclosed : (world.handle .small (.sweep 1000000 .fresh)).lobby.get? ⟨1⟩ = none := by
    decide +kernel
  obtain ⟨-, ⟨before, login, since, opened, hsplit, hopened, -, -, htoken, chronicle⟩, fate⟩ :=
    chronicle_of_run hconfig smallPair hget
  have fate := fate (.sweep 1000000 .fresh)
  rw [hclosed] at fate
  exact ⟨hconfig, hget, ⟨before, login, since, opened, hsplit, hopened, htoken,
    (chronicle.seat ⟨⟨0⟩, ⟨1⟩⟩).mp rfl⟩, fate⟩

end RoomRelay.World
