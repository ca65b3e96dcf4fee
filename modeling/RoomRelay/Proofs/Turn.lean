import RoomRelay.Proofs.Accounting
import RoomRelay.Proofs.Latest

/-!
# What becomes of a room at an event

A room is opened, on its terms, for a session that creates it while it is empty, and that session
sits in it afterwards. No other event changes the terms of a room, or puts somebody into an empty
one: whoever joins is matched into a room that has members, and everybody else leaves at most.
-/

namespace RoomRelay

theorem Room.openSince_vacate (room : Room) (index : SeatIndex) (slot : SlotId) :
    (room.vacate index slot).openSince = room.openSince := by
  rw [vacate]
  split <;> rfl

theorem Room.terms_vacate (room : Room) (index : SeatIndex) (slot : SlotId) :
    (room.vacate index slot).terms = room.terms := by
  rw [vacate]
  split <;> rfl

/-- Nobody can leave an empty room. -/
theorem Room.isEmpty_vacate {room : Room} (h : room.isEmpty = true) (index : SeatIndex)
    (slot : SlotId) : (room.vacate index slot).isEmpty = true := by
  simp only [isEmpty, beq_iff_eq] at h ⊢
  rw [vacate]
  split
  · show room.memberCount - 1 = 0
    omega
  · exact h

namespace RoomTable

/-- Whether the rooms of a later table have the terms that they had in an earlier one, and those
that were empty are still empty. -/
def KeepsTerms (before after : RoomTable) : Prop :=
  ∀ id room', after.room? id = some room' → ∃ room, before.room? id = some room ∧
    room'.openSince = room.openSince ∧ room'.terms = room.terms ∧
    (room.isEmpty = true → room'.isEmpty = true)

namespace KeepsTerms

variable {a b c : RoomTable}

theorem refl (table : RoomTable) : table.KeepsTerms table :=
  fun _ _ hroom => ⟨_, hroom, rfl, rfl, fun h => h⟩

theorem trans (first : a.KeepsTerms b) (second : b.KeepsTerms c) : a.KeepsTerms c := by
  intro id room'' hroom''
  obtain ⟨room', hroom', hsince', hterms', hempty'⟩ := second id room'' hroom''
  obtain ⟨room, hroom, hsince, hterms, hempty⟩ := first id room' hroom'
  exact ⟨room, hroom, hsince'.trans hsince, hterms'.trans hterms, fun h => hempty' (hempty h)⟩

/-- Changing a room in a way that keeps its terms. -/
theorem modify {table : RoomTable} {id : RoomId} {change : Room → Room}
    (h : ∀ room, table.room? id = some room → (change room).openSince = room.openSince ∧
      (change room).terms = room.terms ∧ (room.isEmpty = true → (change room).isEmpty = true)) :
    table.KeepsTerms (table.modify id change) := by
  intro other room' hroom'
  obtain ⟨rfl, room, hroom, rfl⟩ | ⟨-, hroom⟩ := of_room?_modify hroom'
  · exact ⟨room, hroom, h room hroom⟩
  · exact ⟨room', hroom, rfl, rfl, fun h => h⟩

theorem leave (table : RoomTable) (session : Session) :
    table.KeepsTerms (table.leave session).1 := by
  rw [RoomTable.leave]
  split
  · exact refl table
  · exact modify fun room _ => ⟨room.openSince_vacate _ _, room.terms_vacate _ _,
      fun h => Room.isEmpty_vacate h _ _⟩

end KeepsTerms

end RoomTable

namespace World

variable {config : Config} {world : World} {slot : SlotId} {now : Instant}

theorem keepsTerms_leave (world : World) (slot : SlotId) :
    world.rooms.KeepsTerms (world.leave slot).rooms := by
  cases hget : world.lobby.get? slot with
  | none =>
      rw [leave, hget]
      exact .refl world.rooms
  | some session =>
      rw [leave, hget]
      exact .leave world.rooms session

theorem keepsTerms_remove (world : World) (slot : SlotId) :
    world.rooms.KeepsTerms (world.remove slot).1.rooms :=
  keepsTerms_leave world slot

theorem keepsTerms_expireSlots (world : World) (now : Instant) (timeout : Nat)
    (slots : List SlotId) :
    world.rooms.KeepsTerms (world.expireSlots now timeout slots).1.rooms := by
  induction slots generalizing world with
  | nil => exact .refl world.rooms
  | cons first rest ih =>
      rw [expireSlots]
      split
      · exact (keepsTerms_remove world first).trans (ih _)
      · exact ih world

theorem keepsTerms_tick (world : World) (config : Config) (now : Instant) (sweeper : Sweeper) :
    world.rooms.KeepsTerms (sweeper.tick config world now).world.rooms := by
  have expired := keepsTerms_expireSlots world now config.sessionTimeout
    ((List.range world.lobby.capacity).filterMap SlotId.ofPosition?)
  rw [Sweeper.tick]
  dsimp only
  split <;> exact expired

/-- A session is matched into a room that suits it, or nothing happens. -/
theorem Consistent.matchmake_cases (h : world.Consistent config) (slot : SlotId)
    (ranges : Wire.Ranges) (now : Instant) :
    world.matchmake slot ranges now = (world, false) ∨
      ∃ session id room index room', world.lobby.get? slot = some session ∧
        session.seat = none ∧ world.rooms.room? id = some room ∧
        room.isJoinable ranges now = true ∧
        room.insert? session.slot = some (index, room') ∧
        world.matchmake slot ranges now = (world.sit slot session ⟨id, index⟩ room', true) := by
  rw [matchmake_eq]
  cases hfind : world.rooms.findJoinable ranges now with
  | none => exact .inl rfl
  | some id =>
      obtain ⟨room, hroom, hjoinable⟩ := h.of_find? hfind
      obtain hjoin | ⟨session, found, index, room', hget, hseat, hfound, hinsert, hjoin⟩ :=
        world.join_cases slot id
      · exact .inl hjoin
      · obtain rfl := Option.some.inj (hroom.symm.trans hfound)
        exact .inr ⟨session, id, room, index, room', hget, hseat, hroom, hjoinable, hinsert, hjoin⟩

section Kinds

variable (config : Config) (world : World) (event : Event)

/-- Whether a request of an event newly seats its sender. -/
def Takes (request : Request) (seat : Seat) : Prop :=
  ∃ session, event.request? = some request ∧ request.recognise? world.lobby = some session ∧
    session.seat = none ∧ (world.handle config event).lobby.seat? session.slot = some seat

/-- Whether an event is a creation that newly seats its sender in a room. -/
def Founds (id : RoomId) : Prop :=
  ∃ create index, Takes config world event (.create create) ⟨id, index⟩

/-- Whether somebody sits in a room. -/
def Occupied (id : RoomId) : Prop := ∃ session index, world.Sits session ⟨id, index⟩

end Kinds

variable {event : Event} {id : RoomId} {room room' : Room} {request : Request} {session : Session}

/-- What an event makes of a room: it is opened by whoever founds it, or it keeps its terms, and has
no members if it had none. -/
inductive Turn (config : Config) (world : World) (event : Event) (id : RoomId)
    (room room' : Room) : Prop
  | kept (hsince : room'.openSince = room.openSince) (hterms : room'.terms = room.terms)
      (hempty : room.isEmpty = true → room'.isEmpty = true)
      (hfounds : ¬ Founds config world event id) : Turn config world event id room room'
  | founded {create : Wire.Create} (hrequest : event.request? = some (.create create))
      (hfounds : Founds config world event id) (hsince : room'.openSince = some event.now)
      (hterms : room'.terms = create.terms) : Turn config world event id room room'

theorem Turn.of_keepsTerms {after : World}
    (h : world.rooms.KeepsTerms after.rooms) (hroom : world.rooms.room? id = some room)
    (hroom' : after.rooms.room? id = some room') (hfounds : ¬ Founds config world event id) :
    Turn config world event id room room' := by
  obtain ⟨old, hold, hsince, hterms, hempty⟩ := h id room' hroom'
  obtain rfl := Option.some.inj (hroom.symm.trans hold)
  exact .kept hsince hterms hempty hfounds

theorem not_founds_of_request? (hrequest : ∀ create, event.request? ≠ some (.create create)) :
    ¬ Founds config world event id := by
  rintro ⟨create, index, session, hcreate, -⟩
  exact hrequest create hcreate

@[simp] theorem rooms_answerSeated (world : World) (config : Config) (now : Instant) (slot : SlotId)
    (refusal : Wire.Status) (answer : Seat → Room → UInt8 → Answer) :
    (world.answerSeated config now slot refusal answer).1.rooms = world.rooms := by
  obtain hsame | ⟨id, room, -, helected⟩ :=
    world.answerSeated_cases config now slot refusal answer
  · rw [hsame]
  · rw [helected]
    rfl

@[simp] theorem seat?_answerSeated (world : World) (config : Config) (now : Instant)
    (slot : SlotId) (refusal : Wire.Status) (answer : Seat → Room → UInt8 → Answer)
    (other : SlotId) :
    (world.answerSeated config now slot refusal answer).1.lobby.seat? other =
      world.lobby.seat? other := by
  obtain hsame | ⟨id, room, -, helected⟩ :=
    world.answerSeated_cases config now slot refusal answer
  · rw [hsame]
  · rw [helected, seat?_elect]

theorem settle_of_unseated (hseat : world.lobby.seat? slot = none)
    (attempt : World → World × Bool) (refusal : Wire.Status)
    (answer : Seat → Room → UInt8 → Answer) :
    world.settle config now slot attempt refusal answer =
      (attempt world).1.answerSeated config now slot refusal answer := by
  rw [settle, hseat]
  rfl

theorem settle_of_seated {seat : Seat} (hseat : world.lobby.seat? slot = some seat)
    (attempt : World → World × Bool) (refusal : Wire.Status)
    (answer : Seat → Room → UInt8 → Answer) :
    world.settle config now slot attempt refusal answer =
      world.answerSeated config now slot refusal answer := by
  rw [settle, hseat]
  rfl

/-- Joining keeps the terms of all rooms. -/
theorem keepsTerms_serveJoin (h : world.Consistent config) (now : Instant) (peer : SocketAddress)
    (join : Wire.Join) :
    world.rooms.KeepsTerms (world.serveJoin config now peer join).1.rooms := by
  cases hfound : world.lobby.findByToken join.token join.slot with
  | none =>
      rw [serveJoin_of_eq_none hfound]
      exact .refl world.rooms
  | some session =>
      rw [serveJoin_of_eq_some hfound]
      cases hseat : (world.touch session.slot peer now).lobby.seat? session.slot with
      | some seat =>
          rw [settle_of_seated hseat, rooms_answerSeated]
          exact .refl world.rooms
      | none =>
          rw [settle_of_unseated hseat, rooms_answerSeated]
          obtain hmatch | ⟨joining, id, room, index, room', -, -, hroom, hjoinable, hinsert,
            hmatch⟩ := (h.touch session.slot peer now).matchmake_cases session.slot join.ranges now
          · rw [hmatch]
            exact .refl world.rooms
          · rw [hmatch]
            refine .modify fun found hfound => ?_
            obtain rfl := Option.some.inj (hroom.symm.trans hfound)
            obtain ⟨-, rfl⟩ := Room.insert?_eq_some_iff.mp hinsert
            refine ⟨rfl, rfl, fun hempty => ?_⟩
            simp [Room.isJoinable, hempty] at hjoinable

/-- Whoever founds a room is a session without a seat, recognised by the request, that sits there
afterwards. -/
theorem Founds.of_create {create : Wire.Create} (h : Founds config world event id)
    (hrequest : event.request? = some (.create create))
    (hfound : world.lobby.findByToken create.token create.slot = some session) :
    session.seat = none ∧
      ∃ index, (world.handle config event).lobby.seat? session.slot = some ⟨id, index⟩ := by
  obtain ⟨other, index, founder, hother, hrecognised, hseat, hafter⟩ := h
  obtain ⟨⟩ := Option.some.inj (hrequest.symm.trans hother)
  obtain rfl := Option.some.inj (hfound.symm.trans hrecognised)
  exact ⟨hseat, index, hafter⟩

/-- Creating a room opens the one in which the session sits afterwards, which was empty, and keeps
the terms of all others. -/
theorem Turn.of_create (hconfig : config.Bounded) (h : world.Consistent config)
    {create : Wire.Create} {peer : SocketAddress}
    (hrequest : event.request? = some (.create create)) (hpeer : event.peer? = some peer)
    (hroom : world.rooms.room? id = some room)
    (hroom' : (world.handle config event).rooms.room? id = some room') :
    Turn config world event id room room' := by
  have hhandle : world.handle config event = (world.serveCreate config event.now peer create).1 :=
    (handle_of_request? world config hrequest hpeer).1
  have unchanged : (world.handle config event).rooms = world.rooms →
      ¬ Founds config world event id → Turn config world event id room room' := by
    intro hsame hfounds
    have hkeeps : world.rooms.KeepsTerms (world.handle config event).rooms := by
      rw [hsame]
      exact .refl world.rooms
    exact .of_keepsTerms hkeeps hroom hroom' hfounds
  cases hfound : world.lobby.findByToken create.token create.slot with
  | none =>
      rw [serveCreate_of_eq_none hfound] at hhandle
      refine unchanged (by rw [hhandle]) ?_
      rintro ⟨other, index, founder, hother, hrecognised, -⟩
      obtain ⟨⟩ := Option.some.inj (hrequest.symm.trans hother)
      cases hfound.symm.trans hrecognised
  | some session =>
      obtain ⟨-, hget, -⟩ := Lobby.of_findByToken h.lobby hfound
      have touched := h.touch session.slot peer event.now
      have hseat? := seat?_touch_of_get? hget peer event.now
      rw [serveCreate_of_eq_some hfound] at hhandle
      cases hseat : session.seat with
      | some seat =>
          rw [settle_of_seated (hseat?.trans hseat)] at hhandle
          refine unchanged (by rw [hhandle, rooms_answerSeated]; rfl) fun hfounds => ?_
          cases hseat.symm.trans (hfounds.of_create hrequest hfound).1
      | none =>
          rw [settle_of_unseated (hseat?.trans hseat)] at hhandle
          obtain hcreate | ⟨founder, first, empty, index, opened, hlive, -, hempty, -, hinsert,
            hcreate⟩ := touched.create_cases hconfig session.slot event.now create.terms
          · rw [hcreate] at hhandle
            refine unchanged (by rw [hhandle, rooms_answerSeated]; rfl) fun hfounds => ?_
            obtain ⟨-, index, hafter⟩ := hfounds.of_create hrequest hfound
            rw [hhandle, seat?_answerSeated, hseat?, hseat] at hafter
            cases hafter
          · rw [hcreate] at hhandle
            have hafter : (world.handle config event).lobby.seat? session.slot =
                some ⟨first, index⟩ := by
              rw [hhandle, seat?_answerSeated]
              exact (Lobby.seat?_modify_const hlive _ _).trans (if_pos rfl)
            have hrooms : (world.handle config event).rooms =
                (world.rooms.modify first (·.reopen event.now create.terms)).modify first
                  fun _ => opened := by
              rw [hhandle, rooms_answerSeated]
              rfl
            rw [hrooms] at hroom'
            obtain ⟨rfl, -, -, rfl⟩ | ⟨hne, hroom'⟩ := RoomTable.of_room?_modify hroom'
            · obtain ⟨-, rfl⟩ := Room.insert?_eq_some_iff.mp hinsert
              exact .founded hrequest ⟨create, index, session, hrequest, hfound, hseat, hafter⟩
                rfl rfl
            · rw [RoomTable.room?_modify_of_ne _ _ hne, hroom] at hroom'
              obtain rfl := Option.some.inj hroom'
              refine .kept rfl rfl (fun hempty => hempty) fun hfounds => ?_
              obtain ⟨-, index', hafter'⟩ := hfounds.of_create hrequest hfound
              cases hafter.symm.trans hafter'
              exact hne rfl

/-- A request that neither creates a room nor joins one keeps the terms of all rooms. -/
theorem keepsTerms_serve (hconfig : config.Bounded) (h : world.Consistent config) (now : Instant)
    (peer : SocketAddress) (hcreate : request.kind ≠ .create) (hjoin : request.kind ≠ .join) :
    world.rooms.KeepsTerms (world.serve config now peer request).1.rooms := by
  by_cases hlogin : request.kind = .login
  · cases request with
    | login login =>
        show world.rooms.KeepsTerms (world.serveLogin now peer login).1.rooms
        obtain ⟨slot, -, hafter⟩ | ⟨-, -, hafter⟩ | ⟨-, hafter⟩ :=
          serveLogin_cases world now peer login
        · rw [hafter]
          exact .refl world.rooms
        · rw [hafter]
          exact .refl world.rooms
        · rw [hafter]
          exact .refl world.rooms
    | _ => cases hlogin
  · have served := served_serve now peer hconfig h hlogin
    generalize world.serve config now peer request = result at served ⊢
    cases served with
    | rejected _ => exact .refl world.rooms
    | noted _ _ _ => exact .refl world.rooms
    | left _ _ _ => exact keepsTerms_leave (world.touch _ peer now) _
    | closed _ _ => exact keepsTerms_remove world _
    | settled _ hkind _ _ _ _ _ =>
        obtain hkind | hkind := hkind
        · exact absurd hkind hcreate
        · exact absurd hkind hjoin

/-- What becomes of a room at an event is one of two things. -/
theorem turn_of_handle (hconfig : config.Bounded) (h : world.Consistent config) (event : Event)
    (hroom : world.rooms.room? id = some room)
    (hroom' : (world.handle config event).rooms.room? id = some room') :
    Turn config world event id room room' := by
  cases event with
  | sweep now sweeper =>
      exact .of_keepsTerms (keepsTerms_tick world config now sweeper) hroom hroom'
        (not_founds_of_request? nofun)
  | datagram now peer scratch =>
      have hpeer : (Event.datagram now peer scratch).peer? = some peer := rfl
      cases hrequest : (Event.datagram now peer scratch).request? with
      | none =>
          rw [handle_of_request?_eq_none world config hrequest hpeer] at hroom'
          exact .of_keepsTerms (.refl world.rooms) hroom hroom'
            (not_founds_of_request? (by rw [hrequest]; nofun))
      | some request =>
          have hhandle := (handle_of_request? world config hrequest hpeer).1
          by_cases hcreate : request.kind = .create
          · cases request with
            | create create => exact .of_create hconfig h hrequest hpeer hroom hroom'
            | _ => cases hcreate
          · have hfounds : ¬ Founds config world (.datagram now peer scratch) id := by
              refine not_founds_of_request? fun create heq => ?_
              rw [hrequest] at heq
              exact hcreate (by rw [Option.some.inj heq]; rfl)
            rw [hhandle] at hroom'
            by_cases hjoin : request.kind = .join
            · cases request with
              | join join =>
                  exact .of_keepsTerms (keepsTerms_serveJoin h now peer join) hroom hroom' hfounds
              | _ => cases hjoin
            · exact .of_keepsTerms (keepsTerms_serve hconfig h now peer hcreate hjoin) hroom hroom'
                hfounds

end World

end RoomRelay
