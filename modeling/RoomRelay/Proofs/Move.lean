import Mathlib.Logic.Relation
import RoomRelay.Proofs.Handler

/-!
# Moves

Behind everything that a server does stand a few moves. Each of them concerns the record and the
seat of one session, or the marks of the members of one room. Opening a session is not among them:
a login that finds no session of its device does so on its own, with a token issued for it.

What the moves keep, and opening a session keeps, is kept by every run.
-/

namespace RoomRelay

/-- Whoever is matched into a room joins it; nobody who has a seat does either. -/
theorem RoomTable.matchmake_eq (table : RoomTable) (session : Session) (ranges : Wire.Ranges)
    (now : Instant) :
    table.matchmake session ranges now =
      match table.findJoinable ranges now with
      | none => (table, none)
      | some id => table.join session id := by
  rw [matchmake]
  split
  · next hseat =>
    cases table.findJoinable ranges now with
    | none => rfl
    | some id => simp [join, hseat]
  · rfl

namespace World

/-- An elementary change that opens no session. -/
inductive Move : World → World → Prop
  | touch (world slot peer now) : Move world (world.touch slot peer now)
  | create (world slot now terms) : Move world (world.create slot now terms).1
  | join (world slot room) : Move world (world.join slot room).1
  | leave (world slot) : Move world (world.leave slot)
  | remove (world slot) : Move world (world.remove slot).1
  | elect (world now timeout) {room : Room} (h : room ∈ world.rooms.rooms) :
    Move world (world.elect room now timeout).1

/-- Any number of elementary changes. -/
abbrev Moves : World → World → Prop := Relation.ReflTransGen Move

/-- What each move keeps is kept by any number of them. -/
theorem Moves.keep {holds : World → Prop} (step : ∀ {world after}, Move world after →
    holds world → holds after) {world after : World} (h : Moves world after)
    (start : holds world) : holds after := by
  induction h with
  | refl => exact start
  | tail _ move ih => exact step move ih

theorem room?_mem {rooms : RoomTable} {id : RoomId} {room : Room}
    (h : rooms.room? id = some room) : room ∈ rooms.rooms :=
  Array.mem_of_getElem? h

variable (world : World) (config : Config) (now : Instant) (peer : SocketAddress)

theorem matchmake_eq (slot : SlotId) (ranges : Wire.Ranges) :
    world.matchmake slot ranges now =
      match world.rooms.findJoinable ranges now with
      | none => (world, false)
      | some room => world.join slot room := by
  simp only [matchmake, join, seat]
  simp only [RoomTable.matchmake_eq]
  generalize world.rooms.findJoinable ranges now = found
  cases world.lobby.get? slot <;> cases found <;> rfl

theorem moves_matchmake (slot : SlotId) (ranges : Wire.Ranges) :
    Moves world (world.matchmake slot ranges now).1 := by
  rw [matchmake_eq]
  split
  · exact .refl
  · exact .single (.join world slot _)

theorem moves_expireSlots (timeout : Nat) (slots : List SlotId) :
    Moves world (world.expireSlots now timeout slots).1 := by
  induction slots generalizing world with
  | nil => exact .refl
  | cons slot rest ih =>
      rw [expireSlots]
      split
      · exact (Relation.ReflTransGen.single (.remove world slot)).trans (ih _)
      · exact ih world

theorem moves_electEach (timeout : Nat) (rooms : List Room)
    (h : ∀ room ∈ rooms, room ∈ world.rooms.rooms) :
    Moves world { world with lobby := world.lobby.electEach rooms now timeout } := by
  induction rooms generalizing world with
  | nil => exact .refl
  | cons room rest ih =>
      have first : Move world (world.elect room now timeout).1 :=
        .elect world now timeout (h room List.mem_cons_self)
      exact (Relation.ReflTransGen.single first).trans
        (ih (world.elect room now timeout).1 fun room hroom => h room (.tail _ hroom))

theorem moves_electAll (timeout : Nat) : Moves world (world.electAll now timeout).1 :=
  moves_electEach world now timeout _ fun _ h =>
    Array.mem_toList_iff.mp (List.mem_filter.mp h).1

theorem moves_tick (sweeper : Sweeper) : Moves world (sweeper.tick config world now).world := by
  have expired := moves_expireSlots world now config.sessionTimeout
    ((List.range world.lobby.capacity).filterMap SlotId.ofPosition?)
  rw [Sweeper.tick]
  dsimp only
  split
  · exact expired.trans (moves_electAll _ now config.masterTimeout)
  · exact expired

theorem moves_answerSeated (slot : SlotId) (refusal : Wire.Status)
    (answer : Seat → Room → UInt8 → Answer) :
    Moves world (world.answerSeated config now slot refusal answer).1 := by
  rcases world.answerSeated_cases config now slot refusal answer with h | ⟨id, room, hroom, h⟩
  · rw [h]
  · rw [h]
    exact .single (.elect world now _ (room?_mem hroom))

theorem moves_settle (slot : SlotId) (attempt : World → World × Bool)
    (hattempt : Moves world (attempt world).1) (refusal : Wire.Status)
    (answer : Seat → Room → UInt8 → Answer) :
    Moves world (world.settle config now slot attempt refusal answer).1 := by
  rw [settle]
  refine Relation.ReflTransGen.trans ?_ (moves_answerSeated _ config now slot refusal answer)
  split
  · exact .refl
  · exact hattempt

theorem moves_serveCreate (create : Wire.Create) :
    Moves world (world.serveCreate config now peer create).1 := by
  cases hfound : world.lobby.findByToken create.token create.slot with
  | none => rw [serveCreate_of_eq_none hfound]
  | some session =>
      rw [serveCreate_of_eq_some hfound]
      apply Relation.ReflTransGen.head (.touch world session.slot peer now)
      apply moves_settle
      exact .single (.create _ session.slot now create.terms)

theorem moves_serveJoin (join : Wire.Join) :
    Moves world (world.serveJoin config now peer join).1 := by
  cases hfound : world.lobby.findByToken join.token join.slot with
  | none => rw [serveJoin_of_eq_none hfound]
  | some session =>
      rw [serveJoin_of_eq_some hfound]
      apply Relation.ReflTransGen.head (.touch world session.slot peer now)
      apply moves_settle
      exact moves_matchmake _ now session.slot join.ranges

theorem moves_serveLeave (leave : Wire.Leave) :
    Moves world (world.serveLeave now peer leave).1 := by
  cases hfound : world.lobby.findByCredentials leave.credentials with
  | none => rw [serveLeave_of_eq_none hfound]
  | some session =>
      rw [serveLeave_of_eq_some hfound]
      apply Relation.ReflTransGen.head (.touch world session.slot peer now)
      exact .single (.leave _ session.slot)

theorem moves_serveLogout (logout : Wire.Logout) :
    Moves world (world.serveLogout config logout).1 := by
  rcases world.serveLogout_cases config logout with h | h | ⟨session, -, h⟩
  · rw [h]
  · rw [h]
  · rw [h]
    exact .single (.remove world session.slot)

variable {config now peer} in
theorem ForMembers.moves {credentials : Wire.Credentials} {serve : World → World × Answer}
    (h : ForMembers config now peer credentials serve) : Moves world (serve world).1 := by
  cases h with
  | dropped => exact .refl
  | @answered seat answer _ _ =>
      change Moves world (world.answerMember now peer credentials seat answer).1
      cases hfound : world.lobby.findByCredentials credentials with
      | none => rw [answerMember_of_eq_none hfound]
      | some session =>
          rw [answerMember_of_eq_some hfound]
          exact .single (.touch world session.slot peer now)

/-- A request that is not a login makes moves only. -/
theorem moves_serve (request : Request) (h : request.kind ≠ .login) :
    Moves world (world.serve config now peer request).1 := by
  cases request with
  | ping ping =>
      change Moves world (world.servePing now peer ping).1
      cases hfound : world.lobby.findByCredentials ping.credentials with
      | none => rw [servePing_of_eq_none hfound]
      | some session =>
          rw [servePing_of_eq_some hfound]
          exact .single (.touch world session.slot peer now)
  | login _ => exact absurd rfl h
  | logout logout => exact moves_serveLogout world config logout
  | create create => exact moves_serveCreate world config now peer create
  | join join => exact moves_serveJoin world config now peer join
  | leave leave => exact moves_serveLeave world now peer leave
  | unreliable header => exact (forMembers_serveUnreliable config now peer header).moves world
  | reliable header => exact (forMembers_serveReliable config now peer header).moves world
  | relied relied => exact (forMembers_serveRelied config now peer relied).moves world

/-- A dispatched datagram makes moves only, unless it is a login that opens a session. -/
theorem moves_receive (datagram : List UInt8) :
    Moves world (world.receive config now peer datagram).1 ∨
      ∃ login, Request.decode datagram = .ok (.login login) ∧
        world.lobby.findByDevice login.device = none ∧ world.lobby.isFull = false ∧
        (world.receive config now peer datagram).1 =
          (world.openSession login.device peer now).1 := by
  rw [receive]
  cases hdecode : Request.decode datagram with
  | error fault => exact .inl .refl
  | ok request =>
      by_cases hkind : request.kind = .login
      · obtain ⟨login, rfl⟩ : ∃ login, request = .login login := by
          cases request <;> simp_all [Request.kind]
        rcases serveLogin_cases world now peer login with ⟨slot, -, h⟩ | ⟨hfind, hfull, h⟩ | ⟨-, h⟩
        · exact .inl (by simpa only [serve, h] using .single (.touch world slot peer now))
        · exact .inr ⟨login, rfl, hfind, hfull, h⟩
        · exact .inl (by simpa only [serve, h] using .refl)
      · exact .inl (moves_serve world config now peer request hkind)

/-- An event makes moves only, unless it is a login that opens a session. -/
theorem moves_handle (event : Event) :
    Moves world (world.handle config event) ∨
      ∃ device peer now, world.lobby.findByDevice device = none ∧ world.lobby.isFull = false ∧
        world.handle config event = (world.openSession device peer now).1 := by
  cases event with
  | datagram now peer scratch =>
      simp only [handle, world_dispatch]
      rcases moves_receive world config now peer scratch.datagram with h | ⟨login, -, h⟩
      · exact .inl h
      · exact .inr ⟨login.device, peer, now, h⟩
  | sweep now sweeper => exact .inl (moves_tick world config now sweeper)

/-- An action makes moves only, unless it opens a session, for which the issuer may have turned. -/
theorem moves_act (action : Action) :
    Moves world (world.act config action) ∨
      ∃ tokens device peer token now, world.act config action =
        (({ world with tokens } : World).allocate device peer token now).1 := by
  cases action with
  | event event =>
      rcases moves_handle world config event with made | ⟨device, peer, now, -, -, hopened⟩
      · exact .inl made
      · exact .inr ⟨_, device, peer, _, now, hopened⟩
  | allocate device peer token now => exact .inr ⟨world.tokens, device, peer, token, now, rfl⟩
  | touch slot peer now => exact .inl (.single (.touch world slot peer now))
  | create slot now terms => exact .inl (.single (.create world slot now terms))
  | join slot room => exact .inl (.single (.join world slot room))
  | matchmake slot ranges now => exact .inl (moves_matchmake world now slot ranges)
  | leave slot => exact .inl (.single (.leave world slot))
  | remove slot => exact .inl (.single (.remove world slot))
  | expireIdle now timeout => exact .inl (moves_expireSlots world now timeout _)
  | elect id now timeout =>
      left
      cases hroom : world.rooms.room? id with
      | none => simpa only [act, hroom] using .refl
      | some room =>
          simpa only [act, hroom] using .single (.elect world now timeout (room?_mem hroom))
  | electAll now timeout => exact .inl (moves_electAll world now timeout)

end World

end RoomRelay
