import RoomRelay.Proofs.Identity
import RoomRelay.Proofs.Mastery

/-!
# Masters that stay

A master that is live keeps its mark. As marks are in order, an election in its room finds it before
anybody else, and as long as it is live it wins; nothing else takes the mark away but leaving the
seat and closing the session. An event at some reading of the clock holds its elections at that
reading, so it is enough that the master is live then.
-/

namespace RoomRelay

/-- The reading of the clock at an event. -/
def Event.now : Event → Instant
  | .datagram now _ _ => now
  | .sweep now _ => now

namespace World

/-- Whether the session in a slot is a given one, in its seat and marked as a master. -/
structure Rules (config : Config) (slot : SlotId) (master : Session) (world : World) : Prop where
  consistent : world.Consistent config
  mastery : world.Mastery
  record : ∃ session, world.lobby.get? slot = some session ∧ session.token = master.token ∧
    session.seat = master.seat ∧ session.isMaster = true

/-- Whether it is also live at a reading of the clock. -/
structure Reigns (config : Config) (now : Instant) (slot : SlotId) (master : Session)
    (world : World) : Prop extends Rules config slot master world where
  live : world.lobby.isLive now config.masterTimeout slot = true

namespace Reigns

variable {config : Config} {world : World} {now : Instant} {slot : SlotId} {master : Session}

/-- A move that does not concern the record of the master is of no consequence. -/
theorem of_get?_eq (h : world.Reigns config now slot master) {after : World}
    (move : Move world after) (hget : after.lobby.get? slot = world.lobby.get? slot) :
    after.Reigns config now slot master where
  consistent := h.consistent.move move
  mastery := h.mastery.move h.consistent move
  record := by
    rw [hget]
    exact h.record
  live := by
    rw [Lobby.isLive, hget]
    exact h.live

/-- Whoever is heard of now is live, if anybody is. -/
theorem touch (h : world.Reigns config now slot master) (other : SlotId) (peer : SocketAddress) :
    (world.touch other peer now).Reigns config now slot master := by
  have move : Move world (world.touch other peer now) := .touch world other peer now
  by_cases heq : other = slot
  · subst heq
    obtain ⟨session, hget, hrecord⟩ := h.record
    have htouched : (world.touch other peer now).lobby.get? other =
        some (session.touch peer now) := by
      simp [World.touch, Lobby.touch, hget]
    refine ⟨⟨h.consistent.move move, h.mastery.move h.consistent move, _, htouched, hrecord⟩, ?_⟩
    have hlive := h.live
    simp only [Lobby.isLive, hget, htouched, decide_eq_true_eq] at hlive ⊢
    rw [Session.idle_of_lastActive (session.lastActive_touch peer now)]
    exact Nat.lt_of_le_of_lt (Nat.zero_le _) hlive
  · exact h.of_get?_eq move (Lobby.get?_modify_of_ne _ _ heq)

theorem seat?_ne_none (h : world.Reigns config now slot master) :
    world.lobby.seat? slot ≠ none := by
  obtain ⟨session, hget, -, -, hmaster⟩ := h.record
  rw [Lobby.seat?_of_get? hget]
  exact h.mastery.seated hget hmaster

/-- The master has a seat, so nobody who sits down is the master. -/
theorem join (h : world.Reigns config now slot master) (other : SlotId) (id : RoomId) :
    (world.join other id).1.Reigns config now slot master :=
  h.of_get?_eq (.join world other id) (world.get?_join_of_seated other id h.seat?_ne_none)

theorem matchmake (h : world.Reigns config now slot master) (other : SlotId)
    (ranges : Wire.Ranges) :
    (world.matchmake other ranges now).1.Reigns config now slot master := by
  rw [matchmake_eq]
  split
  · exact h
  · exact h.join other _

theorem create (h : world.Reigns config now slot master) (other : SlotId) (terms : Terms) :
    (world.create other now terms).1.Reigns config now slot master :=
  h.of_get?_eq (.create world other now terms)
    (world.get?_create_of_seated other now terms h.seat?_ne_none)

/-- A live master wins the election in its room. -/
theorem winner (h : world.Reigns config now slot master) {id : RoomId} {room : Room}
    (hroom : world.rooms.room? id = some room) (hinside : master.room? = some id) :
    world.lobby.winner room.slots now config.masterTimeout = some slot := by
  obtain ⟨session, hget, -, hseat, hmaster⟩ := h.record
  have hplace : session.room? = some id := by rw [Session.room?, hseat]; exact hinside
  have hmem : slot ∈ room.slots := (h.consistent.mem_slots hroom).mpr ⟨session, hget, hplace⟩
  have hmarked : world.lobby.isMarked slot = true :=
    Lobby.isMarked_eq_true_iff.mpr ⟨session, hget, hmaster⟩
  have hfound : room.slots.find? world.lobby.isMarked = some slot := by
    cases hfind : room.slots.find? world.lobby.isMarked with
    | none => exact absurd hmarked (List.find?_eq_none.mp hfind slot hmem)
    | some found =>
        obtain ⟨other, hother, hmaster'⟩ :=
          Lobby.isMarked_eq_true_iff.mp (List.find?_some hfind)
        obtain ⟨_, hother', hplace'⟩ :=
          (h.consistent.mem_slots hroom).mp (List.mem_of_find?_eq_some hfind)
        rw [hother] at hother'
        cases hother'
        rw [h.mastery.unique hother hmaster' hplace' hget hmaster hplace]
  rw [Lobby.winner, hfound]
  exact if_pos h.live

theorem elect (h : world.Reigns config now slot master) {room : Room}
    (hmem : room ∈ world.rooms.rooms) :
    (world.elect room now config.masterTimeout).1.Reigns config now slot master := by
  have move : Move world (world.elect room now config.masterTimeout).1 :=
    .elect world now config.masterTimeout hmem
  obtain ⟨position, hposition⟩ := Array.mem_iff_getElem?.mp hmem
  obtain ⟨id, -, hroom⟩ := h.consistent.exists_id hposition
  obtain ⟨session, hget, -, hseat, hmaster⟩ := h.record
  have helected := h.consistent.get?_elect hroom now config.masterTimeout slot
  rw [hget, Option.map_some] at helected
  refine h.of_get?_eq move ?_
  rw [helected, hget]
  split
  · next hinside =>
    have hplace : master.room? = some id := by rw [Session.room?, ← hseat]; exact hinside
    have hwon := h.winner hroom hplace
    rw [decide_eq_true hwon, Session.setMaster_of_isMaster_eq hmaster]
  · rfl

theorem electEach (h : world.Reigns config now slot master) (rooms : List Room)
    (hmem : ∀ room ∈ rooms, room ∈ world.rooms.rooms) :
    ({ world with lobby := world.lobby.electEach rooms now config.masterTimeout } : World).Reigns
      config now slot master := by
  induction rooms generalizing world with
  | nil => exact h
  | cons room rest ih =>
      exact ih (h.elect (hmem room List.mem_cons_self)) fun room hroom => hmem room (.tail _ hroom)

/-- Only the master itself can take its mark away by leaving. -/
theorem leave (h : world.Reigns config now slot master) {other : SlotId} (hne : other ≠ slot) :
    (world.leave other).Reigns config now slot master :=
  h.of_get?_eq (.leave world other) (world.get?_leave_of_ne hne)

theorem remove (h : world.Reigns config now slot master) {other : SlotId} (hne : other ≠ slot) :
    (world.remove other).1.Reigns config now slot master :=
  h.of_get?_eq (.remove world other) (by rw [get?_remove, if_neg hne])

/-- A session is opened in a slot that was free. -/
theorem openSession (h : world.Reigns config now slot master) (device : Wire.Device)
    (peer : SocketAddress) :
    (world.openSession device peer now).1.Reigns config now slot master := by
  have hsame : (world.openSession device peer now).1.lobby.get? slot =
      world.lobby.get? slot := by
    cases hslot : (world.openSession device peer now).2 with
    | none => exact congrArg (·.get? slot) (Lobby.fst_allocate_of_eq_none hslot)
    | some opened =>
        have hfree : world.lobby.get? opened = none := Lobby.get?_of_allocate hslot
        rw [get?_openSession hslot, if_neg]
        rintro rfl
        obtain ⟨session, hget, -⟩ := h.record
        rw [hget] at hfree
        cases hfree
  have mastery := h.mastery.allocate world.issueToken.1.tokens device peer world.issueToken.2 now
  refine ⟨⟨h.consistent.openSession device peer now, mastery, ?_⟩, ?_⟩
  · rw [hsame]
    exact h.record
  · rw [Lobby.isLive, hsame]
    exact h.live

/-- A master whose session outlives a sweep was not among those that the sweep closed. -/
theorem expireSlots (h : world.Reigns config now slot master) (timeout : Nat)
    (slots : List SlotId)
    (hstays : (world.expireSlots now timeout slots).1.lobby.get? slot ≠ none) :
    (world.expireSlots now timeout slots).1.Reigns config now slot master := by
  induction slots generalizing world with
  | nil => exact h
  | cons first rest ih =>
      rw [World.expireSlots] at hstays ⊢
      split at hstays
      · next hoverdue =>
        rw [if_pos hoverdue]
        by_cases heq : first = slot
        · -- A slot that the sweep frees is still free at its end, against `hstays`.
          obtain ⟨session, hsession⟩ := Option.ne_none_iff_exists'.mp hstays
          have kept := Shrinks.moves (moves_expireSlots (world.remove first).1 now timeout rest)
          obtain ⟨old, hold, -⟩ := kept.get? hsession
          rw [get?_remove, if_pos heq] at hold
          cases hold
        · exact ih (h.remove heq) hstays
      · next hoverdue =>
        rw [if_neg hoverdue]
        exact ih h hstays

theorem tick (h : world.Reigns config now slot master) (sweeper : Sweeper)
    (hstays : (sweeper.tick config world now).world.lobby.get? slot ≠ none) :
    (sweeper.tick config world now).world.Reigns config now slot master := by
  have expired := h.expireSlots config.sessionTimeout
    ((List.range world.lobby.capacity).filterMap SlotId.ofPosition?)
  rw [Sweeper.tick] at hstays ⊢
  dsimp only at hstays ⊢
  split at hstays
  · next hdue =>
    rw [if_pos hdue]
    have hbefore : (world.expireIdle now config.sessionTimeout).1.lobby.get? slot ≠ none := by
      obtain ⟨session, hsession⟩ := Option.ne_none_iff_exists'.mp hstays
      have kept := Shrinks.moves
        (moves_electAll (world.expireIdle now config.sessionTimeout).1 now config.masterTimeout)
      obtain ⟨old, hold, -⟩ := kept.get? hsession
      rw [hold]
      exact Option.some_ne_none old
    exact (expired hbefore).electEach _ fun room hroom =>
      Array.mem_toList_iff.mp (List.mem_filter.mp hroom).1
  · next hdue =>
    rw [if_neg hdue]
    exact expired hstays

theorem answerSeated (h : world.Reigns config now slot master) (other : SlotId)
    (refusal : Wire.Status) (answer : Seat → Room → UInt8 → Answer) :
    (world.answerSeated config now other refusal answer).1.Reigns config now slot master := by
  rcases world.answerSeated_cases config now other refusal answer with hsame | ⟨id, room, hroom,
    helected⟩
  · rw [hsame]
    exact h
  · rw [helected]
    exact h.elect (room?_mem hroom)

theorem settle (h : world.Reigns config now slot master) (other : SlotId)
    {attempt : World → World × Bool} (hattempt : (attempt world).1.Reigns config now slot master)
    (refusal : Wire.Status) (answer : Seat → Room → UInt8 → Answer) :
    (world.settle config now other attempt refusal answer).1.Reigns config now slot master := by
  rw [World.settle]
  split
  · exact h.answerSeated other refusal answer
  · exact hattempt.answerSeated other refusal answer

theorem members (h : world.Reigns config now slot master) {peer : SocketAddress}
    {credentials : Wire.Credentials} {serve : World → World × Answer}
    (members : ForMembers config now peer credentials serve) :
    (serve world).1.Reigns config now slot master := by
  cases members with
  | dropped => exact h
  | @answered seat answer _ _ =>
      change (world.answerMember now peer credentials seat answer).1.Reigns config now slot master
      cases hfound : world.lobby.findByCredentials credentials with
      | none =>
          rw [answerMember_of_eq_none hfound]
          exact h
      | some session =>
          rw [answerMember_of_eq_some hfound]
          exact h.touch session.slot peer

/-- A request after which the master still sits somewhere was not its farewell. -/
theorem serve (h : world.Reigns config now slot master) (peer : SocketAddress) (request : Request)
    (hstays : (world.serve config now peer request).1.lobby.seat? slot ≠ none) :
    (world.serve config now peer request).1.Reigns config now slot master := by
  cases request with
  | ping ping =>
      change (world.servePing now peer ping).1.Reigns config now slot master
      cases hfound : world.lobby.findByCredentials ping.credentials with
      | none =>
          rw [servePing_of_eq_none hfound]
          exact h
      | some session =>
          rw [servePing_of_eq_some hfound]
          exact h.touch session.slot peer
  | login login =>
      change (world.serveLogin now peer login).1.Reigns config now slot master
      rcases serveLogin_cases world now peer login with ⟨other, -, hserved⟩ | ⟨-, -, hserved⟩ |
        ⟨-, hserved⟩
      · rw [hserved]
        exact h.touch other peer
      · rw [hserved]
        exact h.openSession login.device peer
      · rw [hserved]
        exact h
  | logout logout =>
      change (world.serveLogout config logout).1.lobby.seat? slot ≠ none at hstays
      change (world.serveLogout config logout).1.Reigns config now slot master
      rcases world.serveLogout_cases config logout with hserved | hserved | ⟨session, -, hserved⟩
      · rw [hserved]
        exact h
      · rw [hserved]
        exact h
      · rw [hserved] at hstays ⊢
        refine h.remove ?_
        intro heq
        exact hstays (by simp [Lobby.seat?, get?_remove, heq])
  | create create =>
      change (world.serveCreate config now peer create).1.Reigns config now slot master
      cases hfound : world.lobby.findByToken create.token create.slot with
      | none =>
          rw [serveCreate_of_eq_none hfound]
          exact h
      | some session =>
          rw [serveCreate_of_eq_some hfound]
          have touched := h.touch session.slot peer
          exact touched.settle session.slot (touched.create session.slot create.terms) _ _
  | join join =>
      change (world.serveJoin config now peer join).1.Reigns config now slot master
      cases hfound : world.lobby.findByToken join.token join.slot with
      | none =>
          rw [serveJoin_of_eq_none hfound]
          exact h
      | some session =>
          rw [serveJoin_of_eq_some hfound]
          have touched := h.touch session.slot peer
          exact touched.settle session.slot (touched.matchmake session.slot join.ranges) _ _
  | leave leave =>
      change (world.serveLeave now peer leave).1.lobby.seat? slot ≠ none at hstays
      change (world.serveLeave now peer leave).1.Reigns config now slot master
      cases hfound : world.lobby.findByCredentials leave.credentials with
      | none =>
          rw [serveLeave_of_eq_none hfound]
          exact h
      | some session =>
          rw [serveLeave_of_eq_some hfound] at hstays ⊢
          refine (h.touch session.slot peer).leave ?_
          rintro rfl
          exact hstays (seat?_leave _ _)
  | unreliable header => exact h.members (forMembers_serveUnreliable config now peer header)
  | reliable header => exact h.members (forMembers_serveReliable config now peer header)
  | relied relied => exact h.members (forMembers_serveRelied config now peer relied)

/-- A master that is live at an event and still sits somewhere afterwards reigns on. -/
theorem handle {event : Event} (h : world.Reigns config event.now slot master)
    (hstays : (world.handle config event).lobby.seat? slot ≠ none) :
    (world.handle config event).Reigns config event.now slot master := by
  cases event with
  | datagram now peer scratch =>
      simp only [World.handle, world_dispatch, receive] at hstays ⊢
      cases hdecode : Request.decode scratch.datagram with
      | error fault => exact h
      | ok request =>
          rw [hdecode] at hstays
          exact h.serve peer request hstays
  | sweep now sweeper =>
      refine h.tick sweeper fun hgone => hstays ?_
      change ((sweeper.tick config world now).world.lobby.get? slot).bind Session.seat = none
      exact (congrArg (·.bind Session.seat) hgone).trans rfl

end Reigns

/-- A master that is live at every event of a run, and has a seat after each, rules to the end. -/
theorem Rules.run {config : Config} {world : World} {slot : SlotId} {master : Session}
    (h : world.Rules config slot master) (events : List Event)
    (hstays : ∀ early, early <+: events → (world.run config early).lobby.seat? slot ≠ none)
    (hlive : ∀ early event, early ++ [event] <+: events →
      (world.run config early).lobby.isLive event.now config.masterTimeout slot = true) :
    (world.run config events).Rules config slot master := by
  induction events generalizing world with
  | nil => exact h
  | cons event rest ih =>
      have reigns : world.Reigns config event.now slot master :=
        ⟨h, hlive [] event (List.cons_prefix_cons.mpr ⟨rfl, List.nil_prefix⟩)⟩
      have hseated : (world.handle config event).lobby.seat? slot ≠ none :=
        hstays [event] (List.cons_prefix_cons.mpr ⟨rfl, List.nil_prefix⟩)
      refine ih (reigns.handle hseated).toRules ?_ ?_
      · intro early hbegins
        exact hstays (event :: early) (List.cons_prefix_cons.mpr ⟨rfl, hbegins⟩)
      · intro early next hbegins
        exact hlive (event :: early) next (List.cons_prefix_cons.mpr ⟨rfl, hbegins⟩)

/-- A live master is never displaced. Take a master of a room and a run throughout which its slot
keeps a seat in the room. If at every event the master is live by the clock of the event, it is
still the master after any part of the run, in its old seat, and nobody else in the room is. -/
theorem live_master_of_run {config : Config} {world : World} (h : Reachable config world)
    {slot : SlotId} {master : Session} {id : RoomId} (hget : world.lobby.get? slot = some master)
    (hmaster : master.isMaster = true) (hroom : master.room? = some id) (events : List Event)
    (hstays : ∀ early, early <+: events → ∃ session,
      (world.run config early).lobby.get? slot = some session ∧ session.room? = some id)
    (hlive : ∀ early event, early ++ [event] <+: events → ∀ session,
      (world.run config early).lobby.get? slot = some session →
        session.idle event.now < config.masterTimeout) :
    ∀ early, early <+: events →
      let after := world.run config early
      (∃ session, after.lobby.get? slot = some session ∧ session.token = master.token ∧
        session.seat = master.seat ∧ session.isMaster = true) ∧
      ∀ other session, after.lobby.get? other = some session → other ≠ slot →
        session.room? = some id → session.isMaster = false := by
  intro early hearly after
  have rules : world.Rules config slot master :=
    ⟨.of_reachable h, .of_reachable h, master, hget, rfl, rfl, hmaster⟩
  have rules' : after.Rules config slot master := by
    refine rules.run early ?_ ?_
    · intro first hfirst
      obtain ⟨session, hsession, hinside⟩ := hstays first (hfirst.trans hearly)
      obtain ⟨index, hseat⟩ := Session.room?_eq_some_iff.mp hinside
      rw [Lobby.seat?_of_get? hsession, hseat]
      exact Option.some_ne_none _
    · intro first event hfirst
      have hbegins := hfirst.trans hearly
      obtain ⟨session, hsession, -⟩ :=
        hstays first ((List.prefix_append first [event]).trans hbegins)
      simpa [Lobby.isLive, hsession] using hlive first event hbegins session hsession
  obtain ⟨session, hsession, htoken, hseat, hmarked⟩ := rules'.record
  refine ⟨⟨session, hsession, htoken, hseat, hmarked⟩, ?_⟩
  intro other found hfound hne hinside
  have hinside' : session.room? = some id := by
    rw [Session.room?, hseat]
    exact hroom
  exact Bool.eq_false_iff.mpr fun hmarked' =>
    hne (rules'.mastery.unique hfound hmarked' hinside hsession hmarked hinside')

/-- A second device joins the room of the first one, and a sweep comes just in time. -/
theorem live_master_beside_newcomer :
    let create := Wire.Create.record.bytes
      ⟨654988, 0, 60, Vector.replicate _ 1, Vector.replicate _ 2⟩
    let join := Wire.Join.record.bytes ⟨654989, 1, Vector.replicate _ ⟨0, 9⟩⟩
    let world := (ofConfig .small).run .small
      [smallLogin 7, .datagram 0 smallPeer ⟨.empty, create⟩]
    let events :=
      [smallLogin 8, .datagram 1 smallPeer ⟨.empty, join⟩, .sweep 4999 .fresh]
    let after := world.run .small events
    let master : Session :=
      { slot := ⟨0⟩, device := Vector.replicate _ 7, token := ⟨654988, by decide⟩
        peer := smallPeer, lastActive := 0, seat := some ⟨⟨0⟩, ⟨0⟩⟩, flags := Wire.masterFlag }
    Reachable .small world ∧ world.lobby.get? ⟨0⟩ = some master ∧ master.isMaster = true ∧
      (∃ session, after.lobby.get? ⟨0⟩ = some session ∧ session.isMaster = true) ∧
      ∃ session, after.lobby.get? ⟨1⟩ = some session ∧ session.room? = some ⟨0⟩ ∧
        session.isMaster = false := by
  intro create join world events after master
  have hreachable : Reachable .small world := ⟨_, rfl⟩
  have hmaster : master.isMaster = true := by decide
  have hstays : ∀ n < 4, (world.run .small (events.take n)).lobby.get? ⟨0⟩ = some master := by
    decide +kernel
  have hbegins : ∀ early, early <+: events →
      (world.run .small early).lobby.get? ⟨0⟩ = some master := by
    intro early hearly
    rw [List.prefix_iff_eq_take.mp hearly]
    exact hstays _ (Nat.lt_succ_of_le hearly.length_le)
  have hreadings : ∀ event ∈ events, master.idle event.now < Config.small.masterTimeout := by
    simp only [events, List.forall_mem_cons]
    decide
  have hget : world.lobby.get? ⟨0⟩ = some master := hstays 0 (by decide)
  obtain ⟨⟨session, hsession, -, -, hmarked⟩, hothers⟩ :=
    live_master_of_run hreachable hget hmaster rfl events
      (fun early hearly => ⟨master, hbegins early hearly, rfl⟩)
      (fun early event hearly session hsession => by
        rw [hbegins early ((List.prefix_append early [event]).trans hearly)] at hsession
        cases hsession
        exact hreadings event (hearly.subset (by simp)))
      events (List.prefix_refl events)
  have hjoined : ∃ newcomer, after.lobby.get? ⟨1⟩ = some newcomer ∧
      newcomer.room? = some ⟨0⟩ := by
    have hroom : (after.lobby.get? ⟨1⟩).bind Session.room? = some ⟨0⟩ := by decide +kernel
    exact Option.bind_eq_some_iff.mp hroom
  obtain ⟨newcomer, hnewcomer, hroom⟩ := hjoined
  exact ⟨hreachable, hget, hmaster, ⟨session, hsession, hmarked⟩, newcomer, hnewcomer, hroom,
    hothers ⟨1⟩ newcomer hnewcomer (by decide) hroom⟩

end World

end RoomRelay
