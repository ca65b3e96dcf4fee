import RoomRelay.Proofs.Roster

/-!
# Masters

A master is marked in its own record, while the room that it rules is known by its seat. Marks are
in order if every marked session is seated, no two of them sit in the same room, and no other flag
is ever set. Whoever leaves a seat, in whatever way, loses the mark, and whoever sits down has none,
so only elections give marks away; an election leaves one marked member in its room at most.
-/

namespace RoomRelay

/-- Marking a session leaves the other flags alone. -/
theorem Session.otherFlags_setMaster (session : Session) (master : Bool) :
    (session.setMaster master).flags &&& ~~~Wire.masterFlag =
      session.flags &&& ~~~Wire.masterFlag := by
  have marked : ∀ bits : BitVec 8, (bits ||| 1#8) &&& ~~~1#8 = bits &&& ~~~1#8 := by decide
  have cleared : ∀ bits : BitVec 8, bits &&& ~~~1#8 &&& ~~~1#8 = bits &&& ~~~1#8 := by decide
  cases master with
  | false => exact UInt8.toBitVec_inj.mp (cleared session.flags.toBitVec)
  | true => exact UInt8.toBitVec_inj.mp (marked session.flags.toBitVec)

theorem Lobby.isMarked_eq_true_iff {lobby : Lobby} {slot : SlotId} :
    lobby.isMarked slot = true ↔
      ∃ session, lobby.get? slot = some session ∧ session.isMaster = true := by
  rw [isMarked]
  cases lobby.get? slot <;> simp

namespace World

/-- Whether marks are in order. -/
structure Mastery (world : World) : Prop where
  seated : ∀ {slot : SlotId} {session : Session}, world.lobby.get? slot = some session →
    session.isMaster = true → session.seat ≠ none
  unique : ∀ {slot slot' : SlotId} {session session' : Session} {id : RoomId},
    world.lobby.get? slot = some session → session.isMaster = true → session.room? = some id →
      world.lobby.get? slot' = some session' → session'.isMaster = true →
        session'.room? = some id → slot = slot'
  flags : ∀ {slot : SlotId} {session : Session}, world.lobby.get? slot = some session →
    session.flags &&& ~~~Wire.masterFlag = 0

namespace Mastery

variable {config : Config} {world : World}

theorem ofConfig (config : Config) : (World.ofConfig config).Mastery := by
  have hfree : ∀ slot, (World.ofConfig config).lobby.get? slot = none := by
    intro slot
    simp only [World.ofConfig, Lobby.ofCapacity, Lobby.get?, Array.getElem?_replicate]
    split <;> rfl
  constructor <;> simp [hfree]

/-- Marks stay in order where nobody is marked anew and whoever stays marked stays seated. -/
theorem of_get? (h : world.Mastery) {after : World}
    (hflags : ∀ {slot session}, after.lobby.get? slot = some session →
      session.flags &&& ~~~Wire.masterFlag = 0)
    (hmarked : ∀ {slot session}, after.lobby.get? slot = some session →
      session.isMaster = true → ∃ old, world.lobby.get? slot = some old ∧
        old.isMaster = true ∧ old.seat = session.seat) : after.Mastery where
  seated hget hmaster := by
    obtain ⟨old, hold, hold', hseat⟩ := hmarked hget hmaster
    rw [← hseat]
    exact h.seated hold hold'
  unique hget hmaster hroom hget' hmaster' hroom' := by
    obtain ⟨old, hold, hmark, hseat⟩ := hmarked hget hmaster
    obtain ⟨old', hold', hmark', hseat'⟩ := hmarked hget' hmaster'
    rw [Session.room?, ← hseat] at hroom
    rw [Session.room?, ← hseat'] at hroom'
    exact h.unique hold hmark hroom hold' hmark' hroom'
  flags := hflags

/-- Changing one record keeps marks in order if it marks nobody anew and moves no marked session. -/
theorem modify (h : world.Mastery) {slot : SlotId} {change : Session → Session}
    (rooms : RoomTable)
    (hflags : ∀ session, world.lobby.get? slot = some session →
      (change session).flags &&& ~~~Wire.masterFlag = session.flags &&& ~~~Wire.masterFlag)
    (hmarked : ∀ session, world.lobby.get? slot = some session →
      (change session).isMaster = true →
        session.isMaster = true ∧ session.seat = (change session).seat) :
    ({ world with rooms, lobby := world.lobby.modify slot change } : World).Mastery := by
  have hcases : ∀ {other session}, (world.lobby.modify slot change).get? other = some session →
      world.lobby.get? other = some session ∨
        ∃ old, slot = other ∧ world.lobby.get? other = some old ∧ change old = session := by
    intro other session hget
    rw [Lobby.get?_modify] at hget
    split at hget
    · next heq =>
      obtain ⟨old, hold, hchange⟩ := Option.map_eq_some_iff.mp hget
      exact .inr ⟨old, heq, hold, hchange⟩
    · exact .inl hget
  refine h.of_get? ?_ ?_
  · intro other session hget
    rcases hcases hget with hget | ⟨old, rfl, hold, rfl⟩
    · exact h.flags hget
    · rw [hflags old hold, h.flags hold]
  · intro other session hget hmaster
    rcases hcases hget with hget | ⟨old, rfl, hold, rfl⟩
    · exact ⟨session, hget, hmaster, rfl⟩
    · exact ⟨old, hold, hmarked old hold hmaster⟩

theorem touch (h : world.Mastery) (slot : SlotId) (peer : SocketAddress) (now : Instant) :
    (world.touch slot peer now).Mastery :=
  h.modify world.rooms (fun _ _ => rfl) fun _ _ hmaster => ⟨hmaster, rfl⟩

/-- A new session is not marked. -/
theorem allocate (h : world.Mastery) (tokens : TokenIssuer) (device : Wire.Device)
    (peer : SocketAddress) (token : Token) (now : Instant) :
    (({ world with tokens } : World).allocate device peer token now).1.Mastery := by
  simp only [World.allocate]
  cases hslot : (world.lobby.allocate device peer token now).2 with
  | none =>
      rw [Lobby.fst_allocate_of_eq_none hslot]
      exact h.of_get? h.flags fun hget hmaster => ⟨_, hget, hmaster, rfl⟩
  | some slot =>
      have hget := Lobby.get?_allocate hslot
      refine h.of_get? ?_ ?_
      · intro other session hsession
        rw [hget] at hsession
        split at hsession
        · cases hsession
          exact UInt8.zero_and
        · exact h.flags hsession
      · intro other session hsession hmaster
        rw [hget] at hsession
        split at hsession
        · cases hsession
          simp [Session.fresh, Session.isMaster] at hmaster
        · exact ⟨session, hsession, hmaster, rfl⟩

/-- Whoever sits down was not seated, hence not marked. -/
theorem join (h : world.Mastery) (slot : SlotId) (id : RoomId) :
    (world.join slot id).1.Mastery := by
  rcases world.join_cases slot id with hjoin | ⟨session, room, index, room', hget, hseat, -, -,
    hjoin⟩
  · rw [hjoin]
    exact h
  · rw [hjoin]
    refine h.modify _ ?_ ?_
    · intro found hfound
      rw [hget] at hfound
      cases hfound
      rfl
    · intro found _ hmaster
      exact absurd hseat (h.seated hget hmaster)

theorem create (h : world.Mastery) (slot : SlotId) (now : Instant) (terms : Terms) :
    (world.create slot now terms).1.Mastery := by
  rcases world.create_cases slot now terms with hcreate | ⟨session, id, -, -, -, hcreate⟩
  · rw [hcreate]
    exact h
  · have hreopened : (world.reopen id now terms).Mastery := ⟨h.seated, h.unique, h.flags⟩
    rw [hcreate]
    exact hreopened.join slot id

/-- Whoever leaves a seat loses the mark. -/
theorem leave (h : world.Mastery) (slot : SlotId) : (world.leave slot).Mastery := by
  cases hseat : world.lobby.seat? slot with
  | none =>
      rw [world.leave_eq_self slot hseat]
      exact h
  | some seat =>
      obtain ⟨session, hget, hseat⟩ := Lobby.seat?_eq_some_iff.mp hseat
      rw [leave_of_seat hget hseat]
      refine h.modify _ ?_ ?_
      · intro found hfound
        rw [hget] at hfound
        cases hfound
        exact Session.otherFlags_setMaster _ false
      · intro found _ hmaster
        rw [Session.isMaster_setMaster] at hmaster
        cases hmaster

theorem release (h : world.Mastery) (slot : SlotId) : (world.release slot).1.Mastery := by
  have hlive : ∀ {other session}, (world.release slot).1.lobby.get? other = some session →
      world.lobby.get? other = some session := by
    intro other session hget
    rw [World.release, Lobby.get?_release] at hget
    split at hget
    · cases hget
    · exact hget
  exact h.of_get? (fun hget => h.flags (hlive hget)) fun hget hmaster =>
    ⟨_, hlive hget, hmaster, rfl⟩

/-- After an election only the winner is marked in its room, and elsewhere nothing has changed. -/
theorem elect (h : world.Mastery) (hworld : world.Consistent config) {id : RoomId} {room : Room}
    (hroom : world.rooms.room? id = some room) (now : Instant) (timeout : Nat) :
    (world.elect room now timeout).1.Mastery := by
  have hcases : ∀ {slot session}, (world.elect room now timeout).1.lobby.get? slot = some session →
      ∃ old, world.lobby.get? slot = some old ∧
        (old.room? ≠ some id ∧ session = old ∨ old.room? = some id ∧ session =
          old.setMaster (world.lobby.winner room.slots now timeout = some slot)) := by
    intro slot session hsession
    rw [hworld.get?_elect hroom] at hsession
    obtain ⟨old, hold, rfl⟩ := Option.map_eq_some_iff.mp hsession
    refine ⟨old, hold, ?_⟩
    split
    · next hinside => exact .inr ⟨hinside, rfl⟩
    · next houtside => exact .inl ⟨houtside, rfl⟩
  constructor
  · intro slot session hsession hmaster
    obtain ⟨old, hold, ⟨-, rfl⟩ | ⟨hinside, rfl⟩⟩ := hcases hsession
    · exact h.seated hold hmaster
    · obtain ⟨index, hseat⟩ := Session.room?_eq_some_iff.mp hinside
      simp [hseat]
  · intro slot slot' session session' other hsession hmaster hother hsession' hmaster' hother'
    obtain ⟨old, hold, ⟨houtside, rfl⟩ | ⟨hinside, rfl⟩⟩ := hcases hsession
    · obtain ⟨old', hold', ⟨-, rfl⟩ | ⟨hinside', rfl⟩⟩ := hcases hsession'
      · exact h.unique hold hmaster hother hold' hmaster' hother'
      · rw [Session.room?_setMaster, hinside'] at hother'
        exact absurd (hother.trans hother'.symm) houtside
    · obtain ⟨old', hold', ⟨houtside', rfl⟩ | ⟨-, rfl⟩⟩ := hcases hsession'
      · rw [Session.room?_setMaster, hinside] at hother
        exact absurd (hother'.trans hother.symm) houtside'
      · rw [Session.isMaster_setMaster, decide_eq_true_eq] at hmaster hmaster'
        exact Option.some.inj (hmaster.symm.trans hmaster')
  · intro slot session hsession
    obtain ⟨old, hold, ⟨-, rfl⟩ | ⟨-, rfl⟩⟩ := hcases hsession
    · exact h.flags hold
    · rw [Session.otherFlags_setMaster, h.flags hold]

/-- A move keeps marks in order. -/
theorem move (h : world.Mastery) (hworld : world.Consistent config) {after : World}
    (move : Move world after) : after.Mastery := by
  cases move with
  | touch slot peer now => exact h.touch slot peer now
  | create slot now terms => exact h.create slot now terms
  | join slot room => exact h.join slot room
  | leave slot => exact h.leave slot
  | remove slot => exact (h.leave slot).release slot
  | elect now timeout hmem =>
      obtain ⟨position, hposition⟩ := Array.mem_iff_getElem?.mp hmem
      obtain ⟨id, -, hroom⟩ := hworld.exists_id hposition
      exact h.elect hworld hroom now timeout

theorem moves (h : world.Mastery) (hworld : world.Consistent config) {after : World}
    (moves : Moves world after) : after.Mastery := by
  let ordered (world : World) : Prop := world.Consistent config ∧ world.Mastery
  have start : ordered world := ⟨hworld, h⟩
  have step : ∀ {world after}, Move world after → ordered world → ordered after :=
    fun move before => ⟨before.1.move move, before.2.move before.1 move⟩
  exact (moves.keep step start).2

/-- Whatever is done to a server keeps marks in order. -/
theorem act (h : world.Mastery) (hworld : world.Consistent config) (action : Action) :
    (world.act config action).Mastery := by
  rcases world.moves_act config action with made | ⟨tokens, device, peer, token, now, hopened⟩
  · exact h.moves hworld made
  · rw [hopened]
    exact h.allocate tokens device peer token now

theorem perform (h : world.Mastery) (hworld : world.Consistent config) (actions : List Action) :
    (world.perform config actions).Mastery := by
  induction actions generalizing world with
  | nil => exact h
  | cons action rest ih => exact ih (h.act hworld action) (hworld.act action)

/-- Marks are in order in every world that a server comes to. -/
theorem of_reachable (h : Reachable config world) : world.Mastery := by
  let ordered (world : World) : Prop := world.Consistent config ∧ world.Mastery
  have start : ordered (World.ofConfig config) := ⟨.ofConfig config, .ofConfig config⟩
  have step : ∀ world event, ordered world → ordered (world.handle config event) :=
    fun _ event before => ⟨before.1.handle event, before.2.act before.1 (.event event)⟩
  exact (h.invariant start step).2

/-- In a room there is at most one member to be found who is marked. -/
theorem countP_isMarked_le (h : world.Mastery) (hworld : world.Consistent config) {id : RoomId}
    {room : Room} (hroom : world.rooms.room? id = some room) :
    room.slots.countP world.lobby.isMarked ≤ 1 := by
  have hnodup := (hworld.nodup_slots hroom).filter world.lobby.isMarked
  have hmember : ∀ slot ∈ room.slots.filter world.lobby.isMarked, ∃ session,
      world.lobby.get? slot = some session ∧ session.isMaster = true ∧
        session.room? = some id := by
    intro slot hmem
    obtain ⟨hslot, hmarked⟩ := List.mem_filter.mp hmem
    obtain ⟨session, hget, hinside⟩ := (hworld.mem_slots hroom).mp hslot
    obtain ⟨found, hfound, hmaster⟩ := Lobby.isMarked_eq_true_iff.mp hmarked
    rw [hget] at hfound
    cases hfound
    exact ⟨session, hget, hmaster, hinside⟩
  rw [List.countP_eq_length_filter]
  generalize room.slots.filter world.lobby.isMarked = marked at hnodup hmember ⊢
  cases marked with
  | nil => exact Nat.zero_le 1
  | cons first rest =>
      cases rest with
      | nil => exact Nat.le_refl 1
      | cons second rest =>
          obtain ⟨a, ha, hmaster, hinside⟩ := hmember first (by simp)
          obtain ⟨b, hb, hmaster', hinside'⟩ := hmember second (by simp)
          have hsame := h.unique ha hmaster hinside hb hmaster' hinside'
          simp [hsame] at hnodup

end Mastery

/-- Whatever is done to a server in whatever order, and whatever its settings, marks are in order:
every master is seated, no room has two of them, and no other flag is set. -/
theorem mastery_of_perform (config : Config) (actions : List Action) :
    let world := (ofConfig config).perform config actions
    world.Mastery ∧ ∀ id room, world.rooms.room? id = some room →
      room.slots.countP world.lobby.isMarked ≤ 1 := by
  intro world
  have hworld : world.Consistent config := (Consistent.ofConfig config).perform actions
  have hmastery : world.Mastery :=
    (Mastery.ofConfig config).perform (.ofConfig config) actions
  exact ⟨hmastery, fun id room hroom => hmastery.countP_isMarked_le hworld hroom⟩

end World

end RoomRelay
