import RoomRelay.Proofs.Checked.World
import RoomRelay.Proofs.Elections
import RoomRelay.Proofs.Membership.Cells
import RoomRelay.Proofs.Turn

/-!
# What a sweep does

A sweep closes the sessions that have been silent for longer than the timeout and then, if the last
election is long enough ago, holds one in every room that still has members. The tables are changed
while they are gone through, one session and one room after another, but the result is that of
looking at the tables once: the slots, the cells and the marks that a sweep leaves behind are told by
those that it finds.
-/

namespace RoomRelay

/-- A session that has not been silent for longer than a timeout. -/
def Session.isPrompt (session : Session) (now : Instant) (timeout : Nat) : Bool :=
  session.idle now ≤ timeout

theorem Session.not_isPrompt (session : Session) (now : Instant) (timeout : Nat) :
    (!session.isPrompt now timeout) = decide (timeout < session.idle now) := by
  rw [isPrompt, ← decide_not]
  exact decide_eq_decide.mpr Nat.not_le

namespace Lobby

variable {lobby : Lobby} {now : Instant} {timeout : Nat} {slot : SlotId}

/-- A slot is overdue if there is a session in it that is not prompt. -/
theorem isOverdue_eq (lobby : Lobby) (now : Instant) (timeout : Nat) (slot : SlotId) :
    lobby.isOverdue now timeout slot = (lobby.get? slot).any (!·.isPrompt now timeout) := by
  rw [isOverdue]
  cases lobby.get? slot with
  | none => rfl
  | some session => exact (session.not_isPrompt now timeout).symm

theorem filter_isPrompt_of_isOverdue (h : lobby.isOverdue now timeout slot = true) :
    (lobby.get? slot).filter (·.isPrompt now timeout) = none := by
  rw [isOverdue_eq] at h
  cases hget : lobby.get? slot with
  | none => rfl
  | some session =>
      rw [hget] at h
      simpa using h

theorem filter_isPrompt_of_not_isOverdue (h : ¬ lobby.isOverdue now timeout slot = true) :
    (lobby.get? slot).filter (·.isPrompt now timeout) = lobby.get? slot := by
  rw [isOverdue_eq] at h
  cases hget : lobby.get? slot with
  | none => rfl
  | some session =>
      rw [hget] at h
      simpa using h

end Lobby

namespace World

variable {config : Config} {world : World}

/-- Of the slots that are gone through, those stay taken whose sessions are prompt. -/
theorem get?_expireSlots_eq (world : World) (now : Instant) (timeout : Nat) (slots : List SlotId)
    (slot : SlotId) :
    (world.expireSlots now timeout slots).1.lobby.get? slot =
      if slot ∈ slots then (world.lobby.get? slot).filter (·.isPrompt now timeout)
      else world.lobby.get? slot := by
  induction slots generalizing world with
  | nil => simp [expireSlots]
  | cons first rest ih =>
      rw [expireSlots]
      split
      · next hoverdue =>
        refine (ih (world.remove first).1).trans ?_
        rw [get?_remove]
        by_cases heq : first = slot
        · subst heq
          simp [Lobby.filter_isPrompt_of_isOverdue hoverdue]
        · simp [heq, Ne.symm heq]
      · next hprompt =>
        rw [ih]
        by_cases heq : slot = first
        · subst heq
          simp [Lobby.filter_isPrompt_of_not_isOverdue hprompt]
        · simp [heq]

/-- Every slot is gone through. -/
theorem Consistent.get?_expireIdle (h : world.Consistent config) (now : Instant) (timeout : Nat)
    (slot : SlotId) :
    (world.expireIdle now timeout).1.lobby.get? slot =
      (world.lobby.get? slot).filter (·.isPrompt now timeout) := by
  rw [expireIdle, get?_expireSlots_eq]
  split
  · rfl
  · next hmem =>
    cases hget : world.lobby.get? slot with
    | none => rfl
    | some session =>
        have hlt : slot.position < world.lobby.capacity :=
          h.lobby.capacity_eq ▸ h.lobby.position_lt hget
        exact absurd (List.mem_filterMap.mpr
          ⟨slot.position, List.mem_range.mpr hlt, SlotId.ofPosition?_position slot⟩) hmem

/-- As many sessions are counted as are closed. -/
theorem Consistent.live_expireSlots (h : world.Consistent config) (now : Instant) (timeout : Nat)
    (slots : List SlotId) :
    (world.expireSlots now timeout slots).1.lobby.live +
      (world.expireSlots now timeout slots).2 = world.lobby.live := by
  induction slots generalizing world with
  | nil => rfl
  | cons first rest ih =>
      rw [expireSlots]
      split
      · next hoverdue =>
        rw [Lobby.isOverdue_eq] at hoverdue
        cases hget : world.lobby.get? first with
        | none =>
            rw [hget] at hoverdue
            cases hoverdue
        | some session =>
            have hremoved := h.live_remove hget
            have hrest := ih (h.remove first)
            dsimp only
            omega
      · exact ih h

theorem Consistent.expireIdle (h : world.Consistent config) (now : Instant) (timeout : Nat) :
    (world.expireIdle now timeout).1.Consistent config :=
  h.act (.expireIdle now timeout)

/-- Closing sessions leaves in the slots those that are prompt. -/
theorem Consistent.slots_expireIdle (h : world.Consistent config) (now : Instant) (timeout : Nat) :
    (world.expireIdle now timeout).1.lobby.slots =
      world.lobby.slots.map (Option.filter (·.isPrompt now timeout)) := by
  have hslots := (h.expireIdle now timeout).lobby.map_slots_eq h.lobby id
    (Option.filter (·.isPrompt now timeout)) rfl (h.get?_expireIdle now timeout)
  rwa [Array.map_id] at hslots

/-- The sessions that are closed are those that are not prompt. -/
theorem Consistent.snd_expireIdle (h : world.Consistent config) (now : Instant) (timeout : Nat) :
    (world.expireIdle now timeout).2 =
      world.lobby.slots.countP (Option.any (!·.isPrompt now timeout)) := by
  have hlive : (world.expireIdle now timeout).1.lobby.live +
      (world.expireIdle now timeout).2 = world.lobby.live :=
    h.live_expireSlots now timeout _
  have hkept : (world.expireIdle now timeout).1.lobby.live =
      world.lobby.slots.countP (Option.any (·.isPrompt now timeout)) := by
    rw [(h.expireIdle now timeout).lobby.live_eq, h.slots_expireIdle, Array.countP_map]
    exact congrArg (world.lobby.slots.countP ·) (funext fun cell => Option.isSome_filter)
  have hcount := countP_any_add world.lobby.slots (·.isPrompt now timeout)
  rw [← h.lobby.live_eq, ← hkept] at hcount
  omega

/-- Closing sessions frees their cells. -/
theorem Consistent.rooms_expireIdle (h : world.Consistent config) (now : Instant) (timeout : Nat) :
    (world.expireIdle now timeout).1.rooms.rooms =
      world.rooms.rooms.map (·.retain fun slot => !world.lobby.isOverdue now timeout slot) := by
  have h' := h.expireIdle now timeout
  have hseat : ∀ slot, (world.expireIdle now timeout).1.lobby.seat? slot =
      if !world.lobby.isOverdue now timeout slot then world.lobby.seat? slot else none := by
    intro slot
    rw [Lobby.seat?, h.get?_expireIdle, Lobby.isOverdue_eq, Lobby.seat?]
    cases world.lobby.get? slot with
    | none => rfl
    | some session => cases hprompt : session.isPrompt now timeout <;> simp [Option.filter, hprompt]
  have hsize : (world.expireIdle now timeout).1.rooms.rooms.size = world.rooms.rooms.size :=
    h'.size_eq.trans h.size_eq.symm
  apply Array.ext (by rw [Array.size_map, hsize])
  intro position hlt hlt'
  rw [Array.size_map] at hlt'
  obtain ⟨id, hid, hroom⟩ := h.exists_id (Array.getElem?_eq_getElem hlt')
  subst hid
  have hroom' : (world.expireIdle now timeout).1.rooms.room? id = some _ :=
    Array.getElem?_eq_getElem hlt
  have hterms := keepsTerms_expireSlots world now timeout
    ((List.range world.lobby.capacity).filterMap SlotId.ofPosition?) id _ hroom'
  obtain ⟨room, hsame, hsince, hterms, -⟩ := hterms
  obtain rfl := Option.some.inj (hroom.symm.trans hsame)
  rw [Array.getElem_map]
  exact Room.eq_retain ((h'.room_id hroom').trans (h.room_id hroom).symm)
    (h'.room hroom').memberCount_eq (h.cells_eq_map_filter h' hroom hroom' _ hseat) hsince hterms

theorem Consistent.electAll (h : world.Consistent config) (now : Instant) (timeout : Nat) :
    (world.electAll now timeout).1.Consistent config :=
  h.act (.electAll now timeout)

/-- Elections change nothing about the sessions but their marks. -/
theorem Consistent.unmarked_electAll (h : world.Consistent config) (now : Instant)
    (timeout : Nat) :
    (world.electAll now timeout).1.lobby.slots.map (Option.map (·.setMaster false)) =
      world.lobby.slots.map (Option.map (·.setMaster false)) := by
  refine (h.electAll now timeout).lobby.map_slots_eq h.lobby _ _ rfl fun slot => ?_
  rw [h.get?_electAll]
  cases world.lobby.get? slot with
  | none => rfl
  | some session =>
      simp only [Option.map_some]
      cases session.room?.bind world.rooms.room? with
      | none => rfl
      | some room => rw [Session.setMaster_setMaster]

theorem isLive_electAll (world : World) (now : Instant) (timeout : Nat) :
    (world.electAll now timeout).1.lobby.isLive now timeout =
      world.lobby.isLive now timeout := by
  show (world.lobby.electEach world.rooms.active now timeout).isLive now timeout = _
  generalize world.rooms.active = rooms
  induction rooms generalizing world with
  | nil => rfl
  | cons room rest ih =>
      exact (ih (world.elect room now timeout).1).trans (world.lobby.isLive_elect room now timeout)

end World

/-- Whether a sweep is to hold an election: none was held yet, or the last one is as long ago as
elections, and sweeps, are to be apart. -/
def Sweeper.Due (sweeper : Sweeper) (config : Config) (now : Instant) : Prop :=
  sweeper.lastElection = none ∨ ∃ last, sweeper.lastElection = some last ∧
    max config.electionSpacing config.sweepInterval ≤ now.since last

theorem Sweeper.isElectionDue_iff {sweeper : Sweeper} {config : Config} {now : Instant} :
    sweeper.isElectionDue config now = true ↔ sweeper.Due config now := by
  rw [isElectionDue, Due]
  cases sweeper.lastElection with
  | none => simp
  | some last => simp [Config.electionInterval]

section Tick

variable {sweeper : Sweeper} {config : Config} {now : Instant}

theorem Sweeper.tick_of_due (h : sweeper.Due config now) (world : World) :
    let expired := world.expireIdle now config.sessionTimeout
    let held := expired.1.electAll now config.masterTimeout
    sweeper.tick config world now = ⟨⟨some now⟩, held.1, ⟨expired.2, held.2⟩⟩ := by
  intro expired held
  rw [tick]
  exact if_pos (isElectionDue_iff.mpr h)

theorem Sweeper.tick_of_not_due (h : ¬ sweeper.Due config now) (world : World) :
    let expired := world.expireIdle now config.sessionTimeout
    sweeper.tick config world now = ⟨sweeper, expired.1, ⟨expired.2, 0⟩⟩ := by
  intro expired
  rw [tick]
  exact if_neg fun hdue => h (isElectionDue_iff.mp hdue)

end Tick

/-- What is left behind by a sweep that holds an election. -/
structure Sweep.Elected (config : Config) (now : Instant) (sweep : Sweep) : Prop where
  /-- The rooms that still have members are counted. -/
  count : sweep.outcome.electedRooms = sweep.world.rooms.rooms.countP (0 < ·.memberCount)
  /-- A room with a live member has one master, which is live. -/
  ruled : ∀ room ∈ sweep.world.rooms.rooms,
    (∃ slot ∈ room.slots, sweep.world.lobby.isLive now config.masterTimeout slot = true) →
      ∃ master, room.slots.filter sweep.world.lobby.isMarked = [master] ∧
        sweep.world.lobby.isLive now config.masterTimeout master = true
  /-- Every other room has none. -/
  unruled : ∀ room ∈ sweep.world.rooms.rooms,
    (¬ ∃ slot ∈ room.slots, sweep.world.lobby.isLive now config.masterTimeout slot = true) →
      room.slots.filter sweep.world.lobby.isMarked = []
  recorded : sweep.sweeper.lastElection = some now

/-- What a sweep makes of a world. -/
structure Swept (config : Config) (sweeper : Sweeper) (now : Instant) (world : World)
    (sweep : Sweep) : Prop where
  tokens : sweep.world.tokens = world.tokens
  /-- Each slot holds what it held, but for the mark, or nothing if that was silent for too long. -/
  sessions : sweep.world.lobby.slots.map (Option.map (·.setMaster false)) =
    world.lobby.slots.map fun cell =>
      (cell.filter (·.idle now ≤ config.sessionTimeout)).map (·.setMaster false)
  live : sweep.world.lobby.live =
    world.lobby.slots.countP (Option.any (·.idle now ≤ config.sessionTimeout))
  /-- Each room is what it was without the members that were silent for too long. -/
  rooms : sweep.world.rooms.rooms = world.rooms.rooms.map
    (·.retain fun slot => !world.lobby.isOverdue now config.sessionTimeout slot)
  expired : sweep.outcome.expired =
    world.lobby.slots.countP (Option.any (config.sessionTimeout < ·.idle now))
  elected : sweeper.Due config now → sweep.Elected config now
  /-- A sweep that holds no election marks nobody and forgets nothing. -/
  unelected : ¬ sweeper.Due config now →
    sweep.outcome.electedRooms = 0 ∧ sweep.sweeper = sweeper ∧
      sweep.world.lobby.slots =
        world.lobby.slots.map (Option.filter (·.idle now ≤ config.sessionTimeout))

namespace World

variable {config : Config} {world : World}

/-- An election in every room elects whom it should. -/
theorem Consistent.elected_electAll (h : world.Consistent config) (now : Instant) (expired : Nat) :
    let held := world.electAll now config.masterTimeout
    Sweep.Elected config now ⟨⟨some now⟩, held.1, ⟨expired, held.2⟩⟩ := by
  intro held
  have winner : ∀ room ∈ held.1.rooms.rooms,
      room.slots.filter held.1.lobby.isMarked =
        (world.lobby.winner room.slots now config.masterTimeout).toList := by
    intro room hmem
    obtain ⟨position, hposition⟩ := Array.mem_iff_getElem?.mp hmem
    obtain ⟨id, -, hroom⟩ := h.exists_id hposition
    exact h.filter_isMarked_electAll hroom now config.masterTimeout
  have live : held.1.lobby.isLive now config.masterTimeout =
      world.lobby.isLive now config.masterTimeout :=
    world.isLive_electAll now config.masterTimeout
  constructor
  · show world.rooms.active.length = _
    rw [RoomTable.active, ← List.countP_eq_length_filter, Array.countP_toList]
    refine congrArg (world.rooms.rooms.countP ·) (funext fun room => ?_)
    rw [Room.isEmpty, Bool.eq_iff_iff]
    simp [Nat.pos_iff_ne_zero]
  · rintro room hmem ⟨slot, hslot, hlive⟩
    dsimp only at hlive ⊢
    rw [live] at hlive ⊢
    rw [winner room hmem]
    cases hwinner : world.lobby.winner room.slots now config.masterTimeout with
    | none =>
        have hnone := List.find?_eq_none.mp (Lobby.find?_isLive_of_winner hwinner) slot hslot
        exact absurd hlive hnone
    | some master => exact ⟨master, rfl, (Lobby.of_winner_eq_some hwinner).2⟩
  · intro room hmem hnobody
    dsimp only at hnobody ⊢
    rw [live] at hnobody
    rw [winner room hmem]
    cases hwinner : world.lobby.winner room.slots now config.masterTimeout with
    | none => rfl
    | some master => exact absurd ⟨master, Lobby.of_winner_eq_some hwinner⟩ hnobody
  · rfl

/-- As many sessions are live as are left in the slots. -/
theorem Consistent.live_of_slots {after : World} (h : after.Consistent config) {now : Instant}
    {timeout : Nat} {slots : Array (Option Session)}
    (hslots : after.lobby.slots.map (Option.map (·.setMaster false)) =
      slots.map fun cell => (cell.filter (·.idle now ≤ timeout)).map (·.setMaster false)) :
    after.lobby.live = slots.countP (Option.any (·.idle now ≤ timeout)) := by
  have hcount := congrArg (Array.countP Option.isSome) hslots
  simp only [Array.countP_map, Function.comp_def, Option.isSome_map, Option.isSome_filter] at hcount
  exact h.lobby.live_eq.trans hcount

/-- A sweep does what it should in every consistent world. -/
theorem Consistent.swept_tick (h : world.Consistent config) (sweeper : Sweeper) (now : Instant) :
    Swept config sweeper now world (sweeper.tick config world now) := by
  let expired := world.expireIdle now config.sessionTimeout
  have hexpired : expired.1.Consistent config := h.expireIdle now config.sessionTimeout
  have htokens : expired.1.tokens = world.tokens :=
    (Shrinks.moves (moves_expireSlots world now config.sessionTimeout _)).tokens
  have hslots : expired.1.lobby.slots =
      world.lobby.slots.map (Option.filter (·.idle now ≤ config.sessionTimeout)) :=
    h.slots_expireIdle now config.sessionTimeout
  have hunmarked : expired.1.lobby.slots.map (Option.map (·.setMaster false)) =
      world.lobby.slots.map fun cell =>
        (cell.filter (·.idle now ≤ config.sessionTimeout)).map (·.setMaster false) := by
    rw [hslots, Array.map_map]
    rfl
  have hrooms := h.rooms_expireIdle now config.sessionTimeout
  have hcount : expired.2 =
      world.lobby.slots.countP (Option.any (config.sessionTimeout < ·.idle now)) := by
    simp only [← Session.not_isPrompt]
    exact h.snd_expireIdle now config.sessionTimeout
  by_cases hdue : sweeper.Due config now
  · have hmarks := (hexpired.unmarked_electAll now config.masterTimeout).trans hunmarked
    rw [Sweeper.tick_of_due hdue]
    exact
      { tokens := htokens
        sessions := hmarks
        live := (hexpired.electAll now config.masterTimeout).live_of_slots hmarks
        rooms := hrooms
        expired := hcount
        elected := fun _ => hexpired.elected_electAll now expired.2
        unelected := fun hnot => absurd hdue hnot }
  · rw [Sweeper.tick_of_not_due hdue]
    exact
      { tokens := htokens
        sessions := hunmarked
        live := hexpired.live_of_slots hunmarked
        rooms := hrooms
        expired := hcount
        elected := fun h => absurd h hdue
        unelected := fun _ => ⟨rfl, rfl, hslots⟩ }

/-- A sweep does what it should whatever was done to the server before and in whatever order,
whatever its settings, whatever the last election was, and whatever the clock reads. -/
theorem swept_of_perform (config : Config) (actions : List Action) (sweeper : Sweeper)
    (now : Instant) :
    let world := (ofConfig config).perform config actions
    Swept config sweeper now world (sweeper.tick config world now) :=
  ((Consistent.ofConfig config).perform actions).swept_tick sweeper now

end World

end RoomRelay
