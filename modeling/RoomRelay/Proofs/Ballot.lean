import RoomRelay.Proofs.Elections
import RoomRelay.Proofs.Mastery
import RoomRelay.Proofs.Placement

/-!
# Whom an election chooses

The choice of an election is told by the seats alone. Of the members of the room that are marked
already, only the first counts: it is chosen if it was heard of lately. Otherwise the first member
that was heard of lately is chosen, and nobody if there is none. The election goes through the
members up to three times and changes marks meanwhile; it comes to this choice whatever the flags of
the members are and however many of them are marked, and it leaves the chosen one marked alone.
-/

namespace RoomRelay

/-- In a list that is ordered by its indices a search finds the entry with the lowest index among
those that it is for. -/
theorem find?_map_snd_eq_some_iff {test : SlotId → Bool} {slot : SlotId}
    {members : List (SeatIndex × SlotId)}
    (hordered : members.Pairwise fun a b => a.1.position < b.1.position) :
    (members.map Prod.snd).find? test = some slot ↔
      ∃ index, (index, slot) ∈ members ∧ test slot = true ∧
        ∀ place other, (place, other) ∈ members → test other = true →
          index.position ≤ place.position := by
  induction members with
  | nil => simp
  | cons first rest ih =>
      obtain ⟨index, found⟩ := first
      obtain ⟨hfirst, hrest⟩ := List.pairwise_cons.mp hordered
      rw [List.map_cons]
      by_cases htest : test found = true
      · rw [List.find?_cons_of_pos htest]
        constructor
        · intro heq
          obtain rfl := Option.some.inj heq
          refine ⟨index, List.mem_cons_self, htest, fun place other hmem _ => ?_⟩
          obtain heq | hmem := List.mem_cons.mp hmem
          · cases heq
            exact Nat.le_refl _
          · exact Nat.le_of_lt (hfirst _ hmem)
        · rintro ⟨place, hmem, -, hlowest⟩
          obtain heq | hmem := List.mem_cons.mp hmem
          · cases heq
            rfl
          · have hle := hlowest index found List.mem_cons_self htest
            exact absurd (hfirst _ hmem) (Nat.not_lt.mpr hle)
      · rw [List.find?_cons_of_neg htest, ih hrest]
        constructor
        · rintro ⟨place, hmem, hslot, hlowest⟩
          refine ⟨place, List.mem_cons_of_mem _ hmem, hslot, fun later other hother hpass => ?_⟩
          obtain heq | hother := List.mem_cons.mp hother
          · cases heq
            exact absurd hpass htest
          · exact hlowest later other hother hpass
        · rintro ⟨place, hmem, hslot, hlowest⟩
          obtain heq | hmem := List.mem_cons.mp hmem
          · cases heq
            exact absurd hslot htest
          · exact ⟨place, hmem, hslot, fun later other hother =>
              hlowest later other (List.mem_cons_of_mem _ hother)⟩

namespace Lobby

variable {lobby : Lobby} {slot : SlotId} {session : Session}

theorem isMarked_of_get? (h : lobby.get? slot = some session) :
    lobby.isMarked slot = session.isMaster := by
  rw [isMarked, h]

theorem isLive_of_get? (h : lobby.get? slot = some session) (now : Instant) (timeout : Nat) :
    lobby.isLive now timeout slot = decide (session.idle now < timeout) := by
  rw [isLive, h]

/-- Whoever is alone in a room is its master afterwards just in case it is live. -/
theorem elect_of_alone {room : Room} {index : SeatIndex}
    (hget : lobby.get? session.slot = some session)
    (halone : room.members = [(index, session.slot)]) (now : Instant) (timeout : Nat) :
    (lobby.elect room now timeout).1 =
      lobby.modify session.slot (·.setMaster (session.idle now < timeout)) := by
  have hlive := isLive_of_get? hget now timeout
  have unchanged : ∀ {master : Bool}, session.isMaster = master →
      lobby.modify session.slot (·.setMaster master) = lobby := by
    intro master hmaster
    apply modify_eq_self
    intro found hfound
    obtain rfl := Option.some.inj (hget.symm.trans hfound)
    exact Session.setMaster_of_isMaster_eq hmaster
  simp only [elect, halone, List.map_cons, List.map_nil, unmarkOthers, isMarked_of_get? hget]
  cases hmaster : session.isMaster with
  | true =>
      -- The master that is found is kept, or loses its mark and is not marked anew.
      by_cases h : session.idle now < timeout
      · simp [hlive, h, unchanged hmaster]
      · simp [promote, hlive, h, isLive_modify_setMaster]
  | false =>
      by_cases h : session.idle now < timeout
      · simp [promote, hlive, h]
      · simp [promote, hlive, h, unchanged hmaster]

end Lobby

namespace World

/-- Whether a session is the one with the lowest index among the members of a room that meet a
condition. -/
def IsFirst (world : World) (id : RoomId) (admits : Session → Prop) (session : Session) : Prop :=
  ∃ index, world.Sits session ⟨id, index⟩ ∧ admits session ∧
    ∀ other place, world.Sits other ⟨id, place⟩ → admits other → index.position ≤ place.position

theorem IsFirst.get? {world : World} {id : RoomId} {admits : Session → Prop} {session : Session}
    (h : world.IsFirst id admits session) : world.lobby.get? session.slot = some session := by
  obtain ⟨_, hsits, -⟩ := h
  exact hsits.1

/-- Whom an election in a room is to choose. -/
inductive Elects (world : World) (id : RoomId) (now : Instant) (timeout : Nat) :
    Option SlotId → Prop
  /-- The first marked member was heard of lately. -/
  | retained {master : Session} (hfirst : world.IsFirst id (·.isMaster = true) master)
      (hlive : master.idle now < timeout) : Elects world id now timeout (some master.slot)
  /-- There is no such member, and this is the first that was heard of lately. -/
  | succeeded {successor : Session}
      (hstale : ∀ master, world.IsFirst id (·.isMaster = true) master → timeout ≤ master.idle now)
      (hfirst : world.IsFirst id (·.idle now < timeout) successor) :
      Elects world id now timeout (some successor.slot)
  /-- No member was heard of lately. -/
  | nobody (hstale : ∀ session index, world.Sits session ⟨id, index⟩ → timeout ≤ session.idle now) :
      Elects world id now timeout none

/-- What an election in a room makes of a world, and what it returns. -/
structure Ballot (world : World) (id : RoomId) (room : Room) (now : Instant) (timeout : Nat)
    (after : World) (result : Option SlotId) : Prop where
  chosen : ∀ choice, world.Elects id now timeout choice ↔ result = choice
  /-- The members that are marked afterwards are the chosen one. -/
  marked : ∀ slot, (∃ session index, session.slot = slot ∧ after.Sits session ⟨id, index⟩ ∧
    session.isMaster = true) ↔ result = some slot
  /-- The slots hold the same sessions, in which nothing has changed but the mark. -/
  sessions :
    after.lobby.slots.map (Option.map fun session =>
        { session with flags := session.flags &&& ~~~Wire.masterFlag }) =
      world.lobby.slots.map (Option.map fun session =>
        { session with flags := session.flags &&& ~~~Wire.masterFlag })
  /-- Who does not sit in the room is left alone. -/
  outside : ∀ {position : Nat} {session : Session},
    world.lobby.slots[position]? = some (some session) → session.room? ≠ some id →
      after.lobby.slots[position]? = some (some session)
  live : after.lobby.live = world.lobby.live
  tokens : after.tokens = world.tokens
  rooms : after.rooms = world.rooms
  /-- Holding the election again returns the same and changes nothing. -/
  again : after.elect room now timeout = (after, result)

namespace Consistent

variable {config : Config} {world : World} {id : RoomId} {room : Room} {now : Instant}
variable {timeout : Nat} {slot : SlotId}

/-- A search among the members finds the first of those that it is for. -/
theorem find?_slots_eq_some_iff (h : world.Consistent config)
    (hroom : world.rooms.room? id = some room) {test : SlotId → Bool} {admits : Session → Prop}
    (htest : ∀ session, world.lobby.get? session.slot = some session →
      (test session.slot = true ↔ admits session)) :
    room.slots.find? test = some slot ↔
      ∃ session, session.slot = slot ∧ world.IsFirst id admits session := by
  have hmem : ∀ {index slot}, (index, slot) ∈ room.members ↔
      ∃ session, session.slot = slot ∧ world.Sits session ⟨id, index⟩ := by
    intro index slot
    rw [Room.mem_members, h.member?_iff hroom, h.seat?_iff_sits]
  rw [Room.slots, find?_map_snd_eq_some_iff room.pairwise_members]
  constructor
  · rintro ⟨index, hfound, hpass, hlowest⟩
    obtain ⟨session, rfl, hsits⟩ := hmem.mp hfound
    refine ⟨session, rfl, index, hsits, (htest session hsits.1).mp hpass, ?_⟩
    intro other place hother hadmits
    exact hlowest place other.slot (hmem.mpr ⟨other, rfl, hother⟩)
      ((htest other hother.1).mpr hadmits)
  · rintro ⟨session, rfl, index, hsits, hadmits, hlowest⟩
    refine ⟨index, hmem.mpr ⟨session, rfl, hsits⟩, (htest session hsits.1).mpr hadmits, ?_⟩
    intro place slot hfound hpass
    obtain ⟨other, rfl, hother⟩ := hmem.mp hfound
    exact hlowest other place hother ((htest other hother.1).mp hpass)

theorem find?_isMarked_eq_some_iff (h : world.Consistent config)
    (hroom : world.rooms.room? id = some room) :
    room.slots.find? world.lobby.isMarked = some slot ↔
      ∃ session, session.slot = slot ∧ world.IsFirst id (·.isMaster = true) session :=
  h.find?_slots_eq_some_iff hroom fun session hget => by rw [Lobby.isMarked_of_get? hget]

theorem find?_isLive_eq_some_iff (h : world.Consistent config)
    (hroom : world.rooms.room? id = some room) :
    room.slots.find? (world.lobby.isLive now timeout) = some slot ↔
      ∃ session, session.slot = slot ∧ world.IsFirst id (·.idle now < timeout) session :=
  h.find?_slots_eq_some_iff hroom fun session hget => by
    rw [Lobby.isLive_of_get? hget, decide_eq_true_iff]

/-- A marked member that comes first and was heard of lately wins. -/
theorem winner_of_isFirst (h : world.Consistent config)
    (hroom : world.rooms.room? id = some room) {master : Session}
    (hfirst : world.IsFirst id (·.isMaster = true) master) (hlive : master.idle now < timeout) :
    world.lobby.winner room.slots now timeout = some master.slot := by
  have hfind := (h.find?_isMarked_eq_some_iff hroom).mpr ⟨master, rfl, hfirst⟩
  rw [Lobby.winner, hfind]
  dsimp only
  rw [Lobby.isLive_of_get? hfirst.get?, if_pos (decide_eq_true hlive)]

/-- Where the first marked member has been silent, or there is none, the first live member wins. -/
theorem winner_of_stale (h : world.Consistent config) (hroom : world.rooms.room? id = some room)
    (hstale : ∀ master, world.IsFirst id (·.isMaster = true) master → timeout ≤ master.idle now) :
    world.lobby.winner room.slots now timeout =
      room.slots.find? (world.lobby.isLive now timeout) := by
  rw [Lobby.winner]
  cases hfind : room.slots.find? world.lobby.isMarked with
  | none => rfl
  | some found =>
      obtain ⟨master, rfl, hfirst⟩ := (h.find?_isMarked_eq_some_iff hroom).mp hfind
      dsimp only
      rw [Lobby.isLive_of_get? hfirst.get?,
        if_neg fun hlive => Nat.not_lt.mpr (hstale master hfirst) (of_decide_eq_true hlive)]

/-- Nobody in a room is live just in case all its members have been silent. -/
theorem find?_isLive_eq_none_iff (h : world.Consistent config)
    (hroom : world.rooms.room? id = some room) :
    room.slots.find? (world.lobby.isLive now timeout) = none ↔
      ∀ session index, world.Sits session ⟨id, index⟩ → timeout ≤ session.idle now := by
  rw [List.find?_eq_none]
  constructor
  · intro hsilent session index hsits
    have hslot := (h.mem_slots hroom).mpr
      ⟨session, hsits.1, Session.room?_eq_some_iff.mpr ⟨index, hsits.2⟩⟩
    simpa [Lobby.isLive_of_get? hsits.1] using hsilent _ hslot
  · intro hsilent slot hslot
    obtain ⟨session, hget, hinside⟩ := (h.mem_slots hroom).mp hslot
    obtain ⟨index, hseat⟩ := Session.room?_eq_some_iff.mp hinside
    obtain rfl := h.lobby.slot_eq hget
    simpa [Lobby.isLive_of_get? hget] using hsilent session index ⟨hget, hseat⟩

/-- The winner is the one that is to be chosen. -/
theorem elects_iff (h : world.Consistent config) (hroom : world.rooms.room? id = some room)
    (choice : Option SlotId) :
    world.Elects id now timeout choice ↔
      world.lobby.winner room.slots now timeout = choice := by
  constructor
  · intro helects
    cases helects with
    | retained hfirst hlive => exact h.winner_of_isFirst hroom hfirst hlive
    | succeeded hstale hfirst =>
        rw [h.winner_of_stale hroom hstale]
        exact (h.find?_isLive_eq_some_iff hroom).mpr ⟨_, rfl, hfirst⟩
    | nobody hsilent =>
        rw [h.winner_of_stale hroom fun master hfirst =>
          hsilent master _ hfirst.choose_spec.1]
        exact (h.find?_isLive_eq_none_iff hroom).mpr hsilent
  · rintro rfl
    by_cases hmaster : ∃ master, world.IsFirst id (·.isMaster = true) master ∧
        master.idle now < timeout
    · obtain ⟨master, hfirst, hlive⟩ := hmaster
      rw [h.winner_of_isFirst hroom hfirst hlive]
      exact .retained hfirst hlive
    · have hstale : ∀ master, world.IsFirst id (·.isMaster = true) master →
          timeout ≤ master.idle now :=
        fun master hfirst => Nat.le_of_not_lt fun hlive => hmaster ⟨master, hfirst, hlive⟩
      rw [h.winner_of_stale hroom hstale]
      cases hfind : room.slots.find? (world.lobby.isLive now timeout) with
      | none => exact .nobody ((h.find?_isLive_eq_none_iff hroom).mp hfind)
      | some found =>
          obtain ⟨successor, rfl, hfirst⟩ := (h.find?_isLive_eq_some_iff hroom).mp hfind
          exact .succeeded hstale hfirst

/-- The winner is marked afterwards, and nobody else in the room. -/
theorem marked_elect_iff (h : world.Consistent config) (hroom : world.rooms.room? id = some room) :
    (∃ session index, session.slot = slot ∧
        (world.elect room now timeout).1.Sits session ⟨id, index⟩ ∧ session.isMaster = true) ↔
      world.lobby.winner room.slots now timeout = some slot := by
  have hget := h.get?_elect hroom now timeout
  constructor
  · rintro ⟨session, index, rfl, ⟨hsession, hseat⟩, hmaster⟩
    rw [hget] at hsession
    obtain ⟨old, -, hmarked⟩ := Option.map_eq_some_iff.mp hsession
    split at hmarked
    · rw [← hmarked, Session.isMaster_setMaster] at hmaster
      exact of_decide_eq_true hmaster
    · next houtside =>
      subst hmarked
      exact absurd (Session.room?_eq_some_iff.mpr ⟨index, hseat⟩) houtside
  · intro hwinner
    obtain ⟨old, hold, hinside⟩ :=
      (h.mem_slots hroom).mp (Lobby.of_winner_eq_some hwinner).1
    obtain ⟨index, hseat⟩ := Session.room?_eq_some_iff.mp hinside
    obtain rfl := h.lobby.slot_eq hold
    refine ⟨old.setMaster true, index, Session.slot_setMaster .., ⟨?_, ?_⟩, ?_⟩
    · rw [Session.slot_setMaster, hget, hold]
      simp [hinside, hwinner]
    · rw [Session.seat_setMaster, hseat]
    · exact Session.isMaster_setMaster ..

/-- An election in a consistent world chooses as it should. -/
theorem ballot_elect (h : world.Consistent config) (hroom : world.rooms.room? id = some room)
    (now : Instant) (timeout : Nat) :
    world.Ballot id room now timeout (world.elect room now timeout).1
      (world.elect room now timeout).2 := by
  have hwinner : (world.elect room now timeout).2 = world.lobby.winner room.slots now timeout :=
    (world.lobby.elect_eq_winner now timeout (h.nodup_slots hroom)).1
  have elected := h.elect room now timeout
  have hget := h.get?_elect hroom now timeout
  constructor
  · intro choice
    rw [h.elects_iff hroom, hwinner]
  · intro slot
    rw [h.marked_elect_iff hroom, hwinner]
  · refine elected.lobby.map_slots_eq h.lobby _ _ rfl fun slot => ?_
    rw [hget]
    cases world.lobby.get? slot with
    | none => rfl
    | some session =>
        refine congrArg some (?_ : Session.setMaster _ false = session.setMaster false)
        dsimp only
        split
        · exact session.setMaster_setMaster _ false
        · rfl
  · intro position session hslots houtside
    obtain rfl := h.lobby.slot_position hslots
    refine Lobby.get?_eq_some_iff.mp ?_
    rw [hget, Lobby.get?_eq_some_iff.mpr hslots]
    simp [houtside]
  · refine elected.lobby.live_eq_of_isSome h.lobby fun slot => ?_
    rw [hget, Option.isSome_map]
  · rfl
  · rfl
  · have hsecond : ((world.elect room now timeout).1.elect room now timeout).2 =
        (world.elect room now timeout).1.lobby.winner room.slots now timeout :=
      (Lobby.elect_eq_winner _ now timeout (h.nodup_slots hroom)).1
    have hrepeated : (world.elect room now timeout).1.lobby.winner room.slots now timeout =
        world.lobby.winner room.slots now timeout := Lobby.winner_elect (h.nodup_slots hroom)
    exact Prod.ext (h.elect_elect hroom now timeout)
      (hsecond.trans (hrepeated.trans hwinner.symm))

/-- Where somebody was just heard of, one member of the room is marked afterwards, unless nobody
ever counts as live. -/
theorem existsUnique_master (h : world.Consistent config)
    (hroom : world.rooms.room? id = some room) {index : SeatIndex} {session : Session}
    (hsits : world.Sits session ⟨id, index⟩) (hheard : session.lastActive = now)
    (htimeout : 0 < timeout) :
    ∃! master : Session, (∃ index, (world.elect room now timeout).1.Sits master ⟨id, index⟩) ∧
      master.isMaster = true := by
  have hlive : session.idle now < timeout := Session.idle_of_lastActive hheard ▸ htimeout
  have hsome : world.lobby.winner room.slots now timeout ≠ none := by
    intro hnone
    have hsilent := (h.find?_isLive_eq_none_iff hroom).mp (Lobby.find?_isLive_of_winner hnone)
    exact absurd hlive (Nat.not_lt.mpr (hsilent session index hsits))
  obtain ⟨slot, hwinner⟩ := Option.ne_none_iff_exists'.mp hsome
  obtain ⟨master, place, rfl, hmaster, hmarked⟩ := (h.marked_elect_iff hroom).mpr hwinner
  refine ⟨master, ⟨⟨place, hmaster⟩, hmarked⟩, ?_⟩
  rintro other ⟨⟨place', hother⟩, hmarked'⟩
  have hwinner' := (h.marked_elect_iff hroom).mp ⟨other, place', rfl, hother, hmarked'⟩
  have hslot : master.slot = other.slot := Option.some.inj (hwinner.symm.trans hwinner')
  have hget := hmaster.1
  rw [hslot, hother.1] at hget
  exact Option.some.inj hget

end Consistent

/-- An election chooses as it should in any world whose tables show their membership, with any flags
and any times of activity, in any room, at any reading of the clock, and with any timeout. -/
theorem ballot_of_membership {config : Config} {world : World} (h : world.Membership config)
    {id : RoomId} {room : Room} (hroom : world.rooms.room? id = some room) (now : Instant)
    (timeout : Nat) :
    world.Ballot id room now timeout (world.elect room now timeout).1
      (world.elect room now timeout).2 := by
  obtain ⟨settings, consistent⟩ := h.exists_consistent
  exact consistent.ballot_elect hroom now timeout

/-- Both members are marked, with other flags set as well. The first has been silent for too long,
so the second is chosen. -/
theorem ballot_of_silent_master :
    let seated := (ofConfig .small).run .small smallPair
    let marked := seated.modifySession ⟨0⟩ fun session => { session with flags := 0x81 }
    let world := marked.modifySession ⟨1⟩ fun session =>
      { session with flags := 0x43, lastActive := 7000 }
    let room : Room :=
      { id := ⟨0⟩, memberCount := 2, cells := #[some ⟨0⟩, some ⟨1⟩], openSince := some 0
        terms := ⟨60000, Vector.replicate _ 1, Vector.replicate _ 2⟩ }
    let held := world.elect room 8000 5000
    world.Membership .small ∧ world.rooms.room? ⟨0⟩ = some room ∧
      world.Ballot ⟨0⟩ room 8000 5000 held.1 held.2 ∧ held.2 = some ⟨1⟩ ∧
        held.1.lobby.flags ⟨0⟩ = 0x80 ∧ held.1.lobby.flags ⟨1⟩ = 0x43 := by
  intro seated marked world room held
  have consistent : world.Consistent .small := by
    refine Consistent.modifySession ?_ ⟨1⟩ (fun _ => rfl) fun _ => rfl
    refine Consistent.modifySession ?_ ⟨0⟩ (fun _ => rfl) fun _ => rfl
    exact (Consistent.ofConfig .small).run smallPair
  have hroom : world.rooms.room? ⟨0⟩ = some room := by decide +kernel
  have helected : held.2 = some ⟨1⟩ ∧ held.1.lobby.flags ⟨0⟩ = 0x80 ∧
      held.1.lobby.flags ⟨1⟩ = 0x43 := by
    decide +kernel
  exact ⟨consistent.membership, hroom, ballot_of_membership consistent.membership hroom 8000 5000,
    helected⟩

end World

end RoomRelay
