import RoomRelay.Proofs.Ballot
import RoomRelay.Proofs.Reply
import RoomRelay.Proofs.Tenure

/-!
# Who is matched where

A session that joins is put into the first room that suits it, on the first free place there, unless
it has a seat already. The search goes by the number of members that a room keeps, and the seat by
its cells; since these agree, a room that is found always has a place. Then there is an election in
the room, in which whoever joins counts as live, and the answer tells the seat, the flags that the
session has after the election, and the properties of the room.
-/

namespace RoomRelay

/-- Whether a client with some bounds may be matched into a room. -/
structure Room.Suits (room : Room) (ranges : Wire.Ranges) (now : Instant) : Prop where
  member : ∃ slot, some slot ∈ room.cells
  free : none ∈ room.cells
  /-- The room was opened, for ever or not longer ago than it is to be open. -/
  window : ∃ since, room.openSince = some since ∧
    (room.terms.openTimeout = 0 ∨ now.toNat - since.toNat ≤ room.terms.openTimeout)
  params : ∀ (i : Nat) (_ : i < Wire.paramCount),
    ranges[i].low ≤ room.terms.params[i] ∧ room.terms.params[i] ≤ ranges[i].high

namespace Room.Sound

variable {capacity : Nat} {room : Room}

/-- The search looks for rooms that suit. -/
theorem isJoinable_iff (h : room.Sound capacity) {ranges : Wire.Ranges} {now : Instant} :
    room.isJoinable ranges now = true ↔ room.Suits ranges now := by
  rw [Room.isJoinable_iff, h.isEmpty_eq_false_iff, h.isFull_eq_false_iff]
  constructor
  · rintro ⟨hmember, hfree, hwindow, hparams⟩
    exact ⟨hmember, hfree, hwindow, fun i hi => hparams ⟨i, hi⟩⟩
  · intro hsuits
    exact ⟨hsuits.member, hsuits.free, hsuits.window, fun i => hsuits.params i i.isLt⟩

end Room.Sound

namespace World

variable {config : Config} {world : World} {now : Instant} {peer : SocketAddress}

/-- Whether a room is the one with the lowest number of those that suit a client. -/
structure FirstSuited (world : World) (ranges : Wire.Ranges) (now : Instant) (id : RoomId)
    (room : Room) : Prop where
  found : world.rooms.room? id = some room
  suits : room.Suits ranges now
  lowest : ∀ other room', world.rooms.room? other = some room' → room'.Suits ranges now →
    id.position ≤ other.position

namespace Consistent

variable {ranges : Wire.Ranges} {id : RoomId}

/-- Where the search finds no room, none suits. -/
theorem not_suits_of_findJoinable (h : world.Consistent config)
    (hfind : world.rooms.findJoinable ranges now = none) {room : Room}
    (hroom : world.rooms.room? id = some room) : ¬ room.Suits ranges now := by
  intro hsuits
  exact not_wanted_of_find? hfind hroom ((h.room hroom).isJoinable_iff.mpr hsuits)

/-- The room that the search finds is the first one that suits. -/
theorem firstSuited_of_findJoinable (h : world.Consistent config)
    (hfind : world.rooms.findJoinable ranges now = some id) :
    ∃ room, world.FirstSuited ranges now id room := by
  obtain ⟨room, hroom, hjoinable⟩ := h.of_find? hfind
  refine ⟨room, hroom, (h.room hroom).isJoinable_iff.mp hjoinable, ?_⟩
  intro other room' hroom' hsuits
  exact h.position_le_of_find? hfind hroom' ((h.room hroom').isJoinable_iff.mpr hsuits)

/-- Where no room suits, nobody is matched. -/
theorem matchmake_of_not_suits (h : world.Consistent config) (slot : SlotId)
    (hnone : ∀ id room, world.rooms.room? id = some room → ¬ room.Suits ranges now) :
    world.matchmake slot ranges now = (world, false) := by
  rw [matchmake_eq]
  cases hfind : world.rooms.findJoinable ranges now with
  | none => rfl
  | some id =>
      obtain ⟨room, hfirst⟩ := h.firstSuited_of_findJoinable hfind
      exact absurd hfirst.suits (hnone id room hfirst.found)

/-- Where a room suits, a session without a seat sits down on the first free place of the first
room that does. -/
theorem matchmake_of_suits (hconfig : config.Bounded) (h : world.Consistent config)
    {slot : SlotId} {session : Session} (hget : world.lobby.get? slot = some session)
    (hseat : session.seat = none)
    (hsome : ∃ id room, world.rooms.room? id = some room ∧ room.Suits ranges now) :
    ∃ id room index room', world.FirstSuited ranges now id room ∧
      room.insert? session.slot = some (index, room') ∧
      world.matchmake slot ranges now = (world.sit slot session ⟨id, index⟩ room', true) := by
  rw [matchmake_eq]
  cases hfind : world.rooms.findJoinable ranges now with
  | none =>
      obtain ⟨id, room, hroom, hsuits⟩ := hsome
      exact absurd hsuits (h.not_suits_of_findJoinable hfind hroom)
  | some id =>
      obtain ⟨room, hfirst⟩ := h.firstSuited_of_findJoinable hfind
      have hsound := h.room hfirst.found
      have hplace := hsound.isFull_eq_false_iff.mpr hfirst.suits.free
      obtain ⟨index, room', hinsert⟩ :=
        hsound.exists_insert? hconfig.roomCapacity_le_size hplace session.slot
      exact ⟨id, room, index, room', hfirst, hinsert,
        join_of_insert? hget hseat hfirst.found hinsert⟩

end Consistent

/-- How a session that has a seat in the end is answered. -/
structure Boarded (config : Config) (after : World) (slot : SlotId) (peer : SocketAddress)
    (seat : Seat) (sent : List RoomRelay.Frame) : Prop where
  /-- It is told its seat, the flags that it has by then, and the properties of its room. -/
  reply : ∃ session room, after.lobby.get? slot = some session ∧ session.seat = some seat ∧
    after.rooms.room? seat.room = some room ∧
    sent = [⟨peer, Wire.JoinResponse.record.bytes
      { status := .ok, room := seat.room.toWire, index := seat.index.toWire
        flags := session.flags, properties := room.terms.properties }⟩]
  /-- Unless nobody ever counts as live, its room has one master. -/
  ruled : 0 < config.masterTimeout →
    ∃! master : Session, (∃ index, after.Sits master ⟨seat.room, index⟩) ∧ master.isMaster = true

/-- What a join of a session makes of a world, and what is sent. -/
structure Boarding (config : Config) (world : World) (now : Instant) (peer : SocketAddress)
    (ranges : Wire.Ranges) (session : Session) (after : World) (sent : List RoomRelay.Frame) :
    Prop where
  /-- Where no room suits, a session without a seat is refused one. -/
  refused : session.seat = none →
    (∀ id room, world.rooms.room? id = some room → ¬ room.Suits ranges now) →
      after = (world.modifySession session.slot fun session =>
          { session with peer, lastActive := now }) ∧
        sent = [⟨peer, [5, 3]⟩]
  /-- Where a room suits, it is seated in the first one that does, on the first free place. -/
  seated : session.seat = none →
    (∃ id room, world.rooms.room? id = some room ∧ room.Suits ranges now) →
      ∃ id room index, world.FirstSuited ranges now id room ∧
        room.cells[index.position]? = some none ∧
        (∀ cell < index.position, room.cells[cell]? ≠ some none) ∧
        after.rooms = (world.rooms.modify id fun _ =>
          { room with
            cells := room.cells.setIfInBounds index.position (some session.slot)
            memberCount := room.memberCount + 1 }) ∧
        (∀ slot, after.lobby.seat? slot =
          if session.slot = slot then some ⟨id, index⟩ else world.lobby.seat? slot) ∧
        Boarded config after session.slot peer ⟨id, index⟩ sent
  /-- Who has a seat keeps it, and so does everybody else. -/
  kept : ∀ seat, session.seat = some seat →
    after.rooms = world.rooms ∧ (∀ slot, after.lobby.seat? slot = world.lobby.seat? slot) ∧
      Boarded config after session.slot peer seat sent

/-- The answer to a join that ends on a seat. -/
def boarded (seat : Seat) (room : Room) (flags : UInt8) : Answer :=
  .joined
    { status := .ok, room := seat.room.toWire, index := seat.index.toWire, flags
      properties := room.terms.properties }

variable {scratch : Scratch} {join : Wire.Join} {session : Session}

/-- A join is served in the world in which the activity of its session is recorded. -/
theorem dispatch_join (hdecode : Request.decode scratch.datagram = .ok (.join join))
    (hfound : world.lobby.findByToken join.token join.slot = some session) :
    let settled := (world.touch session.slot peer now).settle config now session.slot
      (fun world => world.matchmake session.slot join.ranges now) .unmatched boarded
    let dispatched := world.dispatch config now scratch peer
    dispatched.world = settled.1 ∧ dispatched.frames = (settled.2.frames scratch .join peer).2 := by
  intro settled
  have hserve : world.serve config now peer (.join join) = settled := serveJoin_of_eq_some hfound
  rw [← hserve]
  exact world.dispatch_of_decode config now peer hdecode

namespace Consistent

/-- Who has a seat and was just heard of is answered after an election in the room. -/
theorem boarded_elect (h : world.Consistent config) {seat : Seat} {room : Room}
    (hsits : world.Sits session seat) (hheard : session.lastActive = now)
    (hroom : world.rooms.room? seat.room = some room) (scratch : Scratch) (kind : Wire.Kind) :
    let after := (world.elect room now config.masterTimeout).1
    Boarded config after session.slot peer seat
      ((boarded seat room (after.lobby.flags session.slot)).frames scratch kind peer).2 := by
  intro after
  constructor
  · obtain ⟨session', hget', hseat', hflags⟩ :=
      exists_get?_elect hsits.seat? room now config.masterTimeout
    refine ⟨session', room, hget', hseat', hroom, ?_⟩
    rw [show after.lobby.flags session.slot = session'.flags from hflags]
    exact scratch.snd_write_record peer (by decide) _
  · exact h.existsUnique_master hroom hsits hheard

/-- A session without a seat that was just heard of ends on the first free place of the first room
that suits it. -/
theorem boarded_matchmake (hconfig : config.Bounded) (h : world.Consistent config)
    (hget : world.lobby.get? session.slot = some session) (hseat : session.seat = none)
    (hheard : session.lastActive = now) {ranges : Wire.Ranges}
    (hsome : ∃ id room, world.rooms.room? id = some room ∧ room.Suits ranges now)
    (scratch : Scratch) (kind : Wire.Kind) :
    let served := (world.matchmake session.slot ranges now).1.answerSeated config now session.slot
      .unmatched boarded
    ∃ id room index, world.FirstSuited ranges now id room ∧
      room.cells[index.position]? = some none ∧
      (∀ cell < index.position, room.cells[cell]? ≠ some none) ∧
      served.1.rooms = (world.rooms.modify id fun _ =>
        { room with
          cells := room.cells.setIfInBounds index.position (some session.slot)
          memberCount := room.memberCount + 1 }) ∧
      (∀ slot, served.1.lobby.seat? slot =
        if session.slot = slot then some ⟨id, index⟩ else world.lobby.seat? slot) ∧
      Boarded config served.1 session.slot peer ⟨id, index⟩
        (served.2.frames scratch kind peer).2 := by
  intro served
  obtain ⟨id, room, index, room', hfirst, hinsert, hmatch⟩ :=
    h.matchmake_of_suits hconfig hget hseat hsome
  have consistent := h.sit hget hseat hfirst.found hinsert
  have hsits : (world.sit session.slot session ⟨id, index⟩ room').Sits _ ⟨id, index⟩ :=
    .of_sit hget ⟨id, index⟩ room'
  have hroom := room?_sit hfirst.found session.slot session index room'
  have hserved : served = _ :=
    (congrArg (fun matched : World × Bool => matched.1.answerSeated config now session.slot
      .unmatched boarded) hmatch).trans (answerSeated_of_seat? hsits.seat? hroom ..)
  obtain ⟨hfind, rfl⟩ := Room.insert?_eq_some_iff.mp hinsert
  obtain ⟨hfree, hlower⟩ := findIdx?_isNone_eq_some_iff.mp hfind
  rw [hserved]
  refine ⟨id, room, index, hfirst, hfree, hlower, rfl, fun slot => ?_, ?_⟩
  · exact (seat?_elect ..).trans (seat?_sit hget ..)
  · exact consistent.boarded_elect hsits hheard hroom scratch kind

/-- A join is served as it should be in every consistent world. -/
theorem boarding (hconfig : config.Bounded) (h : world.Consistent config)
    (hdecode : Request.decode scratch.datagram = .ok (.join join))
    (hfound : world.lobby.findByToken join.token join.slot = some session) :
    let dispatched := world.dispatch config now scratch peer
    Boarding config world now peer join.ranges session dispatched.world dispatched.frames := by
  intro dispatched
  obtain ⟨-, hget, -⟩ := Lobby.of_findByToken h.lobby hfound
  obtain ⟨hworld, hframes⟩ := dispatch_join hdecode hfound
  have touched := h.touch session.slot peer now
  have hheard := get?_touch_of_get? hget peer now
  have hseat? := seat?_touch_of_get? hget peer now
  rw [show dispatched.world = _ from hworld, show dispatched.frames = _ from hframes]
  constructor
  case refused =>
    intro hseat hnone
    have hmatch := touched.matchmake_of_not_suits session.slot hnone
    rw [settle_of_unseated (hseat?.trans hseat), hmatch,
      answerSeated_of_seat_eq_none hheard hseat]
    exact ⟨rfl, Answer.frames_status ..⟩
  case seated =>
    intro hseat hsome
    have hstanding : (session.touch peer now).seat = none := hseat
    rw [settle_of_unseated (hseat?.trans hseat)]
    obtain ⟨id, room, index, hfirst, hfree, hlower, hrooms, hseats, hboarded⟩ :=
      touched.boarded_matchmake hconfig hheard hstanding rfl hsome scratch .join
    refine ⟨id, room, index, ⟨hfirst.found, hfirst.suits, hfirst.lowest⟩, hfree, hlower, hrooms,
      fun slot => (hseats slot).trans ?_, hboarded⟩
    rw [seat?_touch]
    rfl
  case kept =>
    intro seat hseat
    obtain ⟨room, hroom⟩ := touched.seated (hseat?.trans hseat)
    rw [settle_of_seat? (hseat?.trans hseat) hroom]
    refine ⟨rfl, fun slot => (seat?_elect ..).trans (world.seat?_touch ..), ?_⟩
    have hsits : (world.touch session.slot peer now).Sits (session.touch peer now) seat :=
      ⟨hheard, hseat⟩
    exact touched.boarded_elect hsits rfl hroom scratch .join

end Consistent

/-- Joins end to end. In every world that a server with valid settings comes to, every datagram that
is a join and names a live session by its token and its slot is served as it should be, from
whatever peer and at whatever reading of the clock. -/
theorem boarding_of_dispatch (hconfig : config.validate = .ok ()) (h : Reachable config world)
    (now : Instant) (peer : SocketAddress) {scratch : Scratch} {join : Wire.Join}
    (hdecode : Request.decode scratch.datagram = .ok (.join join)) {session : Session}
    (hfound : world.lobby.findByToken join.token join.slot = some session) :
    let dispatched := world.dispatch config now scratch peer
    Boarding config world now peer join.ranges session dispatched.world dispatched.frames :=
  (Consistent.of_reachable h).boarding (Config.bounded_of_validate hconfig) hdecode hfound

/-- A second device is matched into the room that the first one has opened, at the end of the time
that the room is open for and with bounds that it only just meets. The first one has been silent, so
the second becomes the master. -/
theorem boarding_of_second :
    let world := (ofConfig .small).run .small (smallPair.take 3)
    let join : Wire.Join := ⟨654989, 1, Vector.replicate _ ⟨2, 2⟩⟩
    let scratch : Scratch := ⟨.empty, Wire.Join.record.bytes join⟩
    let second : Session :=
      { slot := ⟨1⟩, device := Vector.replicate _ 8, token := ⟨654989, by decide⟩
        peer := smallPeer, lastActive := 0, seat := none, flags := 0 }
    let dispatched := world.dispatch .small 60000 scratch (.anyV4 40001)
    Config.validate .small = .ok () ∧ Reachable .small world ∧
      Request.decode scratch.datagram = .ok (.join join) ∧
      world.lobby.findByToken join.token join.slot = some second ∧
      Boarding .small world 60000 (.anyV4 40001) join.ranges second dispatched.world
        dispatched.frames ∧
      dispatched.frames = [⟨.anyV4 40001, Wire.JoinResponse.record.bytes
        { status := .ok, room := 0, index := 1, flags := 1
          properties := Vector.replicate _ 1 }⟩] := by
  intro world join scratch second dispatched
  have hconfig : Config.validate .small = .ok () := rfl
  have hreachable : Reachable .small world := ⟨_, rfl⟩
  have hdecode : Request.decode scratch.datagram = .ok (.join join) := by decide +kernel
  have hfound : world.lobby.findByToken join.token join.slot = some second := by decide +kernel
  exact ⟨hconfig, hreachable, hdecode, hfound,
    boarding_of_dispatch hconfig hreachable 60000 (.anyV4 40001) hdecode hfound, by decide +kernel⟩

end World

end RoomRelay
