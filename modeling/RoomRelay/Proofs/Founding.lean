import RoomRelay.Proofs.Ballot
import RoomRelay.Proofs.Reply
import RoomRelay.Proofs.Tenure

/-!
# How rooms are founded

A session that asks for a room of its own gets the first one in which nobody sits, unless it has a
seat already. The search goes by the number of members that a room keeps, and the cells are cleared
and the terms replaced whatever they are, so what the room is afterwards is told by its number, its
founder and the request alone. The founder was just heard of and has nobody beside it: the election
marks it and nobody else. Whoever has a seat already is answered after an election in its room.
-/

namespace RoomRelay

namespace Room

/-- A room in which its founder sits on the first place, and nobody else. -/
def founded (id : RoomId) (capacity : Nat) (founder : SlotId) (now : Instant) (terms : Terms) :
    Room where
  id
  memberCount := 1
  cells := (Array.replicate capacity none).setIfInBounds 0 (some founder)
  openSince := some now
  terms

variable {room : Room} {founder : SlotId} {now : Instant} {terms : Terms}

/-- Whoever sits down in an empty room that is opened anew finds nothing from before. -/
theorem insert?_reopen (hempty : room.isEmpty = true) (hplace : 0 < room.capacity) :
    (room.reopen now terms).insert? founder =
      some (⟨0⟩, founded room.id room.capacity founder now terms) := by
  have hcount : room.memberCount = 0 := by simpa [isEmpty] using hempty
  apply insert?_eq_some_iff.mpr
  constructor
  · apply findIdx?_isNone_eq_some_iff.mpr
    exact ⟨by simp [reopen, SeatIndex.position, hplace], fun _ hlower => by cases hlower⟩
  · simp [founded, reopen, SeatIndex.position, hcount]

section Founded

variable {id : RoomId} {capacity : Nat}

theorem member?_founded (hplace : 0 < capacity) (index : SeatIndex) :
    (founded id capacity founder now terms).member? index =
      if index = ⟨0⟩ then some founder else none := by
  simp only [member?, founded, Array.getElem?_setIfInBounds, Array.size_replicate, hplace, if_true,
    Array.getElem?_replicate]
  by_cases hfirst : index = ⟨0⟩
  · subst hfirst
    rfl
  · have hposition : ¬ 0 = index.position := fun h => hfirst (SeatIndex.position_inj.mp h.symm)
    rw [if_neg hposition, if_neg hfirst]
    split <;> rfl

/-- The founder is the only member. -/
theorem members_founded (hplace : 0 < capacity) :
    (founded id capacity founder now terms).members = [(⟨0⟩, founder)] := by
  have hmem : ∀ member, member ∈ (founded id capacity founder now terms).members ↔
      member ∈ [((⟨0⟩ : SeatIndex), founder)] := by
    rintro ⟨index, slot⟩
    rw [mem_members, member?_founded hplace, List.mem_singleton, Prod.mk.injEq,
      Option.ite_none_right_eq_some, Option.some.injEq, @eq_comm _ founder]
  have hnodup : (founded id capacity founder now terms).members.Nodup := by
    apply (pairwise_members _).imp
    rintro first second hlt rfl
    exact Nat.lt_irrefl _ hlt
  apply List.perm_singleton.mp
  exact (List.perm_ext_iff_of_nodup hnodup (List.nodup_singleton _)).mpr hmem

end Founded

end Room

namespace World

variable {config : Config} {world : World} {now : Instant} {peer : SocketAddress}
variable {session : Session} {id : RoomId} {room : Room}

/-- Whether a room is the one with the lowest number of those in which nobody sits. -/
structure FirstVacant (world : World) (id : RoomId) : Prop where
  exists_room : ∃ room, world.rooms.room? id = some room
  vacant : ¬ world.Occupied id
  lowest : ∀ other room, world.rooms.room? other = some room → ¬ world.Occupied other →
    id.position ≤ other.position

namespace Consistent

theorem not_occupied_iff (h : world.Consistent config)
    (hroom : world.rooms.room? id = some room) :
    ¬ world.Occupied id ↔ room.isEmpty = true := by
  rw [h.occupied_iff hroom, Bool.not_eq_false]

theorem occupied_touch (h : world.Consistent config)
    (hroom : world.rooms.room? id = some room) (slot : SlotId) (peer : SocketAddress)
    (now : Instant) : (world.touch slot peer now).Occupied id ↔ world.Occupied id :=
  ((h.touch slot peer now).occupied_iff hroom).trans (h.occupied_iff hroom).symm

theorem firstVacant_of_touch (h : world.Consistent config) {slot : SlotId}
    (hfirst : (world.touch slot peer now).FirstVacant id) : world.FirstVacant id := by
  obtain ⟨⟨room, hroom⟩, hvacant, hlowest⟩ := hfirst
  refine ⟨⟨room, hroom⟩, fun hsits => hvacant ?_, ?_⟩
  · exact (h.occupied_touch hroom slot peer now).mpr hsits
  · intro other room' hroom' hother
    exact hlowest other room' hroom' fun hsits =>
      hother ((h.occupied_touch hroom' slot peer now).mp hsits)

/-- The room that the search finds is the first one in which nobody sits. -/
theorem firstVacant_of_findEmpty (h : world.Consistent config)
    (hfind : world.rooms.findEmpty = some id) : world.FirstVacant id := by
  obtain ⟨room, hroom, hempty⟩ := h.of_find? hfind
  refine ⟨⟨room, hroom⟩, (h.not_occupied_iff hroom).mpr hempty, ?_⟩
  intro other room' hroom' hvacant
  exact h.position_le_of_find? hfind hroom' ((h.not_occupied_iff hroom').mp hvacant)

/-- Where somebody sits in every room, no room is created. -/
theorem create_of_occupied (h : world.Consistent config) (slot : SlotId) (now : Instant)
    (terms : Terms)
    (hall : ∀ id room, world.rooms.room? id = some room → world.Occupied id) :
    world.create slot now terms = (world, false) := by
  obtain hcreate | ⟨session, id, -, -, hfind, -⟩ := world.create_cases slot now terms
  · exact hcreate
  · have hfirst := h.firstVacant_of_findEmpty hfind
    obtain ⟨room, hroom⟩ := hfirst.exists_room
    exact absurd (hall id room hroom) hfirst.vacant

/-- Where nobody sits in some room, a session without a seat founds the first such room. -/
theorem create_of_vacant (hconfig : config.Bounded) (h : world.Consistent config)
    (hget : world.lobby.get? session.slot = some session) (hseat : session.seat = none)
    (hsome : ∃ id room, world.rooms.room? id = some room ∧ ¬ world.Occupied id) (now : Instant)
    (terms : Terms) :
    ∃ id, world.FirstVacant id ∧
      world.create session.slot now terms =
        ((world.reopen id now terms).sit session.slot session ⟨id, ⟨0⟩⟩
          (Room.founded id config.roomCapacity session.slot now terms), true) := by
  cases hfind : world.rooms.findEmpty with
  | none =>
      obtain ⟨id, room, hroom, hvacant⟩ := hsome
      exact absurd ((h.not_occupied_iff hroom).mp hvacant) (not_wanted_of_find? hfind hroom)
  | some id =>
      obtain ⟨room, hroom, hempty⟩ := h.of_find? hfind
      have hcapacity : room.capacity = config.roomCapacity := (h.room hroom).capacity_eq
      have hopened : (world.reopen id now terms).rooms.room? id = some (room.reopen now terms) := by
        simp [World.reopen, hroom]
      have hinsert : (room.reopen now terms).insert? session.slot =
          some (⟨0⟩, Room.founded id config.roomCapacity session.slot now terms) := by
        rw [← hcapacity, ← h.room_id hroom]
        exact Room.insert?_reopen hempty (hcapacity ▸ hconfig.roomCapacity_pos)
      refine ⟨id, h.firstVacant_of_findEmpty hfind, ?_⟩
      rw [create_of_findEmpty hget hseat hfind]
      exact join_of_insert? hget hseat hopened hinsert

end Consistent

/-- Whether a session has a seat and is told it, with the flags that it has by then. -/
def TellsSeat (after : World) (slot : SlotId) (peer : SocketAddress) (seat : Seat)
    (sent : List RoomRelay.Frame) : Prop :=
  ∃ session, after.lobby.get? slot = some session ∧ session.seat = some seat ∧
    sent = [⟨peer, Wire.CreateResponse.record.bytes
      { status := .ok, room := seat.room.toWire, index := seat.index.toWire
        flags := session.flags }⟩]

/-- How a session founds a room. -/
structure Foundation (config : Config) (world : World) (now : Instant) (peer : SocketAddress)
    (create : Wire.Create) (session : Session) (id : RoomId) (after : World)
    (sent : List RoomRelay.Frame) : Prop where
  first : world.FirstVacant id
  /-- Nothing is left of what the room was before. -/
  rooms : after.rooms = world.rooms.modify id fun _ =>
    Room.founded id config.roomCapacity session.slot now create.terms
  members : ∃ room, after.rooms.room? id = some room ∧ room.members = [(⟨0⟩, session.slot)]
  /-- The founder is the master, unless nobody ever counts as live. -/
  lobby : after.lobby = world.lobby.modify session.slot fun _ =>
    ({ session with peer, lastActive := now, seat := some ⟨id, ⟨0⟩⟩ } : Session).setMaster
      (0 < config.masterTimeout)
  tokens : after.tokens = world.tokens
  reply : TellsSeat after session.slot peer ⟨id, ⟨0⟩⟩ sent

/-- How a session that has a seat already is answered. -/
structure Residence (config : Config) (world : World) (now : Instant) (peer : SocketAddress)
    (session : Session) (seat : Seat) (after : World) (sent : List RoomRelay.Frame) : Prop where
  /-- Its activity is recorded, and then nothing changes but by an election in its room. -/
  ballot : ∃ room master, world.rooms.room? seat.room = some room ∧
    (world.touch session.slot peer now).Ballot seat.room room now config.masterTimeout after master
  rooms : after.rooms = world.rooms
  seats : ∀ slot, after.lobby.seat? slot = world.lobby.seat? slot
  /-- Unless nobody ever counts as live, its room has one master. -/
  ruled : 0 < config.masterTimeout →
    ∃! master : Session, (∃ index, after.Sits master ⟨seat.room, index⟩) ∧ master.isMaster = true
  reply : TellsSeat after session.slot peer seat sent

/-- What a creation by a session makes of a world, and what is sent. -/
structure Creation (config : Config) (world : World) (now : Instant) (peer : SocketAddress)
    (create : Wire.Create) (session : Session) (after : World) (sent : List RoomRelay.Frame) :
    Prop where
  /-- Where somebody sits in every room, a session without a seat is refused one. -/
  refused : session.seat = none →
    (∀ id room, world.rooms.room? id = some room → world.Occupied id) →
      after = (world.modifySession session.slot fun session =>
          { session with peer, lastActive := now }) ∧
        sent = [⟨peer, [4, 2]⟩]
  /-- Where nobody sits in some room, it founds one. -/
  founded : session.seat = none →
    (∃ id room, world.rooms.room? id = some room ∧ ¬ world.Occupied id) →
      ∃ id, Foundation config world now peer create session id after sent
  /-- Who has a seat keeps it, and no room changes. -/
  kept : ∀ seat, session.seat = some seat → Residence config world now peer session seat after sent

/-- The world after a session that was just heard of has founded a room and was elected there. -/
def withFounder (world : World) (config : Config) (session : Session) (id : RoomId)
    (now : Instant) (terms : Terms) : World where
  tokens := world.tokens
  lobby := world.lobby.modify session.slot fun _ =>
    { session with seat := some ⟨id, ⟨0⟩⟩ }.setMaster (0 < config.masterTimeout)
  rooms := world.rooms.modify id fun _ =>
    Room.founded id config.roomCapacity session.slot now terms

theorem get?_withFounder (config : Config)
    (hget : world.lobby.get? session.slot = some session) (id : RoomId) (now : Instant)
    (terms : Terms) :
    (world.withFounder config session id now terms).lobby.get? session.slot =
      some ({ session with seat := some ⟨id, ⟨0⟩⟩ }.setMaster (0 < config.masterTimeout)) := by
  rw [withFounder, Lobby.get?_modify_self, hget]
  rfl

theorem room?_withFounder (config : Config) (hroom : world.rooms.room? id = some room)
    (session : Session) (now : Instant) (terms : Terms) :
    (world.withFounder config session id now terms).rooms.room? id =
      some (Room.founded id config.roomCapacity session.slot now terms) := by
  rw [withFounder, RoomTable.room?_modify_self, hroom]
  rfl

/-- Whoever founds a room is alone there, and nobody else is affected by the election. -/
theorem elect_founded (hconfig : config.Bounded)
    (hget : world.lobby.get? session.slot = some session) (hheard : session.lastActive = now)
    (id : RoomId) (terms : Terms) :
    let room := Room.founded id config.roomCapacity session.slot now terms
    let seated := (world.reopen id now terms).sit session.slot session ⟨id, ⟨0⟩⟩ room
    (seated.elect room now config.masterTimeout).1 =
      world.withFounder config session id now terms := by
  intro room seated
  let founder : Session := { session with seat := some ⟨id, ⟨0⟩⟩ }
  have hopened : (world.reopen id now terms).lobby.get? session.slot = some session := hget
  have hfounder : seated.lobby.get? founder.slot = some founder :=
    (Sits.of_sit hopened ⟨id, ⟨0⟩⟩ room).1
  have halone : room.members = [(⟨0⟩, founder.slot)] :=
    Room.members_founded hconfig.roomCapacity_pos
  have hidle : founder.idle now = 0 := Session.idle_of_lastActive hheard
  have hlobby : (seated.lobby.elect room now config.masterTimeout).1 =
      world.lobby.modify session.slot fun _ => founder.setMaster (0 < config.masterTimeout) := by
    rw [Lobby.elect_of_alone hfounder halone, hidle]
    exact world.lobby.modify_modify session.slot _ _
  have hrooms : seated.rooms = world.rooms.modify id fun _ => room :=
    world.rooms.modify_modify id _ _
  have helected : (seated.elect room now config.masterTimeout).1 =
      ⟨world.tokens, (seated.lobby.elect room now config.masterTimeout).1, seated.rooms⟩ := rfl
  rw [helected, hlobby, hrooms]
  rfl

/-- Who has a record with a seat is told that seat with the flags of that record. -/
theorem tellsSeat_of_get? {slot : SlotId} {seat : Seat}
    (hget : world.lobby.get? slot = some session) (hseat : session.seat = some seat) (room : Room)
    (scratch : Scratch) (kind : Wire.Kind) :
    TellsSeat world slot peer seat
      ((createAnswer seat room (world.lobby.flags slot)).frames scratch kind peer).2 := by
  refine ⟨session, hget, hseat, ?_⟩
  rw [Lobby.flags_of_get? hget]
  exact scratch.snd_write_record peer (by decide) _

variable {scratch : Scratch} {create : Wire.Create}

/-- A creation is served in the world in which the activity of its session is recorded. -/
theorem dispatch_create (hdecode : Request.decode scratch.datagram = .ok (.create create))
    (hfound : world.lobby.findByToken create.token create.slot = some session) :
    let settled := (world.touch session.slot peer now).settle config now session.slot
      (fun world => world.create session.slot now create.terms) .full createAnswer
    let dispatched := world.dispatch config now scratch peer
    dispatched.world = settled.1 ∧
      dispatched.frames = (settled.2.frames scratch .create peer).2 := by
  intro settled
  have hserve : world.serve config now peer (.create create) = settled :=
    serveCreate_of_eq_some hfound
  rw [← hserve]
  exact world.dispatch_of_decode config now peer hdecode

namespace Consistent

/-- A session without a seat that was just heard of founds a room, if there is one where nobody
sits, and is answered from there. -/
theorem answerSeated_of_vacant (hconfig : config.Bounded) (h : world.Consistent config)
    (hget : world.lobby.get? session.slot = some session) (hseat : session.seat = none)
    (hheard : session.lastActive = now)
    (hsome : ∃ id room, world.rooms.room? id = some room ∧ ¬ world.Occupied id) (terms : Terms) :
    ∃ id, world.FirstVacant id ∧
      let after := world.withFounder config session id now terms
      (world.create session.slot now terms).1.answerSeated config now session.slot .full
          createAnswer =
        (after, createAnswer ⟨id, ⟨0⟩⟩
          (Room.founded id config.roomCapacity session.slot now terms)
          (after.lobby.flags session.slot)) := by
  obtain ⟨id, hfirst, hcreate⟩ := h.create_of_vacant hconfig hget hseat hsome now terms
  refine ⟨id, hfirst, ?_⟩
  let room := Room.founded id config.roomCapacity session.slot now terms
  let opened := world.reopen id now terms
  let seated := opened.sit session.slot session ⟨id, ⟨0⟩⟩ room
  have hopened : opened.lobby.get? session.slot = some session := hget
  have hsits : seated.lobby.seat? session.slot = some ⟨id, ⟨0⟩⟩ :=
    (Sits.of_sit hopened ⟨id, ⟨0⟩⟩ room).seat?
  have hroom : seated.rooms.room? id = some room := by
    obtain ⟨old, hold⟩ := hfirst.exists_room
    simp [seated, opened, World.sit, World.reopen, hold]
  rw [hcreate]
  refine (answerSeated_of_seat? hsits hroom now .full createAnswer).trans ?_
  rw [elect_founded hconfig hget hheard id terms]

/-- A session without a seat founds a room, if there is one where nobody sits. -/
theorem foundation (hconfig : config.Bounded) (h : world.Consistent config)
    (hget : world.lobby.get? session.slot = some session) (hseat : session.seat = none)
    (hsome : ∃ id room, world.rooms.room? id = some room ∧ ¬ world.Occupied id)
    (now : Instant) (peer : SocketAddress) (scratch : Scratch) (create : Wire.Create) :
    let settled := (world.touch session.slot peer now).settle config now session.slot
      (fun world => world.create session.slot now create.terms) .full createAnswer
    ∃ id, Foundation config world now peer create session id settled.1
      (settled.2.frames scratch .create peer).2 := by
  intro settled
  have touched := h.touch session.slot peer now
  have hheard : (world.touch session.slot peer now).lobby.get? (session.touch peer now).slot =
      some (session.touch peer now) := get?_touch_of_get? hget peer now
  have hunseated := (seat?_touch_of_get? hget peer now).trans hseat
  have hvacant : ∃ id room, (world.touch session.slot peer now).rooms.room? id = some room ∧
      ¬ (world.touch session.slot peer now).Occupied id := by
    obtain ⟨id, room, hroom, hvacant⟩ := hsome
    exact ⟨id, room, hroom, fun hsits =>
      hvacant ((h.occupied_touch hroom session.slot peer now).mp hsits)⟩
  have hstanding : (session.touch peer now).seat = none := hseat
  obtain ⟨id, hfirst, hserved⟩ :=
    touched.answerSeated_of_vacant hconfig hheard hstanding rfl hvacant create.terms
  have hsettled : settled = _ := (settle_of_unseated hunseated ..).trans hserved
  rw [hsettled]
  refine ⟨id, ?_⟩
  constructor
  case first => exact h.firstVacant_of_touch hfirst
  case rooms => rfl
  case members =>
    obtain ⟨old, hold⟩ := hfirst.exists_room
    have hfounded := room?_withFounder config hold (session.touch peer now) now create.terms
    exact ⟨_, hfounded, Room.members_founded hconfig.roomCapacity_pos⟩
  case lobby => exact world.lobby.modify_modify session.slot _ _
  case tokens => rfl
  case reply =>
    have hfounder := get?_withFounder config hheard id now create.terms
    exact tellsSeat_of_get? hfounder (Session.seat_setMaster ..)
      (Room.founded id config.roomCapacity session.slot now create.terms) scratch .create

/-- A session that has a seat is answered after an election in its room. -/
theorem residence (h : world.Consistent config)
    (hget : world.lobby.get? session.slot = some session) {seat : Seat}
    (hseat : session.seat = some seat) (now : Instant) (peer : SocketAddress)
    (scratch : Scratch) (create : Wire.Create) :
    let settled := (world.touch session.slot peer now).settle config now session.slot
      (fun world => world.create session.slot now create.terms) .full createAnswer
    Residence config world now peer session seat settled.1
      (settled.2.frames scratch .create peer).2 := by
  intro settled
  have touched := h.touch session.slot peer now
  have hheard := get?_touch_of_get? hget peer now
  have hseat? := (seat?_touch_of_get? hget peer now).trans hseat
  obtain ⟨room, hroom⟩ := touched.seated hseat?
  have hsettled : settled = _ := settle_of_seat? hseat? hroom
  have hsits : (world.touch session.slot peer now).Sits (session.touch peer now) seat :=
    ⟨hheard, hseat⟩
  rw [hsettled]
  constructor
  case ballot => exact ⟨room, _, hroom, touched.ballot_elect hroom now config.masterTimeout⟩
  case rooms => rfl
  case seats => exact fun slot => (seat?_elect ..).trans (world.seat?_touch ..)
  case ruled => exact touched.existsUnique_master hroom hsits rfl
  case reply =>
    obtain ⟨session', hget', hseat', -⟩ :=
      exists_get?_elect hseat? room now config.masterTimeout
    exact tellsSeat_of_get? hget' hseat' room scratch .create

/-- A creation is served as it should be in every consistent world. -/
theorem creation (hconfig : config.Bounded) (h : world.Consistent config)
    (hdecode : Request.decode scratch.datagram = .ok (.create create))
    (hfound : world.lobby.findByToken create.token create.slot = some session) :
    let dispatched := world.dispatch config now scratch peer
    Creation config world now peer create session dispatched.world dispatched.frames := by
  intro dispatched
  obtain ⟨-, hget, -⟩ := Lobby.of_findByToken h.lobby hfound
  obtain ⟨hworld, hframes⟩ := dispatch_create hdecode hfound
  rw [show dispatched.world = _ from hworld, show dispatched.frames = _ from hframes]
  constructor
  case refused =>
    intro hseat hall
    have touched := h.touch session.slot peer now
    have hunseated := (seat?_touch_of_get? hget peer now).trans hseat
    have hcreate := touched.create_of_occupied session.slot now create.terms fun id room hroom =>
      (h.occupied_touch hroom session.slot peer now).mpr (hall id room hroom)
    rw [settle_of_unseated hunseated, hcreate,
      answerSeated_of_seat_eq_none (get?_touch_of_get? hget peer now) hseat]
    exact ⟨rfl, Answer.frames_status ..⟩
  case founded =>
    intro hseat hsome
    exact h.foundation hconfig hget hseat hsome now peer scratch create
  case kept =>
    intro seat hseat
    exact h.residence hget hseat now peer scratch create

end Consistent

/-- Creations end to end. In every world that a server with valid settings comes to, every datagram
that is a creation and names a live session by its token and its slot is served as it should be,
from whatever peer and at whatever reading of the clock. -/
theorem creation_of_dispatch (hconfig : config.validate = .ok ()) (h : Reachable config world)
    (now : Instant) (peer : SocketAddress) {scratch : Scratch} {create : Wire.Create}
    (hdecode : Request.decode scratch.datagram = .ok (.create create)) {session : Session}
    (hfound : world.lobby.findByToken create.token create.slot = some session) :
    let dispatched := world.dispatch config now scratch peer
    Creation config world now peer create session dispatched.world dispatched.frames :=
  (Consistent.of_reachable h).creation (Config.bounded_of_validate hconfig) hdecode hfound

/-- The founder of the only room leaves it, and a second device founds it again on other terms. -/
theorem creation_of_second :
    let leave : Event :=
      .datagram 5000 smallPeer ⟨.empty, Wire.Leave.record.bytes ⟨⟨654988, 0, 0, 0⟩⟩⟩
    let world := (ofConfig .small).run .small (smallPair.take 3 ++ [leave])
    let create : Wire.Create := ⟨654989, 1, 30, Vector.replicate _ 3, Vector.replicate _ 4⟩
    let scratch : Scratch := ⟨.empty, Wire.Create.record.bytes create⟩
    let second : Session :=
      { slot := ⟨1⟩, device := Vector.replicate _ 8, token := ⟨654989, by decide⟩
        peer := smallPeer, lastActive := 0, seat := none, flags := 0 }
    let dispatched := world.dispatch .small 7000 scratch (.anyV4 40001)
    Config.validate .small = .ok () ∧ Reachable .small world ∧
      Request.decode scratch.datagram = .ok (.create create) ∧
      world.lobby.findByToken create.token create.slot = some second ∧
      Creation .small world 7000 (.anyV4 40001) create second dispatched.world
        dispatched.frames ∧
      dispatched.world.rooms.room? ⟨0⟩ = some (Room.founded ⟨0⟩ 2 ⟨1⟩ 7000 create.terms) ∧
      dispatched.frames = [⟨.anyV4 40001, Wire.CreateResponse.record.bytes
        { status := .ok, room := 0, index := 0, flags := 1 }⟩] := by
  intro leave world create scratch second dispatched
  have hconfig : Config.validate .small = .ok () := rfl
  have hreachable : Reachable .small world := ⟨_, rfl⟩
  have hdecode : Request.decode scratch.datagram = .ok (.create create) := by decide +kernel
  have hfound : world.lobby.findByToken create.token create.slot = some second := by
    decide +kernel
  exact ⟨hconfig, hreachable, hdecode, hfound,
    creation_of_dispatch hconfig hreachable 7000 (.anyV4 40001) hdecode hfound, by decide +kernel,
    by decide +kernel⟩

end World

end RoomRelay
