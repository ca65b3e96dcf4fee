import RoomRelay.Proofs.Identity
import RoomRelay.Proofs.Service

/-!
# In whose name a datagram acts

A datagram acts for the session that recognises it and for nobody else. What it leaves alone is its
frame: the records of all other sessions, but for the marks of those who share a room with the
session after an election, and all rooms and cells other than its own. Frames compose, so the frame
of a request is put together from those of the steps that it takes.
-/

namespace RoomRelay.World

/-- What a change in the name of the session in a slot leaves alone, if the session may take or
give up the seats in an area, and members of some rooms may be marked. -/
structure Frame (slot : SlotId) (area : Seat → Prop) (marks : RoomId → Prop)
    (before after : World) : Prop where
  tokens : after.tokens = before.tokens
  capacity : after.lobby.capacity = before.lobby.capacity
  size : after.rooms.size = before.rooms.size
  /-- Another session is as before, unless it is a member of a room where members may be marked;
  then it is so but for the mark. -/
  others : ∀ other, other ≠ slot →
    after.lobby.get? other = before.lobby.get? other ∨
      ∃ session seat master, before.lobby.get? other = some session ∧
        session.seat = some seat ∧ marks seat.room ∧
        after.lobby.get? other = some (session.setMaster master)
  /-- A room that has no seat in the area is as before. -/
  rooms : ∀ id, (∀ index, ¬ area ⟨id, index⟩) → after.rooms.room? id = before.rooms.room? id
  /-- Of a room that has a seat in the area, the other cells are as before. -/
  cells : ∀ {id room}, before.rooms.room? id = some room →
    ∃ room', after.rooms.room? id = some room' ∧ room'.capacity = room.capacity ∧
      ∀ index, ¬ area ⟨id, index⟩ → room'.member? index = room.member? index
  /-- If the session is still there, it is the same one. -/
  own : ∀ {session}, after.lobby.get? slot = some session →
    ∃ old, before.lobby.get? slot = some old ∧ session.slot = old.slot ∧
      session.device = old.device ∧ session.token = old.token

namespace Frame

variable {slot : SlotId} {area : Seat → Prop} {marks : RoomId → Prop} {world : World}

theorem refl (world : World) : Frame slot area marks world world where
  tokens := rfl
  capacity := rfl
  size := rfl
  others _ _ := .inl rfl
  rooms _ _ := rfl
  cells hroom := ⟨_, hroom, rfl, fun _ _ => rfl⟩
  own hget := ⟨_, hget, rfl, rfl, rfl⟩

/-- Frames of successive changes make a frame of both. -/
theorem trans {a b c : World} (first : Frame slot area marks a b)
    (second : Frame slot area marks b c) : Frame slot area marks a c where
  tokens := second.tokens.trans first.tokens
  capacity := second.capacity.trans first.capacity
  size := second.size.trans first.size
  others other hne := by
    rcases second.others other hne with hsame | ⟨session, seat, master, hget, hseat, hmarks, hafter⟩
    · rw [hsame]
      exact first.others other hne
    · rcases first.others other hne with hsame | ⟨old, seat', master', hget', hseat', hmarks',
        hafter'⟩
      · exact .inr ⟨session, seat, master, hsame ▸ hget, hseat, hmarks, hafter⟩
      · rw [hget] at hafter'
        cases hafter'
        rw [Session.setMaster_setMaster] at hafter
        exact .inr ⟨old, seat', master, hget', hseat', hmarks', hafter⟩
  rooms id harea := (second.rooms id harea).trans (first.rooms id harea)
  cells hroom := by
    obtain ⟨room', hroom', hcapacity', hcells'⟩ := first.cells hroom
    obtain ⟨room'', hroom'', hcapacity'', hcells''⟩ := second.cells hroom'
    exact ⟨room'', hroom'', hcapacity''.trans hcapacity', fun index harea =>
      (hcells'' index harea).trans (hcells' index harea)⟩
  own hget := by
    obtain ⟨session, hget, hslot, hdevice, htoken⟩ := second.own hget
    obtain ⟨old, hget, hslot', hdevice', htoken'⟩ := first.own hget
    exact ⟨old, hget, hslot.trans hslot', hdevice.trans hdevice', htoken.trans htoken'⟩

/-- Changing the session's own record leaves everybody else alone. -/
theorem modifySession (change : Session → Session)
    (hchange : ∀ session, world.lobby.get? slot = some session →
      (change session).slot = session.slot ∧ (change session).device = session.device ∧
        (change session).token = session.token) :
    Frame slot area marks world (world.modifySession slot change) where
  tokens := rfl
  capacity := Lobby.capacity_modify ..
  size := rfl
  others _ hne := .inl (Lobby.get?_modify_of_ne _ _ hne.symm)
  rooms _ _ := rfl
  cells hroom := ⟨_, hroom, rfl, fun _ _ => rfl⟩
  own hget := (Shrinks.modify slot change world.rooms hchange).get? hget

theorem touch (world : World) (peer : SocketAddress) (now : Instant) :
    Frame slot area marks world (world.touch slot peer now) :=
  modifySession _ fun _ _ => ⟨rfl, rfl, rfl⟩

/-- Replacing the session's record by one of the same session. -/
theorem replace {session record : Session} (hget : world.lobby.get? slot = some session)
    (hrecord : record.slot = session.slot ∧ record.device = session.device ∧
      record.token = session.token) :
    Frame slot area marks world (world.modifySession slot fun _ => record) :=
  modifySession _ fun found hfound => by
    rw [hget] at hfound
    cases hfound
    exact hrecord

theorem release (world : World) : Frame slot area marks world (world.release slot).1 where
  tokens := rfl
  capacity := Lobby.capacity_release ..
  size := rfl
  others other hne := .inl (by
    rw [World.release, Lobby.get?_release, if_neg hne.symm])
  rooms _ _ := rfl
  cells hroom := ⟨_, hroom, rfl, fun _ _ => rfl⟩
  own hget := (Shrinks.release slot).get? hget

/-- Changing a room leaves the other rooms alone, and cells outside the area if the change does. -/
theorem modifyRoom {id : RoomId} (change : Room → Room) (harea : ∃ index, area ⟨id, index⟩)
    (hchange : ∀ room, world.rooms.room? id = some room →
      (change room).capacity = room.capacity ∧
        ∀ index, ¬ area ⟨id, index⟩ → (change room).member? index = room.member? index) :
    Frame slot area marks world { world with rooms := world.rooms.modify id change } where
  tokens := rfl
  capacity := rfl
  size := RoomTable.size_modify ..
  others _ _ := .inl rfl
  rooms other hother := by
    obtain ⟨index, hindex⟩ := harea
    refine RoomTable.room?_modify_of_ne _ _ ?_
    rintro rfl
    exact hother index hindex
  cells {other room} hroom := by
    by_cases heq : id = other
    · subst heq
      exact ⟨change room, by simp [hroom], hchange room hroom⟩
    · exact ⟨room, by rw [RoomTable.room?_modify_of_ne _ _ heq, hroom], rfl, fun _ _ => rfl⟩
  own hget := ⟨_, hget, rfl, rfl, rfl⟩

theorem sit {session : Session} {seat : Seat} {room room' : Room}
    (hget : world.lobby.get? slot = some session) (hroom : world.rooms.room? seat.room = some room)
    (hinsert : room.insert? session.slot = some (seat.index, room')) (harea : area seat) :
    Frame slot area marks world (world.sit slot session seat room') := by
  have seated : Frame slot area marks world _ :=
    modifyRoom (fun _ => room') ⟨seat.index, harea⟩ fun found hfound => by
      rw [hroom] at hfound
      cases hfound
      refine ⟨Room.capacity_of_insert? hinsert, ?_⟩
      intro index hindex
      rw [Room.member?_insert? hinsert, if_neg]
      rintro rfl
      exact hindex harea
  exact seated.trans (replace hget ⟨rfl, rfl, rfl⟩)

theorem stand {session : Session} {seat : Seat} (hget : world.lobby.get? slot = some session)
    (harea : area seat) : Frame slot area marks world (world.stand slot session seat) := by
  have vacated : Frame slot area marks world _ :=
    modifyRoom (·.vacate seat.index session.slot) ⟨seat.index, harea⟩ fun room _ => by
      refine ⟨Room.capacity_vacate .., ?_⟩
      intro index hindex
      rw [Room.member?_vacate, if_neg]
      rintro ⟨rfl, -⟩
      exact hindex harea
  exact vacated.trans (replace hget
    ⟨Session.slot_setMaster .., Session.device_setMaster .., Session.token_setMaster ..⟩)

theorem leave (harea : ∀ seat, world.lobby.seat? slot = some seat → area seat) :
    Frame slot area marks world (world.leave slot) := by
  cases hseat : world.lobby.seat? slot with
  | none =>
      rw [world.leave_eq_self slot hseat]
      exact refl world
  | some seat =>
      have harea := harea seat hseat
      obtain ⟨session, hget, hseat⟩ := Lobby.seat?_eq_some_iff.mp hseat
      rw [leave_of_seat hget hseat]
      exact stand hget harea

variable {config : Config}

/-- Opening an empty room clears no cell that is taken. -/
theorem reopen (h : world.Consistent config) {id : RoomId} {room : Room}
    (hroom : world.rooms.room? id = some room) (hempty : room.isEmpty = true)
    (harea : ∃ index, area ⟨id, index⟩) (now : Instant) (terms : Terms) :
    Frame slot area marks world (world.reopen id now terms) :=
  modifyRoom _ harea fun found hfound => by
    rw [hroom] at hfound
    cases hfound
    refine ⟨Room.capacity_reopen .., ?_⟩
    intro index _
    rw [Room.member?_reopen, (h.room hroom).member?_of_isEmpty hempty]

theorem sitsDown {seat : Seat} {after : World} (hsits : SitsDown slot seat world after)
    (h : world.Consistent config) (harea : area seat) : Frame slot area marks world after := by
  induction hsits with
  | join hget _ hroom hinsert => exact sit hget hroom hinsert harea
  | reopen now terms hroom hempty _ ih =>
      exact (reopen h hroom hempty ⟨_, harea⟩ now terms).trans
        (ih (h.reopen hroom hempty now terms))

/-- An election marks members of its room only. -/
theorem elect (h : world.Consistent config) {id : RoomId} {room : Room}
    (hroom : world.rooms.room? id = some room) (hmarks : marks id) (now : Instant)
    (timeout : Nat) : Frame slot area marks world (world.elect room now timeout).1 where
  tokens := rfl
  capacity := ((h.elect room now timeout).lobby.capacity_eq).trans h.lobby.capacity_eq.symm
  size := rfl
  others other _ := by
    have hget := (Lobby.elect_eq_winner world.lobby now timeout (h.nodup_slots hroom)).2 other
    by_cases hmem : other ∈ room.slots
    · rw [if_pos hmem] at hget
      obtain ⟨⟨index, _⟩, hmember, rfl⟩ := List.mem_map.mp hmem
      obtain ⟨session, hsession, hseat⟩ :=
        Lobby.seat?_eq_some_iff.mp ((h.member?_iff hroom).mp (Room.mem_members.mp hmember))
      rw [hsession] at hget
      exact .inr ⟨session, ⟨id, index⟩, _, hsession, hseat, hmarks, hget⟩
    · rw [if_neg hmem] at hget
      exact .inl hget
  rooms _ _ := rfl
  cells hroom := ⟨_, hroom, rfl, fun _ _ => rfl⟩
  own hget := (Shrinks.elect room now timeout).get? hget

end Frame

variable {config : Config} {world : World} {now : Instant} {peer : SocketAddress}

/-- What a served request leaves alone: it may take or give up the seat that its session has before
or after, and only requests for a seat mark members, those of the room that the session is in. -/
theorem Served.frame (h : world.Consistent config) {request : Request} {result : World × Answer}
    (served : Served config now peer world request result) :
    (result.1 = world ∧ result.2.IsRejection) ∨
      ∃ session, request.recognise? world.lobby = some session ∧ ¬ result.2.IsRejection ∧
        Frame session.slot
          (fun seat => session.seat = some seat ∨
            result.1.lobby.seat? session.slot = some seat)
          (fun room => (request.kind = .create ∨ request.kind = .join) ∧
            ∃ index, result.1.lobby.seat? session.slot = some ⟨room, index⟩)
          world result.1 := by
  have hok : ¬ (Answer.status .ok).IsRejection := by simp [Answer.IsRejection]
  cases served with
  | rejected hanswer => exact .inl ⟨rfl, hanswer⟩
  | noted hfound _ hanswer => exact .inr ⟨_, hfound, hanswer, .touch _ _ _⟩
  | left hfound _ hseat =>
      have hget := (Request.of_recognise? h.lobby hfound).1
      refine .inr ⟨_, hfound, hok, (Frame.touch _ peer now).trans (.leave ?_)⟩
      intro seat hseat
      rw [seat?_touch_of_get? hget] at hseat
      exact .inl hseat
  | closed hfound _ =>
      have hget := (Request.of_recognise? h.lobby hfound).1
      refine .inr ⟨_, hfound, hok, Frame.trans (.leave fun seat hseat => ?_) (.release _)⟩
      rw [Lobby.seat?_of_get? hget] at hseat
      exact .inl hseat
  | @settled session seat seated room answer hfound hkind hseated hconsistent hseat hroom
      hanswer =>
      have hafter : (seated.elect room now config.masterTimeout).1.lobby.seat? session.slot =
          some seat := by
        rw [seat?_elect, hseat]
      refine .inr ⟨session, hfound, hanswer, (Frame.touch _ peer now).trans (Frame.trans ?_
        (.elect hconsistent hroom ⟨hkind, seat.index, hafter⟩ now config.masterTimeout))⟩
      cases hseated with
      | inl hsame =>
          subst hsame
          exact .refl _
      | inr hsits => exact .sitsDown hsits (h.touch session.slot peer now) (.inr hafter)

/-- A datagram that is not a login changes something only in the name of the live session that its
token and slot name, and within the frame of that session. If it is dropped or answered as expired,
it changes nothing. -/
theorem authority_of_dispatch (hconfig : config.validate = .ok ()) (h : Reachable config world)
    (now : Instant) (peer : SocketAddress) (scratch : Scratch)
    (hlogin : ∀ login, Request.decode scratch.datagram ≠ .ok (.login login)) :
    let after := (world.dispatch config now scratch peer).world
    (after ≠ world →
      ∃ request session, Request.decode scratch.datagram = .ok request ∧
        request.claim? = some (session.token.word, session.slot.toWire) ∧
        world.lobby.get? session.slot = some session ∧
        Frame session.slot
          (fun seat => session.seat = some seat ∨ after.lobby.seat? session.slot = some seat)
          (fun room => (request.kind = .create ∨ request.kind = .join) ∧
            ∃ index, after.lobby.seat? session.slot = some ⟨room, index⟩)
          world after) ∧
      ((world.receive config now peer scratch.datagram).2.IsRejection → after = world) := by
  have hconsistent := Consistent.of_reachable h
  intro after
  have hafter : after = (world.receive config now peer scratch.datagram).1 :=
    world_dispatch world config now scratch peer
  clear_value after
  subst hafter
  rw [receive]
  cases hdecode : Request.decode scratch.datagram with
  | error fault => exact ⟨fun hne => absurd rfl hne, fun _ => rfl⟩
  | ok request =>
      have hkind : request.kind ≠ .login := by
        intro hkind
        cases request <;> try cases hkind
        exact hlogin _ hdecode
      dsimp only
      rcases (served_serve now peer (Config.bounded_of_validate hconfig) hconsistent hkind).frame
        hconsistent with ⟨hsame, -⟩ | ⟨session, hfound, hanswer, hframe⟩
      · exact ⟨fun hne => absurd hsame hne, fun _ => hsame⟩
      · obtain ⟨hlive, hclaim⟩ := Request.of_recognise? hconsistent.lobby hfound
        exact ⟨fun _ => ⟨request, session, rfl, hclaim, hlive, hframe⟩,
          fun hrejected => absurd hrejected hanswer⟩

/-- A client that has just logged in opens a room. -/
theorem authority_of_create :
    let world := (ofConfig .small).run .small [smallLogin 7]
    let create := Wire.Create.record.bytes
      ⟨654988, 0, 60, Vector.replicate _ 1, Vector.replicate _ 2⟩
    let after := (world.dispatch .small 5 ⟨.empty, create⟩ smallPeer).world
    Config.validate .small = .ok () ∧ Reachable .small world ∧ after ≠ world ∧
      (∀ login, Request.decode create ≠ .ok (.login login)) ∧
      ∃ request session, Request.decode create = .ok request ∧
        request.claim? = some (session.token.word, session.slot.toWire) ∧
        world.lobby.get? session.slot = some session ∧ after.tokens = world.tokens := by
  intro world create after
  have hconfig : Config.validate .small = .ok () := rfl
  have hreachable : Reachable .small world := ⟨_, rfl⟩
  have hseats : after.lobby.seat? ⟨0⟩ ≠ world.lobby.seat? ⟨0⟩ := by decide +kernel
  have hne : after ≠ world := fun h => hseats (by rw [h])
  have hkind : (Request.decode create).toOption.map Request.kind = some .create := by
    decide +kernel
  have hlogin : ∀ login, Request.decode create ≠ .ok (.login login) := by
    intro login h
    rw [h] at hkind
    cases hkind
  obtain ⟨request, session, hdecode, hclaim, hlive, hframe⟩ :=
    (authority_of_dispatch hconfig hreachable 5 smallPeer ⟨.empty, create⟩ hlogin).1 hne
  exact ⟨hconfig, hreachable, hne, hlogin, request, session, hdecode, hclaim, hlive,
    hframe.tokens⟩

end RoomRelay.World
