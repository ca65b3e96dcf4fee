import RoomRelay.Proofs.Chronicle
import RoomRelay.Proofs.Membership.Cells
import RoomRelay.Proofs.Naming
import RoomRelay.Proofs.Tenure

/-!
# A client comes and goes

A visit begins with the login that opens a session and ends with the logout that closes it. In
between the client may ask for whatever it likes, rooms to open, to join and to leave included, and
some of its datagrams may be rejected. Every one of its requests acts within the frame of its
session, and a room in which others sit is not opened anew. So in the end the tables are what they
were: no slot, no cell and no count is left behind.
-/

namespace RoomRelay

namespace World

variable {config : Config} {world opened after : World} {event : Event} {client : Session}
variable {slot : SlotId} {entered : RoomId → Prop}

namespace Frame

variable {area area' : Seat → Prop} {marks marks' : RoomId → Prop}

/-- A frame may be widened. -/
theorem mono (h : Frame slot area marks world after) (harea : ∀ seat, area seat → area' seat)
    (hmarks : ∀ id, marks id → marks' id) : Frame slot area' marks' world after where
  tokens := h.tokens
  capacity := h.capacity
  size := h.size
  others other hne := by
    rcases h.others other hne with hsame | ⟨session, seat, master, hget, hseat, hmark, hafter⟩
    · exact .inl hsame
    · exact .inr ⟨session, seat, master, hget, hseat, hmarks _ hmark, hafter⟩
  rooms id houtside := h.rooms id fun index hinside => houtside index (harea _ hinside)
  cells hroom := by
    obtain ⟨room', hroom', hcapacity, hcells⟩ := h.cells hroom
    exact ⟨room', hroom', hcapacity, fun index houtside =>
      hcells index fun hinside => houtside (harea _ hinside)⟩
  own := h.own

/-- Nobody else's seat changes. -/
theorem seat?_eq (h : Frame slot area marks world after) {other : SlotId} (hne : other ≠ slot) :
    after.lobby.seat? other = world.lobby.seat? other := by
  rcases h.others other hne with hsame | ⟨session, seat, master, hget, -, -, hafter⟩
  · rw [Lobby.seat?, hsame, Lobby.seat?]
  · rw [Lobby.seat?_of_get? hafter, Lobby.seat?_of_get? hget, Session.seat_setMaster]

end Frame

/-- Whether a datagram may come up while a client is there: it is rejected, or it is a login of the
client's device, or the client's session recognises it and is not closed by it. -/
inductive Visits (config : Config) (client : Session) (world : World) (event : Event) : Prop
  | rejected (hanswer : (world.answer config event).IsRejection)
  | login {login : Wire.Login} (hrequest : event.request? = some (.login login))
      (hdevice : login.device = client.device)
  | own {request : Request} {session : Session} (hrequest : event.request? = some request)
      (hfound : request.recognise? world.lobby = some session)
      (hslot : session.slot = client.slot) (hkind : request.kind ≠ .logout)

/-- A login is not rejected, be it refused for lack of a slot. -/
theorem not_isRejection_serveLogin (hconfig : config.Bounded) (h : world.Consistent config)
    (now : Instant) (peer : SocketAddress) (login : Wire.Login) :
    ¬ (world.serveLogin now peer login).2.IsRejection := by
  have welcomed := welcomed_serveLogin now peer hconfig h login
  generalize world.serveLogin now peer login = result at welcomed ⊢
  cases welcomed with
  | refused _ _ => simp [Answer.IsRejection]
  | welcomed _ _ _ _ => simp [Answer.IsRejection]

/-- What is rejected changes nothing. -/
theorem handle_of_isRejection (hconfig : config.Bounded) (h : world.Consistent config)
    (hanswer : (world.answer config event).IsRejection) : world.handle config event = world := by
  cases event with
  | sweep now sweeper => simp [answer, Answer.IsRejection] at hanswer
  | datagram now peer scratch =>
      have hpeer : (Event.datagram now peer scratch).peer? = some peer := rfl
      cases hrequest : (Event.datagram now peer scratch).request? with
      | none => exact handle_of_request?_eq_none world config hrequest hpeer
      | some request =>
          obtain ⟨hhandle, hserve⟩ := handle_of_request? world config hrequest hpeer
          rw [hserve] at hanswer
          rw [hhandle]
          by_cases hlogin : request.kind = .login
          · cases request with
            | login login => exact absurd hanswer (not_isRejection_serveLogin hconfig h _ _ login)
            | _ => cases hlogin
          · rcases (served_serve now peer hconfig h hlogin).frame h with
              ⟨hsame, -⟩ | ⟨session, -, hnot, -⟩
            · exact hsame
            · exact absurd hanswer hnot

/-- A request of its own closes a session only if it is a logout. -/
theorem isSome_get?_of_own (hconfig : config.Bounded) (h : world.Consistent config)
    {request : Request} {session : Session} (hrequest : event.request? = some request)
    (hfound : request.recognise? world.lobby = some session) (hkind : request.kind ≠ .logout) :
    ((world.handle config event).lobby.get? session.slot).isSome := by
  have fate := fate_of_handle hconfig h (Request.of_recognise? h.lobby hfound).1 event
  generalize (world.handle config event).lobby.get? session.slot = left at fate ⊢
  cases fate with
  | spared _ | heard _ _ _ | seated _ _ | left _ _ => rfl
  | closed closes =>
      obtain ⟨other, hasks, hlogout⟩ := closes
      rw [hasks.unique hrequest] at hlogout
      exact absurd hlogout hkind
  | expired hevent _ =>
      rw [hevent] at hrequest
      cases hrequest

/-- A further login of the device of a client is heard of the client, if nobody else has the
device. -/
theorem handle_of_login (h : world.Consistent config) {session : Session}
    (hlives : world.StillLives client session)
    (hother : ∀ {slot other}, world.lobby.get? slot = some other → slot ≠ client.slot →
      other.device ≠ client.device)
    {login : Wire.Login} (hrequest : event.request? = some (.login login))
    (hdevice : login.device = client.device) :
    ∃ peer, world.handle config event = world.touch client.slot peer event.now := by
  obtain ⟨now, peer, scratch, rfl, -⟩ := Event.request?_eq_some_iff.mp hrequest
  obtain ⟨slot, hfound⟩ : ∃ slot, world.lobby.findByDevice login.device = some slot := by
    refine Option.ne_none_iff_exists'.mp ?_
    rw [hdevice, ← hlives.device_eq]
    exact Lobby.findByDevice_ne_none hlives.get?
  have hslot : slot = client.slot := by
    obtain ⟨other, hget, hsame⟩ := Lobby.of_findByDevice h.lobby hfound
    by_contra hne
    exact hother hget hne (hsame.trans hdevice)
  refine ⟨peer, ?_⟩
  rw [(handle_of_request? world config hrequest rfl).1, ← hslot]
  exact congrArg Prod.fst (serveLogin_of_findByDevice hfound)

/-- A request of a session acts within the rooms that the session is in before and after it. -/
theorem frame_of_own (hconfig : config.Bounded) (h : world.Consistent config) {request : Request}
    {session : Session} (hrequest : event.request? = some request)
    (hfound : request.recognise? world.lobby = some session)
    (hbefore : ∀ id index, world.lobby.seat? session.slot = some ⟨id, index⟩ → entered id)
    (hafter : ∀ id index, (world.handle config event).lobby.seat? session.slot =
      some ⟨id, index⟩ → entered id) :
    Frame session.slot (fun seat => entered seat.room) entered world
      (world.handle config event) := by
  obtain ⟨now, peer, scratch, rfl, -⟩ := Event.request?_eq_some_iff.mp hrequest
  have hlogin : request.kind ≠ .login := by
    intro hlogin
    cases request with
    | login login => cases hfound
    | _ => cases hlogin
  rw [(handle_of_request? world config hrequest rfl).1] at hafter ⊢
  rcases (served_serve now peer hconfig h hlogin).frame h with
    ⟨hsame, -⟩ | ⟨other, hagain, -, hframe⟩
  · show Frame _ _ _ world (world.serve config now peer request).1
    rw [hsame]
    exact .refl world
  · obtain rfl := Option.some.inj (hfound.symm.trans hagain)
    have hget := (Request.of_recognise? h.lobby hfound).1
    refine hframe.mono ?_ ?_
    · rintro ⟨id, index⟩ (hseat | hseat)
      · exact hbefore id index ((Lobby.seat?_of_get? hget).trans hseat)
      · exact hafter id index hseat
    · rintro id ⟨-, index, hseat⟩
      exact hafter id index hseat

/-- A datagram of a visit acts within the rooms that the client enters, and leaves its session
live. -/
theorem Visits.frame (hconfig : config.Bounded) (h : world.Consistent config)
    (visits : Visits config client world event) {session : Session}
    (hlives : world.StillLives client session)
    (hother : ∀ {slot other}, world.lobby.get? slot = some other → slot ≠ client.slot →
      other.device ≠ client.device)
    (hbefore : ∀ id index, world.lobby.seat? client.slot = some ⟨id, index⟩ → entered id)
    (hafter : ∀ id index, (world.handle config event).lobby.seat? client.slot =
      some ⟨id, index⟩ → entered id) :
    Frame client.slot (fun seat => entered seat.room) entered world (world.handle config event) ∧
      ((world.handle config event).lobby.get? client.slot).isSome := by
  have hlive : (world.lobby.get? client.slot).isSome := by rw [hlives.get?]; rfl
  cases visits with
  | rejected hanswer =>
      rw [handle_of_isRejection hconfig h hanswer]
      exact ⟨.refl world, hlive⟩
  | login hrequest hdevice =>
      obtain ⟨peer, hhandle⟩ := handle_of_login h hlives hother hrequest hdevice
      rw [hhandle]
      exact ⟨.touch world peer event.now, by simpa using hlive⟩
  | own hrequest hfound hslot hkind =>
      rw [← hslot] at hbefore hafter ⊢
      exact ⟨frame_of_own hconfig h hrequest hfound hbefore hafter,
        isSome_get?_of_own hconfig h hrequest hfound hkind⟩

/-- Only an empty room is founded. -/
theorem Founds.isEmpty (hconfig : config.Bounded) (h : world.Consistent config) {id : RoomId}
    {room : Room} (founds : Founds config world event id)
    (hroom : world.rooms.room? id = some room) : room.isEmpty = true := by
  obtain ⟨create, index, session, hrequest, hfound, hseat, hafter⟩ := founds
  obtain ⟨now, peer, scratch, rfl, -⟩ := Event.request?_eq_some_iff.mp hrequest
  have hhandle : world.handle config (.datagram now peer scratch) =
      (world.serveCreate config now peer create).1 :=
    (handle_of_request? world config hrequest rfl).1
  have hfound : world.lobby.findByToken create.token create.slot = some session := hfound
  obtain ⟨-, hget, -⟩ := Lobby.of_findByToken h.lobby hfound
  have hunseated := (seat?_touch_of_get? hget peer now).trans hseat
  rw [hhandle, serveCreate_of_eq_some hfound, settle_of_unseated hunseated,
    seat?_answerSeated] at hafter
  rcases (h.touch session.slot peer now).create_cases hconfig session.slot now create.terms with
    hcreate | ⟨founder, first, empty, place, opened, hlive, -, hfirst, hempty, -, hcreate⟩
  · rw [hcreate, hunseated] at hafter
    cases hafter
  · have hsits := (Lobby.seat?_modify_const hlive
      { founder with seat := some ⟨first, place⟩ } session.slot).trans (if_pos rfl)
    rw [hcreate] at hafter
    obtain ⟨⟩ := Option.some.inj (hafter.symm.trans hsits)
    obtain rfl := Option.some.inj (hroom.symm.trans hfirst)
    exact hempty

/-- What holds while a client is there that came to a world. -/
structure Guest (config : Config) (opened : World) (client : Session) (entered : RoomId → Prop)
    (world : World) : Prop where
  consistent : world.Consistent config
  lives : ∃ session, world.StillLives client session
  frame : Frame client.slot (fun seat => entered seat.room) entered opened world
  /-- A room in which somebody else sits is not opened anew. -/
  terms : ∀ {id : RoomId} {room : Room} {slot : SlotId} {index : SeatIndex},
    opened.rooms.room? id = some room → slot ≠ client.slot →
      opened.lobby.seat? slot = some ⟨id, index⟩ →
        ∃ room', world.rooms.room? id = some room' ∧ room'.openSince = room.openSince ∧
          room'.terms = room.terms

namespace Guest

/-- Nobody else has the device of the client, if nobody had it before. -/
theorem device_ne (guest : Guest config opened client entered world)
    (hnew : ∀ {slot other}, opened.lobby.get? slot = some other → slot ≠ client.slot →
      other.device ≠ client.device) {other : Session}
    (hget : world.lobby.get? slot = some other) (hne : slot ≠ client.slot) :
    other.device ≠ client.device := by
  rcases guest.frame.others slot hne with hsame | ⟨session, -, master, hold, -, -, hmarked⟩
  · exact hnew (hsame.symm.trans hget) hne
  · obtain rfl := Option.some.inj (hget.symm.trans hmarked)
    rw [Session.device_setMaster]
    exact hnew hold hne

/-- A datagram of the visit leaves the client there. -/
theorem handle (guest : Guest config opened client entered world) (hconfig : config.Bounded)
    (hnew : ∀ {slot other}, opened.lobby.get? slot = some other → slot ≠ client.slot →
      other.device ≠ client.device)
    (visits : Visits config client world event)
    (hbefore : ∀ id index, world.lobby.seat? client.slot = some ⟨id, index⟩ → entered id)
    (hafter : ∀ id index, (world.handle config event).lobby.seat? client.slot =
      some ⟨id, index⟩ → entered id) :
    Guest config opened client entered (world.handle config event) := by
  have h := guest.consistent
  obtain ⟨session, hlives⟩ := guest.lives
  have hslot : session.slot = client.slot := h.lobby.slot_eq hlives.get?
  obtain ⟨hframe, hlive⟩ := visits.frame hconfig h hlives (guest.device_ne hnew) hbefore hafter
  constructor
  case consistent => exact h.handle event
  case lives =>
    have hget : world.lobby.get? session.slot = some session := by rw [hslot, hlives.get?]
    obtain ⟨session', hlives'⟩ := stillLives_handle hconfig h event hget (hslot ▸ hlive)
    exact ⟨session', hlives.trans hlives' hslot⟩
  case frame => exact guest.frame.trans hframe
  case terms =>
    intro id room slot index hroom hne hseat
    obtain ⟨old, hold, hsince, hterms⟩ := guest.terms hroom hne hseat
    obtain ⟨room', hroom', -⟩ := hframe.cells hold
    refine ⟨room', hroom', ?_⟩
    cases turn_of_handle hconfig h event hold hroom' with
    | kept hsince' hterms' _ _ => exact ⟨hsince'.trans hsince, hterms'.trans hterms⟩
    | founded _ founds _ _ =>
        have hmember := (h.member?_iff hold).mpr ((guest.frame.seat?_eq hne).trans hseat)
        rw [(h.room hold).member?_of_isEmpty (founds.isEmpty hconfig h hold)] at hmember
        cases hmember

/-- A series of datagrams leaves the client there, and the rooms that it enters are those in which
it sits at some time. -/
theorem run (guest : Guest config opened client entered world) (hconfig : config.Bounded)
    (hnew : ∀ {slot other}, opened.lobby.get? slot = some other → slot ≠ client.slot →
      other.device ≠ client.device)
    (events : List Event)
    (hvisits : ∀ early event, early ++ [event] <+: events →
      Visits config client (world.run config early) event)
    (hentered : ∀ early, early <+: events → ∀ id index,
      (world.run config early).lobby.seat? client.slot = some ⟨id, index⟩ → entered id) :
    Guest config opened client entered (world.run config events) := by
  induction events generalizing world with
  | nil => exact guest
  | cons event rest ih =>
      have hbegins : [event] <+: event :: rest :=
        List.cons_prefix_cons.mpr ⟨rfl, List.nil_prefix⟩
      have next := guest.handle hconfig hnew (hvisits [] event hbegins)
        (hentered [] List.nil_prefix) (hentered [event] hbegins)
      refine ih next ?_ ?_
      · intro early last hearly
        exact hvisits (event :: early) last (List.cons_prefix_cons.mpr ⟨rfl, hearly⟩)
      · intro early hearly
        exact hentered (event :: early) (List.cons_prefix_cons.mpr ⟨rfl, hearly⟩)

end Guest

/-- Whether an event is a logout that closes the session of a client. -/
def EndsVisit (client : Session) (world : World) (event : Event) : Prop :=
  ∃ logout session, event.request? = some (.logout logout) ∧
    (Request.logout logout).recognise? world.lobby = some session ∧ session.slot = client.slot

/-- A logout that is recognised is accepted. -/
theorem handle_of_endsVisit (h : world.Consistent config) (ends : EndsVisit client world event) :
    world.handle config event = (world.remove client.slot).1 ∧
      world.answer config event = .status .ok := by
  obtain ⟨logout, session, hrequest, hfound, hclient⟩ := ends
  obtain ⟨now, peer, scratch, rfl, -⟩ := Event.request?_eq_some_iff.mp hrequest
  obtain ⟨hhandle, hanswer⟩ := handle_of_request? world config hrequest rfl
  have hfound : world.lobby.findByCredentials logout.credentials = some session := hfound
  obtain ⟨hslot, hget, -, -⟩ := Lobby.of_findByCredentials h.lobby hfound
  have hserve : world.serveLogout config logout =
      ((world.remove session.slot).1, .status .ok) := by
    rw [serveLogout_of_position_lt hslot (h.lobby.position_lt hget), hfound]
  rw [hhandle, hanswer, ← hclient]
  exact ⟨congrArg Prod.fst hserve, congrArg Prod.snd hserve⟩

/-- Whether the tables are what they were before, but for the marks of those who sit in the rooms
that were entered, and for the terms of the rooms that were empty. -/
structure Restored (entered : RoomId → Prop) (before after : World) : Prop where
  capacity : after.lobby.capacity = before.lobby.capacity
  live : after.lobby.live = before.lobby.live
  sessions : ∀ slot, after.lobby.get? slot = before.lobby.get? slot ∨
    ∃ session seat master, before.lobby.get? slot = some session ∧ session.seat = some seat ∧
      entered seat.room ∧ after.lobby.get? slot = some (session.setMaster master)
  size : after.rooms.size = before.rooms.size
  rooms : ∀ {id room}, before.rooms.room? id = some room →
    ∃ room', after.rooms.room? id = some room' ∧ room'.id = room.id ∧
      room'.cells = room.cells ∧ room'.memberCount = room.memberCount ∧
      (room.isEmpty = false → room' = room)

namespace Opens

variable {start : World}

/-- A session that is opened takes nobody's seat. -/
theorem seat?_of_ne (hopens : Opens client start opened) (hne : slot ≠ client.slot) :
    opened.lobby.seat? slot = start.lobby.seat? slot := by
  rw [Lobby.seat?, hopens.get?, if_neg hne.symm, Lobby.seat?]

/-- In a room that had members there sits somebody else. -/
theorem exists_seat?_of_ne (hopens : Opens client start opened)
    (hstart : start.Consistent config) {id : RoomId} {room : Room}
    (hroom : start.rooms.room? id = some room) (hmembers : room.isEmpty = false) :
    ∃ slot index, slot ≠ client.slot ∧ opened.lobby.seat? slot = some ⟨id, index⟩ := by
  obtain ⟨session, index, hsits⟩ := (hstart.occupied_iff hroom).mpr hmembers
  have hne : session.slot ≠ client.slot := by
    intro heq
    have htaken := hsits.seat?
    rw [heq, Lobby.seat?, hopens.free] at htaken
    cases htaken
  exact ⟨session.slot, index, hne, (hopens.seat?_of_ne hne).trans hsits.seat?⟩

end Opens

namespace Guest

variable {start : World}

/-- When the client is gone, nobody has another seat than before it came. -/
theorem seat?_remove (guest : Guest config opened client entered world)
    (hopens : Opens client start opened) (slot : SlotId) :
    (world.remove client.slot).1.lobby.seat? slot = start.lobby.seat? slot := by
  by_cases hslot : client.slot = slot
  · subst hslot
    rw [Lobby.seat?, get?_remove, if_pos rfl, Lobby.seat?, hopens.free]
  · rw [← hopens.seat?_of_ne (Ne.symm hslot), ← guest.frame.seat?_eq (Ne.symm hslot), Lobby.seat?,
      get?_remove, if_neg hslot, Lobby.seat?]

/-- When the client is gone, each session is what it was before it came, but for its mark. -/
theorem get?_remove (guest : Guest config opened client entered world)
    (hopens : Opens client start opened) (slot : SlotId) :
    (world.remove client.slot).1.lobby.get? slot = start.lobby.get? slot ∨
      ∃ session seat master, start.lobby.get? slot = some session ∧ session.seat = some seat ∧
        entered seat.room ∧
        (world.remove client.slot).1.lobby.get? slot = some (session.setMaster master) := by
  rw [World.get?_remove]
  split
  · next hslot =>
    subst hslot
    exact .inl hopens.free.symm
  · next hslot =>
    have hopened : opened.lobby.get? slot = start.lobby.get? slot := by
      rw [hopens.get?, if_neg hslot]
    rw [← hopened]
    exact guest.frame.others slot (Ne.symm hslot)

/-- When the client is gone, a room in which others sit is what it was before it came. -/
theorem room?_remove (guest : Guest config opened client entered world)
    (hstart : start.Consistent config) (hopens : Opens client start opened)
    (hrooms : opened.rooms = start.rooms) {id : RoomId} {room : Room}
    (hroom : start.rooms.room? id = some room) :
    ∃ room', (world.remove client.slot).1.rooms.room? id = some room' ∧ room'.id = room.id ∧
      room'.cells = room.cells ∧ room'.memberCount = room.memberCount ∧
      (room.isEmpty = false → room' = room) := by
  have hafter := guest.consistent.remove client.slot
  have hopened : opened.rooms.room? id = some room := by rw [hrooms, hroom]
  obtain ⟨mid, hmid, -⟩ := guest.frame.cells hopened
  have left : Frame client.slot (fun _ => True) entered world (world.remove client.slot).1 :=
    (Frame.leave fun _ _ => trivial).trans (.release _)
  obtain ⟨room', hroom', -⟩ := left.cells hmid
  have hid : room'.id = room.id := (hafter.room_id hroom').trans (hstart.room_id hroom).symm
  have hcells : room'.cells = room.cells :=
    hstart.cells_eq hafter hroom hroom' (guest.seat?_remove hopens)
  have hcount : room'.memberCount = room.memberCount := by
    rw [(hafter.room hroom').memberCount_eq, hcells, ← (hstart.room hroom).memberCount_eq]
  refine ⟨room', hroom', hid, hcells, hcount, ?_⟩
  intro hmembers
  obtain ⟨slot, index, hne, hseat⟩ := hopens.exists_seat?_of_ne hstart hroom hmembers
  obtain ⟨mid', hmid', hsince, hterms⟩ := guest.terms hopened hne hseat
  obtain rfl := Option.some.inj (hmid.symm.trans hmid')
  obtain ⟨mid', hmid', hsince', hterms', -⟩ :=
    keepsTerms_remove world client.slot id room' hroom'
  obtain rfl := Option.some.inj (hmid.symm.trans hmid')
  exact Room.ext hid hcount hcells (hsince'.trans hsince) (hterms'.trans hterms)

/-- When the client is gone, the tables are what they were before it came. -/
theorem restored (guest : Guest config opened client entered world)
    (hstart : start.Consistent config) (hopens : Opens client start opened)
    (hrooms : opened.rooms = start.rooms) :
    Restored entered start (world.remove client.slot).1 := by
  have hafter := guest.consistent.remove client.slot
  constructor
  case capacity => exact hafter.lobby.capacity_eq.trans hstart.lobby.capacity_eq.symm
  case live =>
    refine hafter.lobby.live_eq_of_isSome hstart.lobby fun slot => ?_
    rcases guest.get?_remove hopens slot with hsame | ⟨_, _, _, hget, -, -, hmarked⟩
    · rw [hsame]
    · rw [hget, hmarked]
      rfl
  case sessions => exact guest.get?_remove hopens
  case size => exact hafter.size_eq.trans hstart.size_eq.symm
  case rooms => exact guest.room?_remove hstart hopens hrooms

end Guest

/-- A device that has no session is given one if a slot is free. -/
theorem exists_opened (hconfig : config.Bounded) (h : world.Consistent config) (now : Instant)
    (peer : SocketAddress) {scratch : Scratch} {login : Wire.Login}
    (hdecode : Request.decode scratch.datagram = .ok (.login login))
    (hnew : ∀ slot session, world.lobby.get? slot = some session → session.device ≠ login.device)
    (hfree : ∃ slot : SlotId, slot.position < config.lobbyCapacity ∧
      world.lobby.get? slot = none) :
    ∃ client, client.device = login.device ∧
      Opened config world (.datagram now peer scratch) client ∧
      Opens client world (world.handle config (.datagram now peer scratch)) ∧
      (world.handle config (.datagram now peer scratch)).rooms = world.rooms := by
  have hunknown := (Lobby.findByDevice_eq_none_iff h.lobby).mpr hnew
  obtain ⟨free, hlt, hnone⟩ := hfree
  have hfull := h.lobby.isFull_of_get?_eq_none hlt hnone
  obtain ⟨slot, hslot⟩ := h.exists_openSession hconfig hfull login.device peer now
  have hhandle : world.handle config (.datagram now peer scratch) =
      (world.openSession login.device peer now).1 := by
    rw [handle, world_dispatch, receive_of_decode _ _ _ _ hdecode]
    exact (serveLogin_of_openSession hunknown hfull).1
  rw [hhandle]
  exact ⟨_, rfl, opened_of_openSession hdecode hunknown hfull hslot, opens_openSession hslot, rfl⟩

/-- A client leaves nothing behind. Take any world in which a device has no session and a slot is
free, and let the device log in, at whatever reading of the clock: a session is opened for it. Then
take any datagrams that are rejected, log the device in again, or are requests of that session other
than a logout. If in the end its logout comes, it is accepted, and the tables are what they were
before, but for the marks of those who sit in a room that the client was in, and for the terms of
the rooms that were empty. -/
theorem restored_of_run (hconfig : config.validate = .ok ()) {start : World}
    (h : Reachable config start) (now : Instant) (peer : SocketAddress) {scratch : Scratch}
    {login : Wire.Login} (hdecode : Request.decode scratch.datagram = .ok (.login login))
    (hnew : ∀ slot session, start.lobby.get? slot = some session → session.device ≠ login.device)
    (hfree : ∃ slot : SlotId, slot.position < config.lobbyCapacity ∧
      start.lobby.get? slot = none) :
    let first := Event.datagram now peer scratch
    ∃ client, client.device = login.device ∧ Opened config start first client ∧
      ∀ middle last,
        (∀ early event, early ++ [event] <+: middle →
          Visits config client (start.run config (first :: early)) event) →
        EndsVisit client (start.run config (first :: middle)) last →
          (start.run config (first :: middle)).answer config last = .status .ok ∧
            Restored (fun id => ∃ early index, early <+: middle ∧
                (start.run config (first :: early)).lobby.seat? client.slot = some ⟨id, index⟩)
              start (start.run config (first :: middle ++ [last])) := by
  intro first
  have bounded := Config.bounded_of_validate hconfig
  have consistent := Consistent.of_reachable h
  obtain ⟨client, hdevice, opened, hopens, hrooms⟩ :=
    exists_opened bounded consistent now peer hdecode hnew hfree
  refine ⟨client, hdevice, opened, ?_⟩
  intro middle last hvisits hends
  have hothers : ∀ {slot other}, (start.handle config first).lobby.get? slot = some other →
      slot ≠ client.slot → other.device ≠ client.device := by
    intro slot other hget hne
    rw [hopens.get?, if_neg hne.symm] at hget
    rw [hdevice]
    exact hnew slot other hget
  have arrived : Guest config (start.handle config first) client
      (fun id => ∃ early index, early <+: middle ∧
        (start.run config (first :: early)).lobby.seat? client.slot = some ⟨id, index⟩)
      (start.handle config first) :=
    { consistent := consistent.handle first
      lives := ⟨client, (hopens.get? client.slot).trans (if_pos rfl), rfl, rfl⟩
      frame := .refl _
      terms := fun hroom _ _ => ⟨_, hroom, rfl, rfl⟩ }
  have stayed := arrived.run bounded hothers middle hvisits
    fun early hearly id index hseat => ⟨early, index, hearly, hseat⟩
  obtain ⟨hhandle, hanswer⟩ := handle_of_endsVisit stayed.consistent hends
  have hend : start.run config (first :: middle ++ [last]) =
      ((start.run config (first :: middle)).remove client.slot).1 :=
    (run_concat start config (first :: middle) last).trans hhandle
  rw [hend]
  exact ⟨hanswer, stayed.restored consistent hopens hrooms⟩

/-- A second device logs in, joins the room that the first one has opened, and logs out from another
address. -/
theorem restored_of_second :
    let start := (ofConfig .small).run .small (smallPair.take 2)
    let device : Wire.Device := Vector.replicate _ 8
    let join : Event := .datagram 5 smallPeer
      ⟨.empty, Wire.Join.record.bytes ⟨654989, 1, Vector.replicate _ ⟨0, 9⟩⟩⟩
    let logout : Event := .datagram 6 (.anyV4 40001)
      ⟨.empty, Wire.Logout.record.bytes ⟨⟨654989, 1, 0, 1⟩⟩⟩
    Config.validate .small = .ok () ∧ Reachable .small start ∧
      (∀ slot session, start.lobby.get? slot = some session → session.device ≠ device) ∧
      (∃ slot : SlotId, slot.position < Config.small.lobbyCapacity ∧
        start.lobby.get? slot = none) ∧
      ∃ client, client.device = device ∧ Opened .small start (smallLogin 8) client ∧
        Visits .small client (start.run .small [smallLogin 8]) join ∧
        EndsVisit client (start.run .small [smallLogin 8, join]) logout ∧
        Restored (fun id => ∃ early index, early <+: [join] ∧
            (start.run .small (smallLogin 8 :: early)).lobby.seat? client.slot =
              some ⟨id, index⟩)
          start (start.run .small [smallLogin 8, join, logout]) := by
  intro start device join logout
  have hconfig : Config.validate .small = .ok () := rfl
  have hreachable : Reachable .small start := ⟨_, rfl⟩
  let scratch : Scratch := ⟨.empty, Wire.Login.record.bytes ⟨device⟩⟩
  have hdecode : Request.decode scratch.datagram = .ok (.login ⟨device⟩) := by decide +kernel
  have hnew : ∀ slot session, start.lobby.get? slot = some session → session.device ≠ device := by
    intro slot session hget heq
    have hunknown : start.lobby.findByDevice device = none := by decide +kernel
    exact Lobby.findByDevice_ne_none hget (heq ▸ hunknown)
  have hfree : ∃ slot : SlotId, slot.position < Config.small.lobbyCapacity ∧
      start.lobby.get? slot = none :=
    ⟨⟨1⟩, by decide, by decide +kernel⟩
  obtain ⟨client, hdevice, opened, hvisit⟩ :=
    restored_of_run hconfig hreachable 0 smallPeer hdecode hnew hfree
  have hslot : client.slot = ⟨1⟩ := by
    have hslots : (start.run .small [smallLogin 8]).lobby.sessions.map
        (fun session => (session.slot, session.device)) =
          [(⟨0⟩, Vector.replicate _ 7), (⟨1⟩, device)] := by
      decide +kernel
    have consistent := Consistent.of_reachable (hreachable.handle (smallLogin 8))
    have hmem := List.mem_map_of_mem (f := fun session => (session.slot, session.device))
      (consistent.lobby.mem_sessions.mpr opened.get?)
    rw [show start.handle .small (smallLogin 8) = start.run .small [smallLogin 8] from rfl, hslots,
      hdevice] at hmem
    rcases List.mem_cons.mp hmem with hfirst | hsecond
    · have hother : device ≠ Vector.replicate _ 7 := by decide
      exact absurd (congrArg Prod.snd hfirst) hother
    · exact congrArg Prod.fst (List.mem_singleton.mp hsecond)
  let second : Session :=
    { slot := ⟨1⟩, device, token := ⟨654989, by decide⟩
      peer := smallPeer, lastActive := 0, seat := none, flags := 0 }
  let seated : Session :=
    { second with lastActive := 5, seat := some ⟨⟨0⟩, ⟨1⟩⟩ }
  have hjoin : Visits .small client (start.run .small [smallLogin 8]) join := by
    have hrequest : join.request? = some (.join ⟨654989, 1, Vector.replicate _ ⟨0, 9⟩⟩) := by
      decide +kernel
    have hfound : (start.run .small [smallLogin 8]).lobby.findByToken 654989 1 = some second := by
      decide +kernel
    exact .own hrequest hfound hslot.symm nofun
  have hlogout : EndsVisit client (start.run .small [smallLogin 8, join]) logout := by
    have hrequest : logout.request? = some (.logout ⟨⟨654989, 1, 0, 1⟩⟩) := by decide +kernel
    have hfound : (start.run .small [smallLogin 8, join]).lobby.findByCredentials
        ⟨654989, 1, 0, 1⟩ = some seated := by
      decide +kernel
    exact ⟨_, seated, hrequest, hfound, hslot.symm⟩
  have hmiddle : ∀ early event, early ++ [event] <+: [join] →
      Visits .small client (start.run .small (smallLogin 8 :: early)) event := by
    intro early event hearly
    have hlength := hearly.length_le
    obtain rfl : early = [] := List.length_eq_zero_iff.mp (by simpa using hlength)
    obtain ⟨rfl, -⟩ := List.cons_prefix_cons.mp hearly
    exact hjoin
  exact ⟨hconfig, hreachable, hnew, hfree, client, hdevice, opened, hjoin, hlogout,
    (hvisit [join] logout hmiddle hlogout).2⟩

end World
end RoomRelay
