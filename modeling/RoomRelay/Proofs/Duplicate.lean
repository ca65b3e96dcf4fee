import RoomRelay.Proofs.Answer
import RoomRelay.Proofs.Credentials
import RoomRelay.Proofs.Service

/-!
# Datagrams that arrive twice

The network may deliver a datagram more than once. To serve a request again, for the same peer and
at the same reading of the clock, changes nothing more. It is also answered as it was before, unless
the first copy took away that by which the session recognises it: its slot, or the seat that it
names.
-/

namespace RoomRelay.World

variable {config : Config} {world : World} {now : Instant} {peer : SocketAddress}

theorem servePing_again (h : world.Consistent config) (ping : Wire.Ping) :
    (world.servePing now peer ping).1.servePing now peer ping =
      world.servePing now peer ping := by
  cases hfound : world.lobby.findByCredentials ping.credentials with
  | none =>
      rw [servePing_of_eq_none hfound]
      exact servePing_of_eq_none hfound
  | some session =>
      have hagain : (world.touch session.slot peer now).lobby.findByCredentials ping.credentials =
          some (session.touch peer now) := Lobby.findByCredentials_touch h.lobby hfound
      rw [servePing_of_eq_some hfound, servePing_of_eq_some hagain, Session.slot_touch, touch_touch]

theorem answerMember_again (h : world.Consistent config) (credentials : Wire.Credentials)
    (seat : Seat) (answer : Lobby → Room → Answer) :
    (world.answerMember now peer credentials seat answer).1.answerMember now peer credentials seat
        answer =
      world.answerMember now peer credentials seat answer := by
  cases hfound : world.lobby.findByCredentials credentials with
  | none =>
      rw [answerMember_of_eq_none hfound]
      exact answerMember_of_eq_none hfound seat answer
  | some session =>
      have hagain : (world.touch session.slot peer now).lobby.findByCredentials credentials =
          some (session.touch peer now) := Lobby.findByCredentials_touch h.lobby hfound
      rw [answerMember_of_eq_some hfound, answerMember_of_eq_some hagain, Session.slot_touch,
        touch_touch]
      rfl

/-- A packet for members is served again as it was. -/
theorem ForMembers.again (h : world.Consistent config) {credentials : Wire.Credentials}
    {serve : World → World × Answer} (members : ForMembers config now peer credentials serve) :
    serve (serve world).1 = serve world := by
  cases members with
  | dropped => rfl
  | answered _ _ => exact answerMember_again h credentials _ _

/-- A device that was just heard of is welcomed as it was. -/
theorem serveLogin_of_heard {login : Wire.Login}
    {slot : SlotId} {session : Session} (hfound : world.lobby.findByDevice login.device = some slot)
    (hget : world.lobby.get? slot = some session) (hpeer : session.peer = peer)
    (hactive : session.lastActive = now) :
    world.serveLogin now peer login = (world, welcome world.lobby slot) := by
  rw [serveLogin_of_findByDevice hfound, touch, Lobby.touch_eq_self hget hpeer hactive]

/-- The session that was opened for a device is found by it, if there was no other. -/
theorem findByDevice_openSession (h : world.Consistent config) {device : Wire.Device}
    {slot : SlotId} (hfound : world.lobby.findByDevice device = none)
    (hslot : (world.openSession device peer now).2 = some slot) :
    (world.openSession device peer now).1.lobby.findByDevice device = some slot := by
  have hopened := (h.openSession device peer now).lobby
  have hget := get?_openSession hslot
  generalize (world.openSession device peer now).1 = opened at hopened hget ⊢
  have hfresh := (hget slot).trans (if_pos rfl)
  cases hagain : opened.lobby.findByDevice device with
  | none => exact absurd hagain (Lobby.findByDevice_ne_none hfresh)
  | some other =>
      obtain ⟨session, hsession, hdevice⟩ := Lobby.of_findByDevice hopened hagain
      by_cases heq : slot = other
      · rw [heq]
      · rw [hget, if_neg heq] at hsession
        subst hdevice
        exact absurd hfound (Lobby.findByDevice_ne_none hsession)

theorem serveLogin_again (hconfig : config.Bounded) (h : world.Consistent config)
    (login : Wire.Login) :
    (world.serveLogin now peer login).1.serveLogin now peer login =
      world.serveLogin now peer login := by
  cases hfound : world.lobby.findByDevice login.device with
  | none =>
      cases hfull : world.lobby.isFull with
      | false =>
          obtain ⟨slot, hslot⟩ := h.exists_openSession hconfig hfull login.device peer now
          have hfresh := (get?_openSession hslot slot).trans (if_pos rfl)
          obtain ⟨hworld, hanswer⟩ := serveLogin_of_openSession hfound hfull
          rw [hworld]
          exact (serveLogin_of_heard (findByDevice_openSession h hfound hslot) hfresh rfl rfl).trans
            (Prod.ext hworld.symm (hanswer slot hslot).symm)
      | true =>
          rw [serveLogin_of_isFull hfound hfull]
          exact serveLogin_of_isFull hfound hfull
  | some slot =>
      obtain ⟨session, hget, -⟩ := Lobby.of_findByDevice h.lobby hfound
      have htouched : (world.touch slot peer now).lobby.get? slot =
          some (session.touch peer now) := by
        simp [hget]
      have hagain : (world.touch slot peer now).lobby.findByDevice login.device = some slot := by
        rw [touch, Lobby.findByDevice_touch, hfound]
      rw [serveLogin_of_findByDevice hfound]
      exact serveLogin_of_heard hagain htouched rfl rfl

/-- Whoever asked for a seat is recognised as before, and was just heard of. -/
theorem findByToken_settle (h : world.Consistent config) {token : UInt32} {raw : Int16}
    {session : Session} (hfound : world.lobby.findByToken token raw = some session)
    (attempt : World → World × Bool)
    (hattempt : (world.touch session.slot peer now).Attempts session.slot
      (attempt (world.touch session.slot peer now)))
    (refusal : Wire.Status) (answer : Seat → Room → UInt8 → Answer) :
    let settled := ((world.touch session.slot peer now).settle config now session.slot attempt
      refusal answer).1
    ∃ found, settled.lobby.findByToken token raw = some found ∧ found.slot = session.slot ∧
      settled.touch session.slot peer now = settled := by
  obtain ⟨-, hget, -⟩ := Lobby.of_findByToken h.lobby hfound
  have htouched : (world.touch session.slot peer now).lobby.get? session.slot =
      some (session.touch peer now) := by
    simp [hget]
  have heard : ∀ {after : World} {record : Session},
      after.lobby.get? session.slot = some record → record.slot = session.slot →
      record.token = session.token → record.peer = peer → record.lastActive = now →
        ∃ found, after.lobby.findByToken token raw = some found ∧ found.slot = session.slot ∧
          after.touch session.slot peer now = after := by
    intro after record hrecord hslot htoken hpeer hactive
    refine ⟨record, Lobby.findByToken_of_get? h.lobby hfound hrecord htoken, hslot, ?_⟩
    rw [touch, Lobby.touch_eq_self hrecord hpeer hactive]
  rcases settle_cases now refusal answer (h.touch session.slot peer now)
    (isSome_get?_touch hget) hattempt with
    hrefused | ⟨seat, seated, room, hseated, -, -, -, hsettled⟩
  · rw [hrefused]
    exact heard htouched rfl rfl rfl rfl
  · rw [hsettled]
    obtain ⟨master, helected⟩ :=
      seated.lobby.exists_get?_elect room now config.masterTimeout session.slot
    cases hseated with
    | inl hsame =>
        subst hsame
        rw [htouched] at helected
        exact heard helected (by simp) (by simp) (by simp) (by simp)
    | inr hsits =>
        obtain ⟨before, hbefore, -, hafter⟩ := hsits.get?
        rw [htouched] at hbefore
        cases hbefore
        rw [hafter] at helected
        exact heard helected (by simp) (by simp) (by simp) (by simp)

/-- Asking again for a seat finds the session, its activity recorded and its seat taken. -/
theorem settle_again (h : world.Consistent config) {token : UInt32} {raw : Int16}
    {session : Session} (hfound : world.lobby.findByToken token raw = some session)
    (attempt : World → World × Bool)
    (hattempt : (world.touch session.slot peer now).Attempts session.slot
      (attempt (world.touch session.slot peer now)))
    (refusal : Wire.Status) (answer : Seat → Room → UInt8 → Answer) :
    let settled := (world.touch session.slot peer now).settle config now session.slot attempt
      refusal answer
    ∃ found, settled.1.lobby.findByToken token raw = some found ∧ found.slot = session.slot ∧
      (settled.1.touch session.slot peer now).settle config now session.slot attempt refusal
        answer = settled := by
  obtain ⟨found, hagain, hslot, hheard⟩ :=
    findByToken_settle h hfound attempt hattempt refusal answer
  obtain ⟨-, hget, -⟩ := Lobby.of_findByToken h.lobby hfound
  refine ⟨found, hagain, hslot, ?_⟩
  rw [hheard]
  exact settle_settle (h.touch session.slot peer now) (isSome_get?_touch hget) hattempt

theorem serveCreate_again (hconfig : config.Bounded) (h : world.Consistent config)
    (create : Wire.Create) :
    (world.serveCreate config now peer create).1.serveCreate config now peer create =
      world.serveCreate config now peer create := by
  cases hfound : world.lobby.findByToken create.token create.slot with
  | none =>
      rw [serveCreate_of_eq_none hfound]
      exact serveCreate_of_eq_none hfound
  | some session =>
      rw [serveCreate_of_eq_some hfound]
      obtain ⟨found, hagain, hslot, hsettled⟩ := settle_again h hfound
        (fun world => world.create session.slot now create.terms)
        (attempts_create hconfig (h.touch session.slot peer now) now create.terms) .full _
      rw [serveCreate_of_eq_some hagain, hslot]
      exact hsettled

theorem serveJoin_again (h : world.Consistent config) (join : Wire.Join) :
    (world.serveJoin config now peer join).1.serveJoin config now peer join =
      world.serveJoin config now peer join := by
  cases hfound : world.lobby.findByToken join.token join.slot with
  | none =>
      rw [serveJoin_of_eq_none hfound]
      exact serveJoin_of_eq_none hfound
  | some session =>
      rw [serveJoin_of_eq_some hfound]
      obtain ⟨found, hagain, hslot, hsettled⟩ := settle_again h hfound
        (fun world => world.matchmake session.slot join.ranges now)
        (attempts_matchmake join.ranges now) .unmatched _
      rw [serveJoin_of_eq_some hagain, hslot]
      exact hsettled

/-- Credentials with a seat name nobody once the session has left the seat. -/
theorem findByCredentials_leave (hconfig : config.Bounded) (h : world.Consistent config)
    {credentials : Wire.Credentials} {session : Session} {seat : Seat}
    (hfound : world.lobby.findByCredentials credentials = some session)
    (hseat : session.seat = some seat) :
    ((world.touch session.slot peer now).leave session.slot).lobby.findByCredentials credentials =
      none := by
  obtain ⟨hslot, hget, -, hplace⟩ := Lobby.of_findByCredentials h.lobby hfound
  apply Option.eq_none_iff_forall_ne_some.mpr
  intro found hagain
  have after := (h.touch session.slot peer now).leave session.slot
  obtain ⟨hslot', hget', -, hplace'⟩ := Lobby.of_findByCredentials after.lobby hagain
  have hsame : session.slot = found.slot := Option.some.inj (hslot.symm.trans hslot')
  have hleft : found.seat = none := by
    rw [← Lobby.seat?_of_get? hget', ← hsame, seat?_leave]
  have hseated : world.lobby.seat? session.slot = some seat := by
    rw [Lobby.seat?_of_get? hget, hseat]
  rw [hleft, ← hplace, hseat] at hplace'
  exact Seat.toWire_some_ne (h.room_le hconfig hseated) hplace'.symm

/-- Credentials name nobody once the session is closed. -/
theorem findByCredentials_remove (h : world.Consistent config) {credentials : Wire.Credentials}
    {session : Session} (hfound : world.lobby.findByCredentials credentials = some session) :
    (world.remove session.slot).1.lobby.findByCredentials credentials = none := by
  obtain ⟨hslot, -, -, -⟩ := Lobby.of_findByCredentials h.lobby hfound
  apply Option.eq_none_iff_forall_ne_some.mpr
  intro found hagain
  obtain ⟨hslot', hget', -, -⟩ :=
    Lobby.of_findByCredentials (h.remove session.slot).lobby hagain
  have hsame : session.slot = found.slot := Option.some.inj (hslot.symm.trans hslot')
  rw [remove, release, Lobby.get?_release, if_pos hsame] at hget'
  cases hget'

/-- A session without a seat may leave again and again. -/
theorem serveLeave_again (h : world.Consistent config) (leave : Wire.Leave)
    (hstays : ∀ session, world.lobby.findByCredentials leave.credentials = some session →
      session.seat = none) :
    (world.serveLeave now peer leave).1.serveLeave now peer leave =
      world.serveLeave now peer leave := by
  cases hfound : world.lobby.findByCredentials leave.credentials with
  | none =>
      rw [serveLeave_of_eq_none hfound]
      exact serveLeave_of_eq_none hfound
  | some session =>
      obtain ⟨-, hget, -, -⟩ := Lobby.of_findByCredentials h.lobby hfound
      have hunseated := (seat?_touch_of_get? hget peer now).trans (hstays session hfound)
      have hagain : (world.touch session.slot peer now).lobby.findByCredentials
          leave.credentials = some (session.touch peer now) :=
        Lobby.findByCredentials_touch h.lobby hfound
      rw [serveLeave_of_eq_some hfound, leave_eq_self _ _ hunseated,
        serveLeave_of_eq_some hagain, Session.slot_touch, touch_touch,
        leave_eq_self _ _ hunseated]

theorem serveLeave_of_left (hconfig : config.Bounded) (h : world.Consistent config)
    {leave : Wire.Leave} {session : Session} {seat : Seat}
    (hfound : world.lobby.findByCredentials leave.credentials = some session)
    (hseat : session.seat = some seat) :
    let left := (world.serveLeave now peer leave).1
    left.serveLeave now peer leave = (left, .status .expired) := by
  rw [serveLeave_of_eq_some hfound]
  exact serveLeave_of_eq_none (findByCredentials_leave hconfig h hfound hseat)

/-- A logout that is repeated is rejected as it was, or because it closed the session. -/
theorem serveLogout_again (h : world.Consistent config) (logout : Wire.Logout) :
    world.serveLogout config logout = (world, .drop) ∨
      world.serveLogout config logout = (world, .status .expired) ∨
      ∃ closed, world.serveLogout config logout = (closed, .status .ok) ∧
        closed.serveLogout config logout = (closed, .status .expired) := by
  rcases world.serveLogout_cases config logout with hsame | hsame | ⟨session, hfound, hclosed⟩
  · exact .inl hsame
  · exact .inr (.inl hsame)
  · obtain ⟨hslot, hget, -, -⟩ := Lobby.of_findByCredentials h.lobby hfound
    have hlt := h.lobby.position_lt hget
    refine .inr (.inr ⟨(world.remove session.slot).1, hclosed, ?_⟩)
    rw [serveLogout_of_position_lt hslot hlt, findByCredentials_remove h hfound]

/-- Whether a request is carried out and takes away that by which its session recognises it. -/
def Departs (world : World) (config : Config) (now : Instant) (peer : SocketAddress)
    (request : Request) : Prop :=
  (world.serve config now peer request).2 = .status .ok ∧
    (request.kind = .logout ∨
      request.kind = .leave ∧ ∃ session seat, request.recognise? world.lobby = some session ∧
        session.seat = some seat)

/-- Serving a request again changes nothing more. It is answered as before, unless it took away
that by which its session recognises it. -/
theorem serve_again (now : Instant) (peer : SocketAddress) (hconfig : config.Bounded)
    (h : world.Consistent config) (request : Request) :
    let first := world.serve config now peer request
    (world.Departs config now peer request →
        first.1.serve config now peer request = (first.1, .status .expired)) ∧
      (¬ world.Departs config now peer request →
        first.1.serve config now peer request = first) := by
  have repeated : ∀ {request : Request}, request.kind ≠ .logout → request.kind ≠ .leave →
      (world.serve config now peer request).1.serve config now peer request =
        world.serve config now peer request →
      let first := world.serve config now peer request
      (world.Departs config now peer request →
          first.1.serve config now peer request = (first.1, .status .expired)) ∧
        (¬ world.Departs config now peer request →
          first.1.serve config now peer request = first) := by
    intro request hlogout hleave hagain
    refine ⟨?_, fun _ => hagain⟩
    rintro ⟨-, hkind | ⟨hkind, -⟩⟩
    · exact absurd hkind hlogout
    · exact absurd hkind hleave
  cases request with
  | ping ping => exact repeated nofun nofun (servePing_again h ping)
  | login login => exact repeated nofun nofun (serveLogin_again hconfig h login)
  | create create => exact repeated nofun nofun (serveCreate_again hconfig h create)
  | join join => exact repeated nofun nofun (serveJoin_again h join)
  | unreliable header =>
      exact repeated nofun nofun ((forMembers_serveUnreliable config now peer header).again h)
  | reliable header =>
      exact repeated nofun nofun ((forMembers_serveReliable config now peer header).again h)
  | relied relied =>
      exact repeated nofun nofun ((forMembers_serveRelied config now peer relied).again h)
  | leave leave =>
      refine ⟨?_, fun hstays => serveLeave_again h leave fun session hfound => ?_⟩
      · rintro ⟨-, hkind | ⟨-, session, seat, hfound, hseat⟩⟩
        · cases hkind
        · exact serveLeave_of_left hconfig h hfound hseat
      · refine Option.eq_none_iff_forall_ne_some.mpr fun seat hseat => hstays ?_
        have hanswer : (world.serveLeave now peer leave).2 = .status .ok := by
          rw [serveLeave_of_eq_some hfound]
        exact ⟨hanswer, .inr ⟨rfl, session, seat, hfound, hseat⟩⟩
  | logout logout =>
      have hserve : ∀ world : World,
          world.serve config now peer (.logout logout) = world.serveLogout config logout :=
        fun _ => rfl
      simp only [Departs, hserve]
      rcases serveLogout_again h logout with hsame | hsame | ⟨closed, hclosed, hagain⟩
      · simp only [hsame]
        exact ⟨nofun, fun _ => trivial⟩
      · simp only [hsame]
        exact ⟨fun _ => trivial, fun _ => trivial⟩
      · simp only [hclosed, hagain]
        exact ⟨fun _ => trivial, fun hstays => absurd ⟨trivial, .inl rfl⟩ hstays⟩

/-- A datagram that arrives twice, with nothing in between, has no effect the second time, whatever
the writer holds then. What is sent is what was sent the first time, except that a session which was
closed or has left its seat is not recognised any more. -/
theorem duplicate_of_dispatch (hconfig : config.validate = .ok ()) (h : Reachable config world)
    (now : Instant) (peer : SocketAddress) (scratch : Scratch) (writer : Wire.Writer) :
    let first := world.dispatch config now scratch peer
    let second := first.world.dispatch config now ⟨writer, scratch.datagram⟩ peer
    second.world = first.world ∧
      (∀ request, Request.decode scratch.datagram = .ok request →
        world.Departs config now peer request →
          second.frames = [⟨peer, (Wire.StatusResponse.mk request.kind .expired).bytes⟩]) ∧
      ((∀ request, Request.decode scratch.datagram = .ok request →
        ¬ world.Departs config now peer request) → second.frames = first.frames) := by
  have hconsistent := Consistent.of_reachable h
  intro first second
  have hfirst : first.world = (world.receive config now peer scratch.datagram).1 :=
    world_dispatch world config now scratch peer
  have hsecond : second.world = (first.world.receive config now peer scratch.datagram).1 :=
    world_dispatch first.world config now _ peer
  have hsent := frames_dispatch world config now scratch peer
  have hresent := frames_dispatch first.world config now ⟨writer, scratch.datagram⟩ peer
  change first.frames = _ at hsent
  change second.frames = _ at hresent
  rw [hsecond, hresent, hsent, hfirst]
  simp only [receive]
  cases hdecode : Request.decode scratch.datagram with
  | error fault => exact ⟨rfl, nofun, fun _ => rfl⟩
  | ok request =>
      obtain ⟨hdeparted, hrepeated⟩ :=
        serve_again now peer (Config.bounded_of_validate hconfig) hconsistent request
      dsimp only at hdeparted hrepeated ⊢
      by_cases hdeparts : world.Departs config now peer request
      · have hagain := hdeparted hdeparts
        refine ⟨by rw [hagain], ?_, fun hstays => absurd hdeparts (hstays request rfl)⟩
        rintro _ ⟨⟩ -
        rw [hagain]
        exact Answer.frames_status .expired _ request.kind peer
      · have hagain := hrepeated hdeparts
        refine ⟨by rw [hagain], ?_, fun _ => ?_⟩
        · rintro _ ⟨⟩ h
          exact absurd h hdeparts
        · rw [hagain]
          exact Answer.frames_writer _ _ scratch.writer scratch.datagram request.kind peer

/-- A client logs out twice. -/
theorem duplicate_of_logout :
    let world := (ofConfig .small).run .small [smallLogin 7]
    let logout := Wire.Logout.record.bytes ⟨654988, 0, -1, -1⟩
    let first := world.dispatch .small 5 ⟨.empty, logout⟩ smallPeer
    let second := first.world.dispatch .small 5 ⟨.empty, logout⟩ smallPeer
    Config.validate .small = .ok () ∧ Reachable .small world ∧ second.world = first.world ∧
      first.frames = [⟨smallPeer, [3, 0]⟩] ∧ second.frames = [⟨smallPeer, [3, 1]⟩] := by
  intro world logout first second
  have hconfig : Config.validate .small = .ok () := rfl
  have hreachable : Reachable .small world := ⟨_, rfl⟩
  obtain ⟨hworld, hdeparted, -⟩ :=
    duplicate_of_dispatch hconfig hreachable 5 smallPeer ⟨.empty, logout⟩ .empty
  have hdecode : Request.decode logout = .ok (.logout ⟨654988, 0, -1, -1⟩) := rfl
  have hdeparts : world.Departs .small 5 smallPeer (.logout ⟨654988, 0, -1, -1⟩) :=
    ⟨by decide +kernel, .inl rfl⟩
  exact ⟨hconfig, hreachable, hworld, by decide +kernel, hdeparted _ hdecode hdeparts⟩

end RoomRelay.World
