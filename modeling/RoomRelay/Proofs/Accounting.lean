import RoomRelay.Proofs.Handshake
import RoomRelay.Proofs.Reply
import RoomRelay.Proofs.Scope

/-!
# What every datagram is answered with

A datagram that is no request, or names what the server does not have, is dropped. A request whose
session is not known is answered with two bytes. In neither case does anything change. Every other
request of a client for itself is answered with one frame, and packets for members with the frames
that members receive, or with the acknowledgement that the server sends in place of one.
-/

namespace RoomRelay

section Accounts

variable (config : Config) (world : World) (now : Instant) (peer : SocketAddress)
variable (datagram : List UInt8) (after : World) (sent : List Frame)

/-- What is sent for a datagram that is dropped or refused: nothing, or two bytes that say that the
session is not known. Everything else is a request in range that is recognised, or a login. -/
structure Rejects : Prop where
  malformed : Request.Malformed datagram → sent = [] ∧ after = world
  decoded : ¬ Request.Malformed datagram → ∃ request, Request.decode datagram = .ok request
  outOfRange : ∀ {request}, Request.decode datagram = .ok request →
    ¬ request.InRange config → sent = [] ∧ after = world
  expired : ∀ {request}, Request.decode datagram = .ok request → request.InRange config →
    request.kind ≠ .login → request.recognise? world.lobby = none →
    sent = [⟨peer, [request.kind.tag, 1]⟩] ∧ after = world

/-- What is sent for a request that a client makes for itself: one frame in reply. -/
structure Replies : Prop where
  ping : ∀ {ping session}, Request.decode datagram = .ok (.ping ping) →
    world.lobby.findByCredentials ping.credentials = some session →
    sent = [⟨peer, Wire.PingResponse.record.bytes
      { status := .ok, clientTime := ping.clientTime, serverTime := now
        flags := session.flags }⟩]
  /-- A new device is refused while the lobby is full. -/
  loginRefused : ∀ {login}, Request.decode datagram = .ok (.login login) →
    world.lobby.findByDevice login.device = none → world.lobby.isFull = true →
    sent = [⟨peer, [2, 2]⟩] ∧ after = world
  login : ∀ {login}, Request.decode datagram = .ok (.login login) →
    world.lobby.findByDevice login.device ≠ none ∨ world.lobby.isFull = false →
    ∃ session, after.lobby.get? session.slot = some session ∧ session.device = login.device ∧
      session.peer = peer ∧
      sent = [⟨peer, Wire.LoginResponse.record.bytes (.ofCredentials session.credentials)⟩]
  logout : ∀ {logout session}, Request.decode datagram = .ok (.logout logout) →
    (Request.logout logout).InRange config →
    world.lobby.findByCredentials logout.credentials = some session → sent = [⟨peer, [3, 0]⟩]
  /-- Whoever has a seat afterwards is told it, and others are refused one. -/
  create : ∀ {create session}, Request.decode datagram = .ok (.create create) →
    world.lobby.findByToken create.token create.slot = some session →
    session.seat = none ∧ sent = [⟨peer, [4, 2]⟩] ∨
      ∃ session' seat, after.lobby.get? session.slot = some session' ∧
        session'.token = session.token ∧ session'.seat = some seat ∧
        sent = [⟨peer, Wire.CreateResponse.record.bytes
          { status := .ok, room := seat.room.toWire, index := seat.index.toWire
            flags := session'.flags }⟩]
  join : ∀ {join session}, Request.decode datagram = .ok (.join join) →
    world.lobby.findByToken join.token join.slot = some session →
    session.seat = none ∧ sent = [⟨peer, [5, 3]⟩] ∨
      ∃ session' seat room, after.lobby.get? session.slot = some session' ∧
        session'.token = session.token ∧ session'.seat = some seat ∧
        after.rooms.room? seat.room = some room ∧
        sent = [⟨peer, Wire.JoinResponse.record.bytes
          { status := .ok, room := seat.room.toWire, index := seat.index.toWire
            flags := session'.flags, properties := room.terms.properties }⟩]
  leave : ∀ {leave session}, Request.decode datagram = .ok (.leave leave) →
    world.lobby.findByCredentials leave.credentials = some session → sent = [⟨peer, [6, 0]⟩]

/-- What is sent for a packet for members of a room: the frames that they receive, or for a reliable
packet that nobody receives an acknowledgement. -/
structure Relays : Prop where
  unreliable : ∀ {header session}, Request.decode datagram = .ok (.unreliable header) →
    (Request.unreliable header).InRange config →
    world.lobby.findByCredentials header.credentials = some session →
    let payload := (datagram.drop Wire.UnreliableHeader.width).take header.size.toNat
    ∃ seat members, session.seat = some seat ∧ after.Roster seat.room members ∧
      Delivers members seat.index header.target
        ([10, seat.index.number, UInt8.ofNat payload.length] ++ payload) sent
  reliable : ∀ {header session}, Request.decode datagram = .ok (.reliable header) →
    (Request.reliable header).InRange config →
    world.lobby.findByCredentials header.credentials = some session →
    let payload := (datagram.drop Wire.ReliableHeader.width).take header.size.toNat
    ∃ seat target, session.seat = some seat ∧ header.target = SeatIndex.toWire target ∧
      (∀ receiver, world.Sits receiver ⟨seat.room, target⟩ →
        sent = [⟨if receiver.slot = session.slot then peer else receiver.peer,
          reliableFrame seat.index header.ack payload⟩]) ∧
      ((∀ receiver, ¬ world.Sits receiver ⟨seat.room, target⟩) →
        sent = [⟨peer, ackFrame target header.ack⟩])
  relied : ∀ {relied session}, Request.decode datagram = .ok (.relied relied) →
    (Request.relied relied).InRange config →
    world.lobby.findByCredentials relied.credentials = some session →
    ∃ seat target, session.seat = some seat ∧ relied.target = SeatIndex.toWire target ∧
      (∀ receiver, world.Sits receiver ⟨seat.room, target⟩ →
        sent = [⟨if receiver.slot = session.slot then peer else receiver.peer,
          ackFrame seat.index relied.ack⟩]) ∧
      ((∀ receiver, ¬ world.Sits receiver ⟨seat.room, target⟩) → sent = [])

/-- What is sent for a datagram, whatever it is, and in which world it leaves the server. -/
structure Accounts : Prop extends Rejects config world peer datagram after sent,
    Replies config world now peer datagram after sent,
    Relays config world peer datagram after sent

end Accounts

namespace World

variable {config : Config} {world : World} {now : Instant} {peer : SocketAddress}
variable {request : Request} {scratch : Scratch} {session : Session}

theorem serve_of_not_inRange (now : Instant) (peer : SocketAddress)
    (h : ¬ request.InRange config) :
    world.serve config now peer request = (world, .drop) := by
  cases request with
  | logout logout =>
      show world.serveLogout config logout = _
      cases hslot : SlotId.ofWire? logout.credentials.slot with
      | none => rw [serveLogout, hslot]
      | some slot =>
          have hge : ¬ slot.position < config.lobbyCapacity := fun hlt =>
            h ((NumbersEntries.slot _).isEntry_iff.mpr ⟨slot, hslot, hlt⟩)
          rw [serveLogout, hslot]
          exact if_neg hge
  | unreliable header =>
      have hnone := Config.claimedSeat?_eq_none h
      simp only [serve, serveUnreliable, hnone]
  | reliable header =>
      rcases Classical.not_and_iff_not_or_not.mp h with hseat | htarget
      · simp only [serve, serveReliable, Config.claimedSeat?_eq_none hseat]
      · simp only [serve, serveReliable, Config.targetIndex?_eq_none htarget]
        cases config.claimedSeat? header.credentials <;> rfl
  | relied relied =>
      rcases Classical.not_and_iff_not_or_not.mp h with hseat | htarget
      · simp only [serve, serveRelied, Config.claimedSeat?_eq_none hseat]
      · simp only [serve, serveRelied, Config.targetIndex?_eq_none htarget]
        cases config.claimedSeat? relied.credentials <;> rfl
  | ping _ | login _ | create _ | join _ | leave _ => exact absurd trivial h

theorem serve_of_unrecognised (now : Instant) (peer : SocketAddress)
    (hrange : request.InRange config) (hlogin : request.kind ≠ .login)
    (h : request.recognise? world.lobby = none) :
    world.serve config now peer request = (world, .status .expired) := by
  cases request with
  | login _ => exact absurd rfl hlogin
  | ping _ => exact servePing_of_eq_none h
  | create _ => exact serveCreate_of_eq_none h
  | join _ => exact serveJoin_of_eq_none h
  | leave _ => exact serveLeave_of_eq_none h
  | logout logout =>
      obtain ⟨slot, hslot, hlt⟩ := (NumbersEntries.slot _).isEntry_iff.mp hrange
      have hnone : world.lobby.findByCredentials logout.credentials = none := h
      show world.serveLogout config logout = _
      rw [serveLogout_of_position_lt hslot hlt, hnone]
  | unreliable header =>
      obtain ⟨seat, hseat⟩ := Config.hasSeat_iff.mp hrange
      simp only [serve, serveUnreliable, hseat]
      exact answerMember_of_eq_none h seat _
  | reliable header =>
      obtain ⟨seat, hseat⟩ := Config.hasSeat_iff.mp hrange.1
      obtain ⟨target, htarget⟩ := Config.isEntry_target_iff.mp hrange.2
      simp only [serve, serveReliable, hseat, htarget]
      exact answerMember_of_eq_none h seat _
  | relied relied =>
      obtain ⟨seat, hseat⟩ := Config.hasSeat_iff.mp hrange.1
      obtain ⟨target, htarget⟩ := Config.isEntry_target_iff.mp hrange.2
      simp only [serve, serveRelied, hseat, htarget]
      exact answerMember_of_eq_none h seat _

/-- Whoever is recognised by a seat that the server has sits there, and the credentials are its
own. -/
theorem Consistent.exists_sits (h : world.Consistent config) (hconfig : config.Bounded)
    {credentials : Wire.Credentials} (hrange : config.HasSeat credentials)
    (hfound : world.lobby.findByCredentials credentials = some session) :
    ∃ seat, config.claimedSeat? credentials = some seat ∧ world.Sits session seat ∧
      credentials = session.credentials := by
  obtain ⟨seat, hclaimed⟩ := Config.hasSeat_iff.mp hrange
  have hseat := h.seat_of_claimedSeat? hconfig hfound hclaimed
  obtain ⟨⟨slot, hget⟩, hown⟩ := (h.findByCredentials_iff hconfig).mp hfound
  obtain rfl := h.lobby.slot_eq hget
  exact ⟨seat, hclaimed, ⟨hget, hseat⟩, hown.symm⟩

/-- The members that an unreliable packet is for are sent its frame. -/
theorem delivers_of_dispatch (now : Instant) (peer : SocketAddress) (hconfig : config.Bounded)
    (h : world.Consistent config) {header : Wire.UnreliableHeader}
    (hdecode : Request.decode scratch.datagram = .ok (.unreliable header))
    (hrange : config.HasSeat header.credentials)
    (hfound : world.lobby.findByCredentials header.credentials = some session) :
    let payload := (scratch.datagram.drop Wire.UnreliableHeader.width).take header.size.toNat
    let dispatched := world.dispatch config now scratch peer
    ∃ seat members, session.seat = some seat ∧ dispatched.world.Roster seat.room members ∧
      Delivers members seat.index header.target
        ([10, seat.index.number, UInt8.ofNat payload.length] ++ payload) dispatched.frames := by
  intro payload dispatched
  obtain ⟨seat, hclaimed, hsits, hown⟩ := h.exists_sits hconfig hrange hfound
  obtain ⟨room, hroom⟩ := h.seated hsits.seat?
  have touched := h.touch session.slot peer now
  have hserve : world.serve config now peer (.unreliable header) =
      world.answerMember now peer header.credentials seat fun lobby room =>
        .unreliable header (room.unreliableRecipients lobby seat.index header.target) := by
    simp only [serve, serveUnreliable, hclaimed]
    rfl
  obtain ⟨hworld, hframes⟩ := dispatch_of_answerMember hdecode hserve hfound hroom
  have hindex : header.credentials.index.toUInt8 = seat.index.number := by
    rw [hown, Session.index_credentials hsits.2, SeatIndex.toWire, UInt8.toUInt8_toInt8]
  have hsent := Answer.frames_unreliable (Request.decode_eq_unreliable_iff.mp hdecode)
    (room.unreliableRecipients (world.touch session.slot peer now).lobby seat.index header.target)
    Wire.Kind.unreliable peer
  rw [hindex] at hsent
  have hdelivers := touched.delivers hconfig hroom seat.index header.target
    ([10, seat.index.number, UInt8.ofNat payload.length] ++ payload)
  refine ⟨seat, room.roster (world.touch session.slot peer now).lobby, hsits.2, ?_, ?_⟩
  · rw [hworld]
    exact touched.roster hroom
  · rw [hframes.trans hsent]
    exact hdelivers

theorem flags_touch (hget : world.lobby.get? session.slot = some session) :
    (world.touch session.slot peer now).lobby.flags session.slot = session.flags := by
  simp [Lobby.flags, hget, Session.touch]

section Dispatch

variable (now : Instant) (peer : SocketAddress) (scratch : Scratch)

theorem rejects_of_dispatch :
    let dispatched := world.dispatch config now scratch peer
    Rejects config world peer scratch.datagram dispatched.world dispatched.frames := by
  intro dispatched
  constructor
  case malformed =>
    intro hmalformed
    have hnone := Request.malformed_iff.mp hmalformed
    cases hdecode : Request.decode scratch.datagram with
    | ok request => exact absurd hdecode (hnone request)
    | error fault =>
        have hdropped : dispatched = ⟨world, scratch, []⟩ := by
          simp only [dispatched, dispatch, hdecode]
        rw [hdropped]
        exact ⟨rfl, rfl⟩
  case decoded =>
    intro hwell
    rw [Request.malformed_iff, Classical.not_forall] at hwell
    obtain ⟨request, hrequest⟩ := hwell
    exact ⟨request, Classical.not_not.mp hrequest⟩
  case outOfRange =>
    intro request hdecode hrange
    obtain ⟨hworld, hframes⟩ :=
      dispatch_of_serve hdecode (serve_of_not_inRange now peer hrange)
    exact ⟨hframes, hworld⟩
  case expired =>
    intro request hdecode hrange hlogin hnone
    obtain ⟨hworld, hframes⟩ :=
      dispatch_of_serve hdecode (serve_of_unrecognised now peer hrange hlogin hnone)
    exact ⟨hframes.trans (Answer.frames_status ..), hworld⟩

theorem replies_of_dispatch (bounded : config.Bounded) (consistent : world.Consistent config) :
    let dispatched := world.dispatch config now scratch peer
    Replies config world now peer scratch.datagram dispatched.world dispatched.frames := by
  intro dispatched
  constructor
  case ping =>
    intro ping session hdecode hfound
    obtain ⟨-, hget, -, -⟩ := Lobby.of_findByCredentials consistent.lobby hfound
    obtain ⟨-, hframes⟩ := dispatch_of_serve hdecode (servePing_of_eq_some hfound)
    rw [flags_touch hget] at hframes
    exact hframes.trans (Scratch.snd_write_record _ _ (by decide) _)
  case loginRefused =>
    intro login hdecode hunknown hfull
    obtain ⟨hworld, hframes⟩ := dispatch_of_serve hdecode (serveLogin_of_isFull hunknown hfull)
    exact ⟨hframes.trans (Answer.frames_status ..), hworld⟩
  case login =>
    intro login hdecode hplace
    have welcomed := welcomed_serveLogin now peer bounded consistent login
    rcases hserve : world.serveLogin now peer login with ⟨after, given⟩
    obtain ⟨hworld, hframes⟩ := dispatch_of_serve hdecode hserve
    rw [hserve] at welcomed
    cases welcomed with
    | refused hunknown hfull => simp [hunknown, hfull] at hplace
    | @welcomed after session _ hget hdevice hpeer =>
        refine ⟨session, ?_, hdevice, hpeer, ?_⟩
        · rw [hworld, hget]
        · exact hframes.trans (Scratch.snd_write_record _ _ (by decide) _)
  case logout =>
    intro logout session hdecode hrange hfound
    obtain ⟨slot, hslot, hlt⟩ := (NumbersEntries.slot _).isEntry_iff.mp hrange
    have hserve : world.serve config now peer (.logout logout) =
        ((world.remove session.slot).1, .status .ok) := by
      show world.serveLogout config logout = _
      rw [serveLogout_of_position_lt hslot hlt, hfound]
    obtain ⟨-, hframes⟩ := dispatch_of_serve hdecode hserve
    exact hframes.trans (Answer.frames_status ..)
  case create =>
    intro create session hdecode hfound
    have sought := sought_serveCreate now peer bounded consistent create
    rcases hserve : world.serveCreate config now peer create with ⟨after, given⟩
    obtain ⟨hworld, hframes⟩ := dispatch_of_serve hdecode hserve
    rw [hserve] at sought
    rcases sought.of_findByToken hfound with
      ⟨hseat, rfl⟩ | ⟨session', seat, room, hget, htoken, hseat, -, rfl⟩
    · exact .inl ⟨hseat, hframes.trans (Answer.frames_status ..)⟩
    · refine .inr ⟨session', seat, by rw [hworld, hget], htoken, hseat, ?_⟩
      exact hframes.trans (Scratch.snd_write_record _ _ (by decide) _)
  case join =>
    intro join session hdecode hfound
    have sought := sought_serveJoin now peer consistent join
    rcases hserve : world.serveJoin config now peer join with ⟨after, given⟩
    obtain ⟨hworld, hframes⟩ := dispatch_of_serve hdecode hserve
    rw [hserve] at sought
    rcases sought.of_findByToken hfound with
      ⟨hseat, rfl⟩ | ⟨session', seat, room, hget, htoken, hseat, hroom, rfl⟩
    · exact .inl ⟨hseat, hframes.trans (Answer.frames_status ..)⟩
    · refine .inr ⟨session', seat, room, by rw [hworld, hget], htoken, hseat,
        by rw [hworld, hroom], ?_⟩
      exact hframes.trans (Scratch.snd_write_record _ _ (by decide) _)
  case leave =>
    intro leave session hdecode hfound
    obtain ⟨-, hframes⟩ := dispatch_of_serve hdecode (serveLeave_of_eq_some hfound)
    exact hframes.trans (Answer.frames_status ..)

theorem relays_of_dispatch (bounded : config.Bounded) (consistent : world.Consistent config) :
    let dispatched := world.dispatch config now scratch peer
    Relays config world peer scratch.datagram dispatched.world dispatched.frames := by
  intro dispatched
  constructor
  case unreliable =>
    intro header session hdecode hrange hfound
    exact delivers_of_dispatch now peer bounded consistent hdecode hrange hfound
  case reliable =>
    intro header session hdecode hrange hfound payload
    obtain ⟨⟨id, home⟩, -, hsits, hown⟩ := consistent.exists_sits bounded hrange.1 hfound
    obtain ⟨target, htargeted⟩ := Config.isEntry_target_iff.mp hrange.2
    obtain ⟨htarget, hlt⟩ := Config.of_targetIndex? htargeted
    exact ⟨⟨id, home⟩, target, hsits.2, htarget, dispatch_reliable now peer scratch consistent
      bounded (Request.decode_eq_reliable_iff.mp hdecode) hsits hown htarget hlt⟩
  case relied =>
    intro relied session hdecode hrange hfound
    obtain ⟨⟨id, home⟩, -, hsits, hown⟩ := consistent.exists_sits bounded hrange.1 hfound
    obtain ⟨target, htargeted⟩ := Config.isEntry_target_iff.mp hrange.2
    obtain ⟨htarget, hlt⟩ := Config.of_targetIndex? htargeted
    exact ⟨⟨id, home⟩, target, hsits.2, htarget, dispatch_relied_of_decode now peer scratch
      consistent bounded hdecode hsits hown htarget hlt⟩

/-- The frames of every datagram are accounted for. -/
theorem accounts_of_dispatch (hconfig : config.validate = .ok ()) (h : Reachable config world) :
    let dispatched := world.dispatch config now scratch peer
    Accounts config world now peer scratch.datagram dispatched.world dispatched.frames := by
  intro dispatched
  have bounded := Config.bounded_of_validate hconfig
  have consistent := Consistent.of_reachable h
  exact { toRejects := rejects_of_dispatch now peer scratch
          toReplies := replies_of_dispatch now peer scratch bounded consistent
          toRelays := relays_of_dispatch now peer scratch bounded consistent }

end Dispatch

/-- Two devices fill the lobby. A byte that names no kind and a logout that names a third slot are
dropped, a request to leave from nowhere has expired, a third device is refused, and the master of
the room is told that it is. -/
theorem accounts_of_pair :
    let world := (ofConfig .small).run .small smallPair
    let first : Wire.Credentials := ⟨654988, 0, 0, 0⟩
    let sent (datagram : List UInt8) : List RoomRelay.Frame :=
      (world.dispatch .small 9 ⟨.empty, datagram⟩ smallPeer).frames
    Config.validate .small = .ok () ∧ Reachable .small world ∧
      sent [9] = [] ∧
      sent (Wire.Logout.record.bytes ⟨{ first with slot := 2 }⟩) = [] ∧
      sent (Wire.Leave.record.bytes ⟨{ first with room := -1 }⟩) =
        [⟨smallPeer, [6, 1]⟩] ∧
      sent (Wire.Login.record.bytes ⟨Vector.replicate _ 9⟩) = [⟨smallPeer, [2, 2]⟩] ∧
      sent (Wire.Ping.record.bytes ⟨first, 77⟩) =
        [⟨smallPeer, Wire.PingResponse.record.bytes ⟨.ok, 77, 9, Wire.masterFlag⟩⟩] := by
  intro world first sent
  have hconfig : Config.validate .small = .ok () := rfl
  have hreachable : Reachable .small world := ⟨_, rfl⟩
  have accounts (datagram : List UInt8) :=
    accounts_of_dispatch 9 smallPeer ⟨.empty, datagram⟩ hconfig hreachable
  let master : Session :=
    { slot := ⟨0⟩, device := Vector.replicate _ 7, token := ⟨654988, by decide⟩
      peer := smallPeer, lastActive := 0, seat := some ⟨⟨0⟩, ⟨0⟩⟩, flags := Wire.masterFlag }
  refine ⟨hconfig, hreachable, ?_, ?_, ?_, ?_, ?_⟩
  · have hunknown : ∀ kind : Wire.Kind, kind.tag ≠ 9 := by
      intro kind
      cases kind <;> decide
    exact ((accounts [9]).malformed (.unknown hunknown)).1
  · have hdecode : Request.decode (Wire.Logout.record.bytes ⟨{ first with slot := 2 }⟩) =
        .ok (.logout ⟨{ first with slot := 2 }⟩) := Request.decode_of_record (fun _ => rfl) _
    exact ((accounts _).outOfRange hdecode fun hrange => absurd hrange.2 (by decide)).1
  · have hdecode : Request.decode (Wire.Leave.record.bytes ⟨{ first with room := -1 }⟩) =
        .ok (.leave ⟨{ first with room := -1 }⟩) := Request.decode_of_record (fun _ => rfl) _
    have hunknown : world.lobby.findByCredentials { first with room := -1 } = none := by
      decide +kernel
    exact ((accounts _).expired hdecode trivial (by decide) hunknown).1
  · have hdecode : Request.decode (Wire.Login.record.bytes ⟨Vector.replicate _ 9⟩) =
        .ok (.login ⟨Vector.replicate _ 9⟩) := Request.decode_of_record (fun _ => rfl) _
    have hunknown : world.lobby.findByDevice (Vector.replicate _ 9) = none := by decide +kernel
    have hfull : world.lobby.isFull = true := by decide +kernel
    exact ((accounts _).loginRefused hdecode hunknown hfull).1
  · have hdecode : Request.decode (Wire.Ping.record.bytes ⟨first, 77⟩) =
        .ok (.ping ⟨first, 77⟩) := Request.decode_of_record (fun _ => rfl) _
    have hfound : world.lobby.findByCredentials first = some master := by decide +kernel
    have hping := (accounts (Wire.Ping.record.bytes ⟨first, 77⟩)).ping hdecode hfound
    exact hping

end World

end RoomRelay
