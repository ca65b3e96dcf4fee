import RoomRelay.Proofs.Delivery

/-!
# Packets that are acknowledged

A reliable packet is forwarded to the member at its target or acknowledged by the server, never
both. The server remembers nothing of it. The receiver finds in the frame what it has to send back,
and its acknowledgement is routed like any packet of a member: to whoever has the sender's seat by
then, under the index at which the receiver sits. So it takes no more than that both keep their
seats, whatever happens in between, for the sender to learn that its packet arrived.
-/

namespace RoomRelay

/-- The frame in which a member receives a reliable packet. -/
def reliableFrame (sender : SeatIndex) (ack : UInt8) (payload : List UInt8) : List UInt8 :=
  [11, sender.number, ack, UInt8.ofNat payload.length] ++ payload

/-- The frame in which a member learns that its packet arrived at an index. -/
def ackFrame (receiver : SeatIndex) (ack : UInt8) : List UInt8 := [12, receiver.number, ack]

/-- What the receiver of a reliable packet sends back, made from nothing but the frame and the
receiver's credentials. -/
def acknowledgement? (credentials : Wire.Credentials) : List UInt8 → Option Wire.Relied
  | _ :: sender :: ack :: _ => some { credentials, target := sender.toInt8, ack }
  | _ => none

theorem Session.index_credentials {session : Session} {seat : Seat}
    (h : session.seat = some seat) : session.credentials.index = seat.index.toWire := by
  rw [credentials, h]
  rfl

namespace Answer

/-- The answer to a reliable packet on its route. -/
def reliable (header : Wire.ReliableHeader) (peer : SocketAddress) : ReliableRoute → Answer
  | .forward recipient => .relayReliable header recipient
  | .acknowledge => .acknowledge header.target header.ack peer

/-- The answer to an acknowledgement for somebody, or for nobody. -/
def relied (relied : Wire.Relied) : Option SocketAddress → Answer
  | some recipient => .acknowledge relied.credentials.index relied.ack recipient
  | none => .silent

variable {scratch : Scratch}

theorem frames_relayReliable {header : Wire.ReliableHeader}
    (h : Wire.ReliableHeader.decode scratch.datagram = .ok header) {sender : SeatIndex}
    (hsender : header.credentials.index = sender.toWire) (recipient : SocketAddress)
    (kind : Wire.Kind) (peer : SocketAddress) :
    ((Answer.relayReliable header recipient).frames scratch kind peer).2 =
      [⟨recipient, reliableFrame sender header.ack
        ((scratch.datagram.drop Wire.ReliableHeader.width).take header.size.toNat)⟩] := by
  obtain ⟨-, left, hcut⟩ := Wire.ReliableHeader.exists_relayFrame? h header.credentials.index
  rw [hsender, SeatIndex.toWire, UInt8.toUInt8_toInt8] at hcut
  simp only [frames, Scratch.relay, hsender, SeatIndex.toWire, hcut]
  rfl

theorem frames_acknowledge (h : Wire.ackFrameSize ≤ scratch.datagram.length) {index : Int8}
    {receiver : SeatIndex} (hreceiver : index = receiver.toWire) (ack : UInt8)
    (recipient : SocketAddress) (kind : Wire.Kind) (peer : SocketAddress) :
    ((Answer.acknowledge index ack recipient).frames scratch kind peer).2 =
      [⟨recipient, ackFrame receiver ack⟩] := by
  obtain ⟨left, hcut⟩ := Wire.exists_ackFrame? h index ack
  rw [hreceiver, SeatIndex.toWire, UInt8.toUInt8_toInt8] at hcut
  simp only [frames, Scratch.relay, hreceiver, SeatIndex.toWire, hcut]
  rfl

end Answer

namespace World

variable {config : Config} {world : World} {now : Instant} {peer : SocketAddress}

/-- Whether a session is still there later, on the seat that it had. -/
structure StillSits (later : World) (session session' : Session) : Prop where
  get? : later.lobby.get? session.slot = some session'
  token_eq : session'.token = session.token
  seat_eq : session'.seat = session.seat

namespace Consistent

variable {session : Session} {seat : Seat} {room : Room} {id : RoomId} {index : SeatIndex}

/-- A member is recognised by its credentials, and they claim its seat, which is in some room. -/
theorem of_sits (h : world.Consistent config) (hconfig : config.Bounded)
    (hsits : world.Sits session seat) :
    world.lobby.findByCredentials session.credentials = some session ∧
      config.claimedSeat? session.credentials = some seat ∧
      ∃ room, world.rooms.room? seat.room = some room := by
  have hfound := h.findByCredentials_credentials hconfig hsits.1
  exact ⟨hfound, h.claimedSeat?_of_findByCredentials hconfig hfound hsits.2, h.seated hsits.seat?⟩

/-- A member is reached at its address, or where it was heard of just now. -/
theorem memberAddress?_touch (h : world.Consistent config)
    (hroom : world.rooms.room? id = some room) (hsits : world.Sits session ⟨id, index⟩)
    (slot : SlotId) (peer : SocketAddress) (now : Instant) :
    room.memberAddress? (world.touch slot peer now).lobby index =
      some (if session.slot = slot then peer else session.peer) := by
  have touched := h.touch slot peer now
  by_cases heq : session.slot = slot
  · subst heq
    rw [if_pos rfl, touched.memberAddress?_of_sits hroom (hsits.touch peer now)]
    rfl
  · have hkept := hsits.touch_of_ne peer now (Ne.symm heq)
    rw [if_neg heq, touched.memberAddress?_of_sits hroom hkept]

/-- Nobody is reached on a seat that is free. -/
theorem memberAddress?_touch_of_free (h : world.Consistent config)
    (hroom : world.rooms.room? id = some room)
    (hfree : ∀ session, ¬ world.Sits session ⟨id, index⟩) (slot : SlotId) (peer : SocketAddress)
    (now : Instant) : room.memberAddress? (world.touch slot peer now).lobby index = none := by
  refine (h.touch slot peer now).memberAddress?_of_free hroom fun session hsits => ?_
  have hseated := hsits.seat?
  rw [seat?_touch] at hseated
  obtain ⟨before, -, hbefore⟩ := h.seat?_iff_sits.mp hseated
  exact hfree before hbefore

end Consistent

section Dispatch

variable {sender : Session} {id : RoomId} {home target : SeatIndex}

/-- A reliable packet of a member is forwarded if somebody sits at its target, and otherwise
acknowledged. -/
theorem dispatch_reliable (now : Instant) (peer : SocketAddress) (scratch : Scratch)
    (h : world.Consistent config) (hconfig : config.Bounded) {header : Wire.ReliableHeader}
    (hdecode : Wire.ReliableHeader.decode scratch.datagram = .ok header)
    (hsender : world.Sits sender ⟨id, home⟩)
    (hcredentials : header.credentials = sender.credentials)
    (htarget : header.target = target.toWire) (hlt : target.position < config.roomCapacity) :
    let payload := (scratch.datagram.drop Wire.ReliableHeader.width).take header.size.toNat
    let dispatched := world.dispatch config now scratch peer
    (∀ receiver, world.Sits receiver ⟨id, target⟩ → dispatched.frames =
        [⟨if receiver.slot = sender.slot then peer else receiver.peer,
          reliableFrame home header.ack payload⟩]) ∧
      ((∀ receiver, ¬ world.Sits receiver ⟨id, target⟩) →
        dispatched.frames = [⟨peer, ackFrame target header.ack⟩]) := by
  intro payload dispatched
  obtain ⟨hfound, hclaimed, room, hroom⟩ := h.of_sits hconfig hsender
  rw [← hcredentials] at hfound hclaimed
  have htargeted : config.targetIndex? header.target = some target := by
    rw [htarget, hconfig.targetIndex?_toWire hlt]
  have hserve : world.serve config now peer (.reliable header) =
      world.answerMember now peer header.credentials ⟨id, home⟩ fun lobby room =>
        .reliable header peer (room.reliableRoute lobby target) := by
    simp only [serve, serveReliable, hclaimed, htargeted]
    rfl
  obtain ⟨-, hframes⟩ :=
    dispatch_of_answerMember (Request.decode_of_reliable hdecode) hserve hfound hroom
  refine ⟨?_, ?_⟩
  · intro receiver hreceiver
    have haddress := h.memberAddress?_touch hroom hreceiver sender.slot peer now
    have hindex : header.credentials.index = home.toWire := by
      rw [hcredentials, Session.index_credentials hsender.2]
    rw [hframes, Room.reliableRoute, haddress]
    exact Answer.frames_relayReliable hdecode hindex _ _ _
  · intro hfree
    have haddress := h.memberAddress?_touch_of_free hroom hfree sender.slot peer now
    have hsize := Request.ackFrameSize_le_of_decode (Request.decode_of_reliable hdecode)
    rw [hframes, Room.reliableRoute, haddress]
    exact Answer.frames_acknowledge hsize htarget _ _ _ _

/-- An acknowledgement of a member is passed on if somebody sits at its target, and otherwise to
nobody. -/
theorem dispatch_relied_of_decode (now : Instant) (peer : SocketAddress) (scratch : Scratch)
    (h : world.Consistent config) (hconfig : config.Bounded) {relied : Wire.Relied}
    (hdecode : Request.decode scratch.datagram = .ok (.relied relied))
    (hsender : world.Sits sender ⟨id, home⟩)
    (hcredentials : relied.credentials = sender.credentials)
    (htarget : relied.target = target.toWire) (hlt : target.position < config.roomCapacity) :
    let dispatched := world.dispatch config now scratch peer
    (∀ receiver, world.Sits receiver ⟨id, target⟩ → dispatched.frames =
        [⟨if receiver.slot = sender.slot then peer else receiver.peer,
          ackFrame home relied.ack⟩]) ∧
      ((∀ receiver, ¬ world.Sits receiver ⟨id, target⟩) → dispatched.frames = []) := by
  intro dispatched
  obtain ⟨hfound, hclaimed, room, hroom⟩ := h.of_sits hconfig hsender
  rw [← hcredentials] at hfound hclaimed
  have htargeted : config.targetIndex? relied.target = some target := by
    rw [htarget, hconfig.targetIndex?_toWire hlt]
  have hserve : world.serve config now peer (.relied relied) =
      world.answerMember now peer relied.credentials ⟨id, home⟩ fun lobby room =>
        .relied relied (room.reliedRecipient lobby target) := by
    simp only [serve, serveRelied, hclaimed, htargeted]
    rfl
  obtain ⟨-, hframes⟩ := dispatch_of_answerMember hdecode hserve hfound hroom
  refine ⟨?_, ?_⟩
  · intro receiver hreceiver
    have haddress := h.memberAddress?_touch hroom hreceiver sender.slot peer now
    have hindex : relied.credentials.index = home.toWire := by
      rw [hcredentials, Session.index_credentials hsender.2]
    rw [hframes, Room.reliedRecipient, haddress]
    exact Answer.frames_acknowledge (Request.ackFrameSize_le_of_decode hdecode) hindex _ _ _ _
  · intro hfree
    have haddress := h.memberAddress?_touch_of_free hroom hfree sender.slot peer now
    rw [hframes, Room.reliedRecipient, haddress]
    rfl

/-- An acknowledgement as it is written is passed on to whoever sits at its target. -/
theorem dispatch_relied (now : Instant) (peer : SocketAddress) (scratch : Scratch)
    (h : world.Consistent config) (hconfig : config.Bounded) {relied : Wire.Relied}
    (hdatagram : scratch.datagram = Wire.Relied.record.bytes relied)
    (hsender : world.Sits sender ⟨id, home⟩)
    (hcredentials : relied.credentials = sender.credentials)
    (htarget : relied.target = target.toWire) (hlt : target.position < config.roomCapacity)
    {receiver : Session} (hreceiver : world.Sits receiver ⟨id, target⟩) :
    (world.dispatch config now scratch peer).frames =
      [⟨if receiver.slot = sender.slot then peer else receiver.peer,
        ackFrame home relied.ack⟩] := by
  have hdecode : Request.decode scratch.datagram = .ok (.relied relied) := by
    rw [hdatagram, Request.decode_of_relied]
  obtain ⟨hpassed, -⟩ := dispatch_relied_of_decode now peer scratch h hconfig hdecode hsender
    hcredentials htarget hlt
  exact hpassed receiver hreceiver

end Dispatch

/-- Whoever is still there, on its seat, has the credentials that it had. -/
theorem StillSits.credentials_eq {later : World} {session session' : Session} {seat : Seat}
    (still : later.StillSits session session') (h : later.Consistent config)
    (hseat : session.seat = some seat) :
    later.Sits session' seat ∧ session'.slot = session.slot ∧
      session'.credentials = session.credentials := by
  have hslot := h.lobby.slot_eq still.get?
  refine ⟨⟨by rw [hslot, still.get?], by rw [still.seat_eq, hseat]⟩, hslot, ?_⟩
  simp only [Session.credentials, hslot, still.token_eq, still.seat_eq]

/-- The handshake of a reliable packet. A member's packet is acknowledged by the server if its
target is free, and otherwise forwarded to whoever sits there. After any run at whose end both are
still on their seats, the acknowledgement that the receiver has made from the frame reaches the
sender, wherever it is by then, and says the same as the server's would have said. Each of these
datagrams makes the server send one frame and no other. -/
theorem handshake_of_dispatch (hconfig : config.validate = .ok ()) (h : Reachable config world)
    {sender : Session} {id : RoomId} {home target : SeatIndex}
    (hsender : world.Sits sender ⟨id, home⟩) (htarget : target.position < config.roomCapacity)
    (ack : UInt8) {payload : List UInt8} (hpayload : payload.length ≤ 255) (now : Instant)
    (peer : SocketAddress) (client server : Wire.Writer) :
    ∃ packet, Wire.ReliableHeader.encode sender.credentials target.toWire ack payload client =
        .ok packet ∧
      let dispatched := world.dispatch config now ⟨server, packet.contents⟩ peer
      ((∀ receiver, ¬ world.Sits receiver ⟨id, target⟩) →
        dispatched.frames = [⟨peer, ackFrame target ack⟩]) ∧
      ∀ receiver, world.Sits receiver ⟨id, target⟩ →
        dispatched.frames = [⟨if receiver.slot = sender.slot then peer else receiver.peer,
          reliableFrame home ack payload⟩] ∧
        ∀ events sender' receiver', let later := dispatched.world.run config events
          later.StillSits sender sender' → later.StillSits receiver receiver' →
          ∃ relied, acknowledgement? receiver.credentials (reliableFrame home ack payload) =
              some relied ∧
            ∀ now peer client server, ∃ reply,
              Wire.Relied.record.encode relied client = .ok reply ∧
              (later.dispatch config now ⟨server, reply.contents⟩ peer).frames =
                [⟨if sender.slot = receiver.slot then peer else sender'.peer,
                  ackFrame target ack⟩] := by
  have bounded := Config.bounded_of_validate hconfig
  have consistent := Consistent.of_reachable h
  obtain ⟨packet, hencode, hcontents, hdecode⟩ :=
    Wire.ReliableHeader.exists_encode sender.credentials target.toWire ack hpayload client
  have hcarried : (packet.contents.drop Wire.ReliableHeader.width).take
      (UInt8.ofNat payload.length).toNat = payload := by
    rw [UInt8.toNat_ofNat_of_lt' (Nat.lt_succ_of_le hpayload), hcontents,
      ← List.append_nil (Wire.packet _ _ _ payload)]
    exact Wire.take_drop_packet .reliable Wire.ReliableHeader.format _ payload []
  obtain ⟨hforwarded, hanswered⟩ := dispatch_reliable now peer ⟨server, packet.contents⟩
    consistent bounded hdecode hsender rfl rfl htarget
  rw [hcarried] at hforwarded
  refine ⟨packet, hencode, hanswered, ?_⟩
  intro receiver hreceiver
  refine ⟨hforwarded receiver hreceiver, ?_⟩
  intro events sender' receiver' later hsender' hreceiver'
  -- The acknowledgement is dispatched in another reachable world, with the two parts exchanged.
  have reachable : Reachable config later :=
    (h.handle (.datagram now peer ⟨server, packet.contents⟩)).run events
  have consistent' := Consistent.of_reachable reachable
  obtain ⟨hsits, hslot, -⟩ := hsender'.credentials_eq consistent' hsender.2
  obtain ⟨hsits', hslot', hcredentials⟩ := hreceiver'.credentials_eq consistent' hreceiver.2
  refine ⟨{ credentials := receiver.credentials, target := home.toWire, ack }, rfl, ?_⟩
  intro now peer client server
  obtain ⟨reply, hreply, hbytes⟩ := Wire.Relied.record.encode_eq_bytes
    { credentials := receiver.credentials, target := home.toWire, ack } client (by decide)
  have hhome : home.position < config.roomCapacity :=
    consistent.index_lt hsender.seat?
  refine ⟨reply, hreply, ?_⟩
  rw [dispatch_relied now peer ⟨server, reply.contents⟩ consistent' bounded hbytes hsits'
    hcredentials.symm rfl hhome hsits, hslot, hslot']

/-- The first member of a room sends two bytes to the second one and then moves to a new place,
where the acknowledgement reaches it. -/
theorem handshake_of_pair :
    let world := (ofConfig .small).run .small smallPair
    let sender : Session :=
      { slot := ⟨0⟩, device := Vector.replicate _ 7, token := ⟨654988, by decide⟩
        peer := smallPeer, lastActive := 0, seat := some ⟨⟨0⟩, ⟨0⟩⟩, flags := Wire.masterFlag }
    let receiver : Session :=
      { slot := ⟨1⟩, device := Vector.replicate _ 8, token := ⟨654989, by decide⟩
        peer := smallPeer, lastActive := 0, seat := some ⟨⟨0⟩, ⟨1⟩⟩, flags := 0 }
    let moved : Event := .datagram 3 (.anyV4 40002)
      ⟨.empty, Wire.Login.record.bytes ⟨Vector.replicate _ 7⟩⟩
    Config.validate .small = .ok () ∧ Reachable .small world ∧
      world.Sits sender ⟨⟨0⟩, ⟨0⟩⟩ ∧ world.Sits receiver ⟨⟨0⟩, ⟨1⟩⟩ ∧
      ∃ packet,
        Wire.ReliableHeader.encode sender.credentials 1 9 [5, 6] .empty = .ok packet ∧
        let dispatched := world.dispatch .small 2 ⟨.empty, packet.contents⟩ (.anyV4 40001)
        dispatched.frames = [⟨smallPeer, [11, 0, 9, 2, 5, 6]⟩] ∧
        ∃ reply,
          Wire.Relied.record.encode ⟨receiver.credentials, 0, 9⟩ .empty = .ok reply ∧
          ((dispatched.world.run .small [moved]).dispatch .small 4 ⟨.empty, reply.contents⟩
            smallPeer).frames = [⟨.anyV4 40002, [12, 1, 9]⟩] := by
  intro world sender receiver moved
  have hconfig : Config.validate .small = .ok () := rfl
  have hreachable : Reachable .small world := ⟨_, rfl⟩
  have hsender : world.Sits sender ⟨⟨0⟩, ⟨0⟩⟩ := ⟨by decide +kernel, rfl⟩
  have hreceiver : world.Sits receiver ⟨⟨0⟩, ⟨1⟩⟩ := ⟨by decide +kernel, rfl⟩
  have htarget : (SeatIndex.mk 1).position < Config.small.roomCapacity := by decide
  have hpayload : ([5, 6] : List UInt8).length ≤ 255 := by decide
  obtain ⟨packet, hencode, -, hforwarded⟩ := handshake_of_dispatch hconfig hreachable hsender
    htarget 9 hpayload 2 (.anyV4 40001) .empty .empty
  refine ⟨hconfig, hreachable, hsender, hreceiver, packet, hencode, ?_⟩
  obtain ⟨hframes, hacknowledged⟩ := hforwarded receiver hreceiver
  have hwritten : Wire.ReliableHeader.encode sender.credentials 1 9 [5, 6] .empty = .ok
      ⟨Wire.packet .reliable Wire.ReliableHeader.format ⟨sender.credentials, 1, 9, 2⟩ [5, 6],
        by decide⟩ := rfl
  obtain rfl := Except.ok.inj (hencode.symm.trans hwritten)
  obtain ⟨relied, ⟨⟩, hreached⟩ := hacknowledged [moved]
    { sender with peer := .anyV4 40002, lastActive := 3 } receiver
    ⟨by decide +kernel, rfl, rfl⟩ ⟨by decide +kernel, rfl, rfl⟩
  obtain ⟨reply, hreply, hsent⟩ := hreached 4 smallPeer .empty .empty
  exact ⟨hframes, reply, hreply, hsent⟩

end World

end RoomRelay
