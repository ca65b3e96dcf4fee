import RoomRelay.Proofs.Answer
import RoomRelay.Proofs.Credentials
import RoomRelay.Proofs.Packet
import RoomRelay.Proofs.Roster
import RoomRelay.Proofs.Service

/-!
# To whom packets go

A packet of a member is recorded as its activity and answered from the room that it sits in. The
frame of an unreliable packet goes to those on the roster of the room that the target names, at the
addresses that they have once the sender's own is brought up to date. A room has no more members
than a packet may have recipients, so nobody is left out.
-/

namespace RoomRelay

/-- What is sent for an unreliable packet: its frame, once to each member of the room that the
target names. -/
structure Delivers (members : List (SeatIndex × Session)) (sender : SeatIndex) (target : Int8)
    (frame : List UInt8) (sent : List Frame) : Prop where
  /-- The target -1 stands for everybody but the sender. -/
  others : target = -1 →
    sent = (members.filter fun member => member.1 ≠ sender).map fun member =>
      ⟨member.2.peer, frame⟩
  /-- The target -2 stands for everybody. -/
  all : target = -2 → sent = members.map fun member => ⟨member.2.peer, frame⟩
  /-- An index stands for whoever sits there. -/
  taken : ∀ {index : SeatIndex} {session : Session}, 0 ≤ target → index.toWire = target →
    (index, session) ∈ members → sent = [⟨session.peer, frame⟩]
  free : ∀ {index : SeatIndex}, 0 ≤ target → index.toWire = target →
    (∀ session, (index, session) ∉ members) → sent = []
  /-- Other negative numbers stand for nobody. -/
  unknown : target < -2 → sent = []

namespace Room

variable {room : Room} {lobby : Lobby} {sender : SeatIndex}

/-- All members of a room fit among the recipients of a packet. -/
theorem take_addresses (h : room.capacity ≤ maxRoomCapacity) (admits : SeatIndex → Bool) :
    (room.addresses lobby admits).take maxRoomCapacity =
      ((room.roster lobby).filter fun member => admits member.1).map fun member =>
        member.2.peer := by
  have hlength := List.length_filter_le (fun member => admits member.1) (room.roster lobby)
  have hroster := room.length_roster_le lobby
  rw [addresses_eq, List.take_of_length_le]
  rw [List.length_map]
  omega

theorem unreliableRecipients_others (h : room.capacity ≤ maxRoomCapacity) :
    room.unreliableRecipients lobby sender (-1) =
      ((room.roster lobby).filter fun member => member.1 ≠ sender).map fun member =>
        member.2.peer :=
  (if_pos rfl).trans (take_addresses h _)

theorem unreliableRecipients_all (h : room.capacity ≤ maxRoomCapacity) :
    room.unreliableRecipients lobby sender (-2) =
      (room.roster lobby).map fun member => member.2.peer := by
  refine (if_neg (by decide)).trans ((if_pos rfl).trans ((take_addresses h _).trans ?_))
  rw [List.filter_eq_self.mpr fun _ _ => rfl]

theorem unreliableRecipients_of_nonneg {index : SeatIndex} (h : 0 ≤ index.toWire) :
    room.unreliableRecipients lobby sender index.toWire =
      (room.memberAddress? lobby index).toList := by
  have hindex : SeatIndex.ofWire? index.toWire = some index := by
    rw [SeatIndex.ofWire?, if_neg (Int8.not_lt.mpr h), SeatIndex.toWire, UInt8.toUInt8_toInt8]
  have hothers : index.toWire ≠ Wire.targetOthers := fun heq =>
    absurd (heq ▸ h) (by decide)
  have hall : index.toWire ≠ Wire.targetAll := fun heq => absurd (heq ▸ h) (by decide)
  rw [unreliableRecipients, if_neg hothers, if_neg hall, hindex]
  rfl

theorem unreliableRecipients_of_lt {target : Int8} (h : target < -2) :
    room.unreliableRecipients lobby sender target = [] := by
  have hnobody : SeatIndex.ofWire? target = none := if_pos (Int8.lt_trans h (by decide))
  have hothers : target ≠ Wire.targetOthers := fun heq => absurd (heq ▸ h) (by decide)
  have hall : target ≠ Wire.targetAll := fun heq => absurd (heq ▸ h) (by decide)
  rw [unreliableRecipients, if_neg hothers, if_neg hall, hnobody]
  rfl

end Room

namespace Answer

/-- The answer to an unreliable packet for some recipients. -/
def unreliable (header : Wire.UnreliableHeader) : List SocketAddress → Answer
  | [] => .silent
  | recipients => .relayUnreliable header recipients

/-- The frame of an unreliable packet is sent to each recipient, if there are any. -/
theorem frames_unreliable {header : Wire.UnreliableHeader} {scratch : Scratch}
    (h : Wire.UnreliableHeader.decode scratch.datagram = .ok header)
    (recipients : List SocketAddress) (kind : Wire.Kind) (peer : SocketAddress) :
    let payload := (scratch.datagram.drop Wire.UnreliableHeader.width).take header.size.toNat
    ((unreliable header recipients).frames scratch kind peer).2 =
      recipients.map fun recipient => ⟨recipient, [Wire.Kind.unreliable.tag,
        header.credentials.index.toUInt8, UInt8.ofNat payload.length] ++ payload⟩ := by
  obtain ⟨-, left, hcut⟩ :=
    Wire.UnreliableHeader.exists_relayFrame? h header.credentials.index
  cases recipients with
  | nil => rfl
  | cons recipient rest => simp only [unreliable, frames, Scratch.relay, hcut]

end Answer

namespace World

variable {config : Config} {world : World} {now : Instant} {peer : SocketAddress}
variable {session : Session} {id : RoomId} {room : Room}

/-- The recipients of an unreliable packet are those on the roster that its target names. -/
theorem Consistent.delivers (h : world.Consistent config) (hconfig : config.Bounded)
    (hroom : world.rooms.room? id = some room) (sender : SeatIndex) (target : Int8)
    (frame : List UInt8) :
    Delivers (room.roster world.lobby) sender target frame
      ((room.unreliableRecipients world.lobby sender target).map (⟨·, frame⟩)) := by
  have roster := h.roster hroom
  have hcapacity : room.capacity ≤ maxRoomCapacity := by
    rw [(h.room hroom).capacity_eq]
    exact hconfig.roomCapacity_le
  constructor
  case others =>
    rintro rfl
    rw [Room.unreliableRecipients_others hcapacity, List.map_map]
    rfl
  case all =>
    rintro rfl
    rw [Room.unreliableRecipients_all hcapacity, List.map_map]
    rfl
  case taken =>
    rintro index session hnonneg rfl hmember
    have haddress := h.memberAddress?_of_sits hroom (roster.mem_iff.mp hmember)
    rw [Room.unreliableRecipients_of_nonneg hnonneg, haddress]
    rfl
  case free =>
    rintro index hnonneg rfl hfree
    have hnobody := h.memberAddress?_of_free hroom fun session hsits =>
      hfree session (roster.mem_iff.mpr hsits)
    rw [Room.unreliableRecipients_of_nonneg hnonneg, hnobody]
    rfl
  case unknown =>
    intro hlow
    rw [Room.unreliableRecipients_of_lt hlow]
    rfl

/-- A packet that is answered from a room records activity of its sender and no more. -/
theorem dispatch_of_answerMember {request : Request} {scratch : Scratch}
    {credentials : Wire.Credentials} {seat : Seat} {answer : Lobby → Room → Answer}
    (hdecode : Request.decode scratch.datagram = .ok request)
    (hserve : world.serve config now peer request =
      world.answerMember now peer credentials seat answer)
    (hfound : world.lobby.findByCredentials credentials = some session)
    (hroom : world.rooms.room? seat.room = some room) :
    let touched := world.touch session.slot peer now
    let dispatched := world.dispatch config now scratch peer
    dispatched.world = touched ∧
      dispatched.frames = ((answer touched.lobby room).frames scratch request.kind peer).2 := by
  have hserved : world.serve config now peer request =
      (world.touch session.slot peer now,
        answer (world.touch session.slot peer now).lobby room) := by
    rw [hserve, answerMember_of_eq_some hfound, hroom]
  exact dispatch_of_serve hdecode hserved

/-- An unreliable packet of a member is delivered to the right members of its room. The datagram may
be longer than the packet. What is sent is the packet's payload, after the index at which the sender
sits and the size of the payload, and it goes to the members that the target names at the addresses
that they have then; the sender has the address that the packet came from. Nothing changes but that
the sender's activity is recorded. -/
theorem unreliable_of_dispatch (hconfig : config.validate = .ok ()) (h : Reachable config world)
    (now : Instant) (peer : SocketAddress) (scratch : Scratch) {header : Wire.UnreliableHeader}
    {seat : Seat} (hdecode : Request.decode scratch.datagram = .ok (.unreliable header))
    (hfound : world.lobby.findByCredentials header.credentials = some session)
    (hseat : session.seat = some seat) :
    let payload := (scratch.datagram.drop Wire.UnreliableHeader.width).take header.size.toNat
    let frame := [10, seat.index.number, UInt8.ofNat payload.length] ++ payload
    let dispatched := world.dispatch config now scratch peer
    payload.length = header.size.toNat ∧
      dispatched.world = world.touch session.slot peer now ∧
      ∃ members, dispatched.world.Roster seat.room members ∧
        (seat.index, session.touch peer now) ∈ members ∧
        Delivers members seat.index header.target frame dispatched.frames := by
  intro payload frame dispatched
  have bounded := Config.bounded_of_validate hconfig
  have consistent := Consistent.of_reachable h
  have touched := consistent.touch session.slot peer now
  have hread := Request.decode_eq_unreliable_iff.mp hdecode
  obtain ⟨-, hget, -, hwire⟩ := Lobby.of_findByCredentials consistent.lobby hfound
  have hsits : world.Sits session seat := ⟨hget, hseat⟩
  obtain ⟨room, hroom⟩ := consistent.seated hsits.seat?
  have hclaimed := consistent.claimedSeat?_of_findByCredentials bounded hfound hseat
  have hserve : world.serve config now peer (.unreliable header) =
      world.answerMember now peer header.credentials seat fun lobby room =>
        .unreliable header (room.unreliableRecipients lobby seat.index header.target) := by
    simp only [serve, serveUnreliable, hclaimed]
    rfl
  obtain ⟨hworld, hframes⟩ := dispatch_of_answerMember hdecode hserve hfound hroom
  have hindex : header.credentials.index.toUInt8 = seat.index.number := by
    have hplace : header.credentials.index = seat.index.toWire := by
      rw [hseat] at hwire
      exact (congrArg Prod.snd hwire).symm
    rw [hplace, SeatIndex.toWire, UInt8.toUInt8_toInt8]
  have hsent : dispatched.frames =
      (room.unreliableRecipients (world.touch session.slot peer now).lobby seat.index
        header.target).map (⟨·, frame⟩) := by
    refine hframes.trans ((Answer.frames_unreliable hread _ _ _).trans ?_)
    rw [hindex]
    rfl
  refine ⟨(Wire.UnreliableHeader.exists_relayFrame? hread 0).1, hworld,
    room.roster (world.touch session.slot peer now).lobby, ?_, ?_, ?_⟩
  · rw [hworld]
    exact touched.roster hroom
  · exact (touched.roster hroom).mem_iff.mpr (hsits.touch peer now)
  · rw [hsent]
    exact touched.delivers bounded hroom seat.index header.target frame

/-- The first member of a room sends two bytes to the second one, and is heard from a new place. -/
theorem unreliable_of_pair :
    let world := (ofConfig .small).run .small smallPair
    let header : Wire.UnreliableHeader := ⟨⟨654988, 0, 0, 0⟩, 1, 2⟩
    let datagram := Wire.packet .unreliable Wire.UnreliableHeader.format header [5, 6]
    let dispatched := world.dispatch .small 9 ⟨.empty, datagram⟩ (.anyV4 40001)
    Config.validate .small = .ok () ∧ Reachable .small world ∧
      Request.decode datagram = .ok (.unreliable header) ∧
      (∃ session, world.lobby.findByCredentials header.credentials = some session ∧
        session.seat = some ⟨⟨0⟩, ⟨0⟩⟩) ∧
      dispatched.frames = [⟨smallPeer, [10, 0, 2, 5, 6]⟩] := by
  intro world header datagram dispatched
  have hconfig : Config.validate .small = .ok () := rfl
  have hreachable : Reachable .small world := ⟨_, rfl⟩
  have hdecode : Request.decode datagram = .ok (.unreliable header) :=
    Request.decode_eq_unreliable_iff.mpr
      (Wire.readHeader_eq_ok_iff.mpr ⟨[5, 6], [], rfl, (List.append_nil _).symm⟩)
  let sender : Session :=
    { slot := ⟨0⟩, device := Vector.replicate _ 7, token := ⟨654988, by decide⟩
      peer := smallPeer, lastActive := 0, seat := some ⟨⟨0⟩, ⟨0⟩⟩, flags := Wire.masterFlag }
  let receiver : Session :=
    { slot := ⟨1⟩, device := Vector.replicate _ 8, token := ⟨654989, by decide⟩
      peer := smallPeer, lastActive := 0, seat := some ⟨⟨0⟩, ⟨1⟩⟩, flags := 0 }
  have hfound : world.lobby.findByCredentials header.credentials = some sender := by
    decide +kernel
  have hreceiver : dispatched.world.lobby.get? receiver.slot = some receiver := by
    decide +kernel
  obtain ⟨-, -, members, roster, -, delivers⟩ :=
    unreliable_of_dispatch hconfig hreachable 9 (.anyV4 40001) ⟨.empty, datagram⟩ hdecode hfound rfl
  have hmember : (⟨1⟩, receiver) ∈ members := roster.mem_iff.mpr ⟨hreceiver, rfl⟩
  exact ⟨hconfig, hreachable, hdecode, ⟨sender, hfound, rfl⟩,
    delivers.taken (by decide) rfl hmember⟩

end World

end RoomRelay
