import RoomRelay.Proofs.Checked.Server
import RoomRelay.Proofs.Reuse

/-!
# Datagrams longer than what they carry

A datagram is read up to the end of its record, or of the payload that its header declares. Whatever
follows is passed over: by the decoders, which look for everything from the start of the datagram,
and by the frames that are cut from it. No request takes more bytes than a worker's buffer has, so
the buffer never cuts off anything that counts.
-/

namespace RoomRelay

namespace Wire

section Reading

variable {α : Type} {record : Record α} {datagram : List UInt8}

/-- What follows a record is not read. -/
theorem Record.decode_append (h : record.size ≤ datagram.length) (rest : List UInt8) :
    record.decode (datagram ++ rest) = record.decode datagram := by
  have hlong : record.size ≤ (datagram ++ rest).length :=
    List.length_append ▸ Nat.le_add_right_of_le h
  rw [decode, decode, if_neg (Nat.not_lt.mpr hlong), if_neg (Nat.not_lt.mpr h),
    List.take_append_of_le_length h]

variable {kind : Kind} {format : Format α} {size : α → UInt8} {header : α}

/-- If a header ends in the size that it declares, then that is the byte where the header ends. -/
theorem getElem?_packet_append
    (hlast : ∀ header, (format.encode header).getLast? = some (size header)) (kind : Kind)
    (header : α) (payload rest : List UInt8) :
    (packet kind format header payload ++ rest)[format.width]? = some (size header) := by
  obtain ⟨opening, hopening⟩ := List.getLast?_eq_some_iff.mp (hlast header)
  have hwidth : format.width = (kind.tag :: opening).length := by
    rw [← format.length_encode header, hopening, List.length_append, List.length_cons]
    rfl
  rw [packet, hopening, List.cons_append, List.append_assoc, List.append_assoc,
    ← List.cons_append, hwidth, List.getElem?_append_right (Nat.le_refl _), Nat.sub_self]
  rfl

/-- What follows a packet is not read. Where the packet ends is told by the last byte of what may be
its header. -/
theorem readHeader_append_eq_ok_iff
    (hlast : ∀ header, (format.encode header).getLast? = some (size header))
    (h : 1 + format.width + (datagram.getD format.width 0).toNat ≤ datagram.length)
    (rest : List UInt8) :
    readHeader kind format size (datagram ++ rest) = .ok header ↔
      readHeader kind format size datagram = .ok header := by
  rw [readHeader_eq_ok_iff, readHeader_eq_ok_iff]
  constructor
  · rintro ⟨payload, after, hsize, hpacket⟩
    -- The whole packet lies in the datagram, because its size byte does.
    have hinside : format.width < datagram.length := by omega
    have hdeclared : datagram.getD format.width 0 = size header := by
      have hbyte := getElem?_packet_append hlast kind header payload after
      rw [← hpacket, List.getElem?_append_left hinside] at hbyte
      rw [List.getD_eq_getElem?_getD, hbyte]
      rfl
    have hlength : (packet kind format header payload).length ≤ datagram.length := by
      rw [length_packet, hsize, ← hdeclared]
      exact h
    obtain ⟨left, hleft⟩ := List.prefix_of_prefix_length_le
      ⟨after, hpacket.symm⟩ (List.prefix_append datagram rest) hlength
    exact ⟨payload, left, hsize, hleft.symm⟩
  · rintro ⟨payload, after, hsize, rfl⟩
    exact ⟨payload, after ++ rest, hsize, List.append_assoc _ _ _⟩

end Reading

theorem UnreliableHeader.getLast?_encode_format (header : UnreliableHeader) :
    (format.encode header).getLast? = some header.size := by
  rw [encode_format, ← List.append_assoc, List.getLast?_append]
  rfl

theorem ReliableHeader.getLast?_encode_format (header : ReliableHeader) :
    (format.encode header).getLast? = some header.size := by
  rw [encode_format, ← List.append_assoc, List.getLast?_append]
  rfl

/-- The number of bytes that a datagram of some kind must have: those of the record, or those of the
header and of the payload whose size is the last byte of the header. -/
def Kind.extent (datagram : List UInt8) : Kind → Nat
  | .ping => Ping.record.size
  | .login => Login.record.size
  | .logout => Logout.record.size
  | .create => Create.record.size
  | .join => Join.record.size
  | .leave => Leave.record.size
  | .unreliable =>
    UnreliableHeader.width + (datagram.getD (UnreliableHeader.width - 1) 0).toNat
  | .reliable => ReliableHeader.width + (datagram.getD (ReliableHeader.width - 1) 0).toNat
  | .relied => Relied.record.size

/-- The first byte alone tells the kind. -/
theorem Kind.peek_append {datagram : List UInt8} (h : datagram ≠ []) (rest : List UInt8) :
    peek (datagram ++ rest) = peek datagram := by
  cases datagram with
  | nil => cases h rfl
  | cons tag after => rfl

/-- Every request fits a buffer. -/
theorem Kind.extent_le_maxDatagram (kind : Kind) (datagram : List UInt8) :
    kind.extent datagram ≤ maxDatagram := by
  have declared : ∀ (byte : UInt8) {width : Nat}, width + 255 ≤ maxDatagram →
      width + byte.toNat ≤ maxDatagram := by
    intro byte width hwidth
    have := byte.toNat_lt
    omega
  cases kind with
  | unreliable | reliable => exact declared _ (by decide)
  | ping | login | logout | create | join | leave | relied => exact of_decide_eq_true rfl

end Wire

namespace Request

variable {datagram : List UInt8} {request : Request} {kind : Wire.Kind}

/-- What follows a request in its datagram is not read. -/
theorem decodeAs_append_eq_ok_iff (h : kind.extent datagram ≤ datagram.length)
    (rest : List UInt8) :
    decodeAs (datagram ++ rest) kind = .ok request ↔ decodeAs datagram kind = .ok request := by
  have read : ∀ {α : Type} {wrap : α → Request} {padded alone : Except Wire.Error α},
      (∀ message, padded = .ok message ↔ alone = .ok message) →
        (padded.map wrap = .ok request ↔ alone.map wrap = .ok request) := by
    intro α wrap padded alone hread
    simp only [map_eq_ok_iff, hread]
  cases kind with
  | unreliable =>
      exact read fun header => Wire.readHeader_append_eq_ok_iff
        Wire.UnreliableHeader.getLast?_encode_format h rest
  | reliable =>
      exact read fun header => Wire.readHeader_append_eq_ok_iff
        Wire.ReliableHeader.getLast?_encode_format h rest
  | ping | login | logout | create | join | leave | relied =>
      exact read fun message => by rw [Wire.Record.decode_append h rest]

theorem decode_append_eq_ok_iff (hkind : Wire.Kind.peek datagram = .ok kind)
    (h : kind.extent datagram ≤ datagram.length) (rest : List UInt8) :
    decode (datagram ++ rest) = .ok request ↔ decode datagram = .ok request := by
  have hnonempty : datagram ≠ [] := by
    rintro rfl
    cases hkind
  rw [decode, decode, Wire.Kind.peek_append hnonempty, hkind]
  exact decodeAs_append_eq_ok_iff h rest

theorem decode_of_peek_error {fault : Wire.Error} (h : Wire.Kind.peek datagram = .error fault) :
    decode datagram = .error fault := by
  rw [decode, h]
  rfl

end Request

/-- A scratch whose datagram is longer. -/
def Scratch.extend (scratch : Scratch) (rest : List UInt8) : Scratch :=
  { scratch with datagram := scratch.datagram ++ rest }

namespace Scratch

variable (scratch : Scratch) (rest : List UInt8)

theorem write_extend (recipient : SocketAddress)
    (encode : Wire.Writer → Except Wire.Error Wire.Writer) :
    (scratch.extend rest).write recipient encode =
      ((scratch.write recipient encode).1.extend rest, (scratch.write recipient encode).2) := by
  have hwriter : (scratch.extend rest).writer = scratch.writer := rfl
  rw [write, write, hwriter]
  cases encode scratch.writer <;> rfl

theorem relay_extend (recipients : List SocketAddress) {cut? : List UInt8 → Option Wire.Cut}
    {cut : Wire.Cut} (h : cut? scratch.datagram = some cut)
    (hextend : cut? (scratch.datagram ++ rest) = some ⟨cut.frame, cut.buffer ++ rest⟩) :
    (scratch.extend rest).relay recipients cut? =
      ((scratch.relay recipients cut?).1.extend rest, (scratch.relay recipients cut?).2) := by
  simp only [relay, extend, h, hextend]

end Scratch

/-- An answer that can be cut from a datagram sends the same frames if the datagram is longer. -/
theorem Answer.frames_extend {answer : Answer} {scratch : Scratch}
    (h : answer.Fits scratch.datagram) (rest : List UInt8) (kind : Wire.Kind)
    (peer : SocketAddress) :
    answer.frames (scratch.extend rest) kind peer =
      ((answer.frames scratch kind peer).1.extend rest, (answer.frames scratch kind peer).2) := by
  cases answer <;> simp only [frames]
  case status | pinged | loggedIn | created | joined => exact scratch.write_extend rest peer _
  case relayUnreliable header recipients =>
    obtain ⟨-, left, hcut⟩ :=
      Wire.UnreliableHeader.exists_relayFrame? h header.credentials.index
    exact scratch.relay_extend rest recipients hcut (Wire.cut?_extend hcut rest)
  case relayReliable header recipient =>
    obtain ⟨-, left, hcut⟩ := Wire.ReliableHeader.exists_relayFrame? h header.credentials.index
    exact scratch.relay_extend rest [recipient] hcut (Wire.cut?_extend hcut rest)
  case acknowledge index ack recipient =>
    obtain ⟨left, hcut⟩ := Wire.exists_ackFrame? h index ack
    exact scratch.relay_extend rest [recipient] hcut (Wire.cut?_extend hcut rest)

namespace World

/-- What is dispatched does not depend on what follows the request in its datagram, which is still
there afterwards. -/
theorem dispatch_extend (world : World) (config : Config) (now : Instant) {scratch : Scratch}
    (peer : SocketAddress) {kind : Wire.Kind} (hkind : Wire.Kind.peek scratch.datagram = .ok kind)
    (h : kind.extent scratch.datagram ≤ scratch.datagram.length) (rest : List UInt8) :
    let alone := world.dispatch config now scratch peer
    world.dispatch config now (scratch.extend rest) peer =
      ⟨alone.world, alone.scratch.extend rest, alone.frames⟩ := by
  have hread : ∀ request, Request.decode (scratch.datagram ++ rest) = .ok request ↔
      Request.decode scratch.datagram = .ok request :=
    fun _ => Request.decode_append_eq_ok_iff hkind h rest
  have hdatagram : (scratch.extend rest).datagram = scratch.datagram ++ rest := rfl
  rw [dispatch, dispatch, hdatagram]
  cases hdecode : Request.decode scratch.datagram with
  | ok request =>
      have hfits := fits_serve world config now peer hdecode
      rw [(hread request).mpr hdecode]
      simp only [Answer.frames_extend hfits]
  | error fault =>
      cases hpadded : Request.decode (scratch.datagram ++ rest) with
      | error _ => rfl
      | ok request =>
          rw [(hread request).mp hpadded] at hdecode
          cases hdecode

/-- A datagram may be cut to the size of a buffer before it is dispatched. If that takes bytes away,
then what is left is still long enough for every request. -/
theorem dispatch_take (world : World) (config : Config) (now : Instant) (writer : Wire.Writer)
    (datagram : List UInt8) (peer : SocketAddress) :
    let whole := world.dispatch config now ⟨writer, datagram⟩ peer
    let short := world.dispatch config now ⟨writer, datagram.take Wire.maxDatagram⟩ peer
    short.world = whole.world ∧ short.frames = whole.frames := by
  obtain hfits | hlong := Nat.le_total datagram.length Wire.maxDatagram
  · rw [List.take_of_length_le hfits]
    exact ⟨rfl, rfl⟩
  · let short : Scratch := ⟨writer, datagram.take Wire.maxDatagram⟩
    have hlength : short.datagram.length = Wire.maxDatagram := List.length_take_of_le hlong
    have hwhole : short.extend (datagram.drop Wire.maxDatagram) = ⟨writer, datagram⟩ :=
      congrArg (Scratch.mk writer) (List.take_append_drop _ _)
    rw [← hwhole]
    cases hkind : Wire.Kind.peek short.datagram with
    | ok kind =>
        have hextent := hlength ▸ kind.extent_le_maxDatagram short.datagram
        rw [world.dispatch_extend config now peer hkind hextent]
        exact ⟨rfl, rfl⟩
    | error fault =>
        have hnonempty : short.datagram ≠ [] := List.ne_nil_of_length_pos (hlength ▸ by decide)
        have hpadded :=
          (Wire.Kind.peek_append hnonempty (datagram.drop Wire.maxDatagram)).trans hkind
        have hdropped : ∀ {scratch : Scratch}, Wire.Kind.peek scratch.datagram = .error fault →
            world.dispatch config now scratch peer = ⟨world, scratch, []⟩ := by
          intro scratch hpeek
          rw [dispatch, Request.decode_of_peek_error hpeek]
        rw [hdropped hkind, hdropped hpadded]
        exact ⟨rfl, rfl⟩

/-- How a server in some state deals with datagrams from a peer, of whatever length. -/
structure IgnoresRest (config : Config) (world : World) (now : Instant) (peer : SocketAddress) :
    Prop where
  /-- Bytes after a request that is there in full make no difference. Where the datagram is kept,
  they still follow it. -/
  padded : ∀ (scratch : Scratch) {kind : Wire.Kind},
    Wire.Kind.peek scratch.datagram = .ok kind →
      kind.extent scratch.datagram ≤ scratch.datagram.length →
        ∀ rest, world.dispatch config now (scratch.extend rest) peer =
          let alone := world.dispatch config now scratch peer
          ⟨alone.world, alone.scratch.extend rest, alone.frames⟩
  /-- A datagram may be cut to the size of a buffer before it is dispatched. -/
  cut : ∀ (writer : Wire.Writer) (datagram : List UInt8),
    let whole := world.dispatch config now ⟨writer, datagram⟩ peer
    let short := world.dispatch config now ⟨writer, datagram.take Wire.maxDatagram⟩ peer
    short.world = whole.world ∧ short.frames = whole.frames
  /-- So a worker that receives a datagram into its buffer carries it out as if the buffer held all
  of it. -/
  received : ∀ (mailbox : Mailbox) (worker : Worker) {bytes : List UInt8}
      {waiting : List Datagram} (reachable : SocketAddress → Bool),
    worker.buffer.length = Wire.maxDatagram →
      mailbox.inbound = ⟨bytes, peer⟩ :: waiting →
        let whole := world.dispatch config now ⟨worker.writer, bytes⟩ peer
        let after := (Station.mk world mailbox worker).step config reachable now
        after.world = whole.world ∧
          after.mailbox.outbound =
            mailbox.outbound ++ whole.frames.filter fun frame => reachable frame.to

/-- Bytes beyond the end of a request never matter: not to what becomes of the world, and not to
what is sent, whatever the state of the server and whoever sends them. Neither does it matter that a
buffer holds only so many bytes. -/
theorem dispatch_ignores_rest (config : Config) (world : World) (now : Instant)
    (peer : SocketAddress) : IgnoresRest config world now peer where
  padded scratch _ hkind h rest := world.dispatch_extend config now peer hkind h rest
  cut writer datagram := world.dispatch_take config now writer datagram peer
  received mailbox worker bytes waiting reachable hbuffer hwaits := by
    obtain ⟨hworld, houtbound, -, -⟩ :=
      (Station.mk world mailbox worker).step_of_waiting hbuffer hwaits config reachable now
    obtain ⟨hworld', hframes'⟩ := world.dispatch_writer config now .empty worker.writer
      (bytes.take Wire.maxDatagram) peer
    obtain ⟨hcut, hframes⟩ := world.dispatch_take config now worker.writer bytes peer
    exact ⟨hworld.trans (hworld'.trans hcut), by rw [houtbound, hframes', hframes]⟩

/-- A packet for the other member of a room, in a datagram that is longer than a buffer. It is
passed on also if a worker receives it. -/
theorem dispatch_ignores_rest_of_long_datagram :
    let world := (ofConfig .small).run .small smallPair
    let packet := Wire.packet .unreliable Wire.UnreliableHeader.format
      ⟨⟨654988, 0, 0, 0⟩, Wire.targetOthers, 2⟩ [120, 121]
    let padding := List.replicate 2000 11
    let mailbox : Mailbox :=
      { Mailbox.atAddress smallPeer with inbound := [⟨packet ++ padding, smallPeer⟩] }
    let received := (Station.fresh world mailbox).step .small (fun _ => true) 5
    Wire.Kind.peek packet = .ok .unreliable ∧
      Wire.Kind.extent packet .unreliable = packet.length ∧
      (world.dispatch .small 5 ⟨.empty, packet ++ padding⟩ smallPeer).frames =
        [⟨smallPeer, [10, 0, 2, 120, 121]⟩] ∧
      (world.dispatch .small 5 ⟨.empty, (packet ++ padding).take Wire.maxDatagram⟩
        smallPeer).frames = [⟨smallPeer, [10, 0, 2, 120, 121]⟩] ∧
      received.mailbox.outbound = [⟨smallPeer, [10, 0, 2, 120, 121]⟩] := by
  intro world packet padding mailbox received
  have hkind : Wire.Kind.peek packet = .ok .unreliable := rfl
  have hextent : Wire.Kind.extent packet .unreliable = packet.length := by decide +kernel
  have halone : (world.dispatch .small 5 ⟨.empty, packet⟩ smallPeer).frames =
      [⟨smallPeer, [10, 0, 2, 120, 121]⟩] := by
    decide +kernel
  have hignores := dispatch_ignores_rest .small world 5 smallPeer
  have hpadded : ∀ rest, (world.dispatch .small 5 ⟨.empty, packet ++ rest⟩ smallPeer).frames =
      [⟨smallPeer, [10, 0, 2, 120, 121]⟩] := by
    intro rest
    have hframes := congrArg Dispatched.frames
      (hignores.padded ⟨.empty, packet⟩ hkind (Nat.le_of_eq hextent) rest)
    dsimp only at hframes
    exact hframes.trans halone
  have hcut := (hignores.cut .empty (packet ++ padding)).2
  have hbuffer : Worker.fresh.buffer.length = Wire.maxDatagram := List.length_replicate
  have hwriter : Worker.fresh.writer = .empty := rfl
  have hreceived := (hignores.received mailbox .fresh (fun _ => true) hbuffer rfl).2
  rw [hwriter, hpadded padding] at hreceived
  exact ⟨hkind, hextent, hpadded padding, hcut.trans (hpadded padding), hreceived⟩

end World

end RoomRelay
