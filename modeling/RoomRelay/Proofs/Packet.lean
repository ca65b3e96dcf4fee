import RoomRelay.Relay.Request
import RoomRelay.Wire.Exact

/-!
# Packets and the frames cut from them

A packet is a tag, a header and a payload of the size that the header declares; a datagram that is
read as a packet starts with one. Its frame is cut from the same bytes. What is overwritten lies
before the declared size, so the frame ends in the size and the payload as they were sent.
-/

namespace RoomRelay

namespace Wire

section Cut

variable {buffer old new : List UInt8} {start stop : Nat} {cut : Cut}

theorem length_overwritten (h : start + new.length ≤ buffer.length) :
    (buffer.take start ++ (new ++ buffer.drop (start + new.length))).length = buffer.length := by
  simp only [List.length_append, List.length_take, List.length_drop]
  omega

/-- What is overwritten lies inside the buffer, and so does the frame. -/
theorem cut?_eq_some_iff :
    cut? buffer start new stop = some cut ↔
      start + new.length ≤ buffer.length ∧ start ≤ stop ∧ stop ≤ buffer.length ∧
        cut.buffer = buffer.take start ++ (new ++ buffer.drop (start + new.length)) ∧
        cut.frame = (cut.buffer.take stop).drop start := by
  obtain ⟨frame, left⟩ := cut
  simp only [cut?, overwrite?, slice?, bind, Option.bind_eq_some_iff, Option.ite_none_right_eq_some,
    Option.some.injEq, pure, Cut.mk.injEq, List.append_assoc]
  constructor
  · rintro ⟨_, ⟨hfits, rfl⟩, _, ⟨⟨hstart, hstop⟩, rfl⟩, rfl, rfl⟩
    exact ⟨hfits, hstart, length_overwritten hfits ▸ hstop, rfl, rfl⟩
  · rintro ⟨hfits, hstart, hstop, rfl, rfl⟩
    exact ⟨_, ⟨hfits, rfl⟩, _, ⟨⟨hstart, (length_overwritten hfits).symm ▸ hstop⟩, rfl⟩, rfl, rfl⟩

theorem length_of_cut? (h : cut? buffer start new stop = some cut) :
    cut.buffer.length = buffer.length := by
  obtain ⟨hfits, -, -, hbuffer, -⟩ := cut?_eq_some_iff.mp h
  rw [hbuffer, length_overwritten hfits]

/-- Bytes that are not overwritten stay as they are. -/
theorem getElem?_of_cut? (h : cut? buffer start new stop = some cut) {position : Nat}
    (hposition : position < start ∨ start + new.length ≤ position) :
    cut.buffer[position]? = buffer[position]? := by
  obtain ⟨hfits, -, -, hbuffer, -⟩ := cut?_eq_some_iff.mp h
  have hstart : (buffer.take start).length = start := List.length_take_of_le (by omega)
  rw [hbuffer]
  obtain hbefore | hafter := hposition
  · rw [List.getElem?_append_left (hstart.symm ▸ hbefore), List.getElem?_take_of_lt hbefore]
  · obtain ⟨later, rfl⟩ := Nat.exists_eq_add_of_le hafter
    rw [Nat.add_assoc, List.getElem?_append_right (by omega), hstart, Nat.add_sub_cancel_left,
      List.getElem?_append_right (Nat.le_add_right _ _), Nat.add_sub_cancel_left,
      List.getElem?_drop, Nat.add_assoc]

/-- A frame that ends after what is overwritten is cut from every buffer that reaches so far. -/
theorem cut?_eq_none_iff (h : start + new.length ≤ stop) :
    cut? buffer start new stop = none ↔ buffer.length < stop := by
  constructor
  · intro hnone
    refine Nat.lt_of_not_le fun hstop => ?_
    let left := buffer.take start ++ (new ++ buffer.drop (start + new.length))
    have hcut : cut? buffer start new stop = some ⟨(left.take stop).drop start, left⟩ :=
      cut?_eq_some_iff.mpr ⟨Nat.le_trans h hstop, by omega, hstop, rfl, rfl⟩
    rw [hnone] at hcut
    cases hcut
  · intro hshort
    refine Option.eq_none_iff_forall_ne_some.mpr fun cut hcut => ?_
    obtain ⟨-, -, hstop, -⟩ := cut?_eq_some_iff.mp hcut
    omega

/-- What follows in a buffer after what is needed for a frame makes no difference to it. -/
theorem cut?_extend (h : cut? buffer start new stop = some cut) (rest : List UInt8) :
    cut? (buffer ++ rest) start new stop = some ⟨cut.frame, cut.buffer ++ rest⟩ := by
  have hlength := length_of_cut? h
  obtain ⟨hfits, hstart, hstop, hbuffer, hframe⟩ := cut?_eq_some_iff.mp h
  refine cut?_eq_some_iff.mpr ⟨?_, hstart, ?_, ?_, ?_⟩
  · rw [List.length_append]
    omega
  · rw [List.length_append]
    omega
  · rw [hbuffer, List.take_append_of_le_length (by omega), List.drop_append_of_le_length hfits,
      List.append_assoc, List.append_assoc]
  · rw [hframe, List.take_append_of_le_length (hlength.symm ▸ hstop)]

theorem overwrite?_append (before : List UInt8) (h : new.length = old.length)
    (rest : List UInt8) :
    overwrite? (before ++ (old ++ rest)) before.length new =
      some (before ++ (new ++ rest)) := by
  have hfits : before.length + new.length ≤ (before ++ (old ++ rest)).length := by
    simp only [List.length_append]
    omega
  rw [overwrite?, if_pos hfits, List.take_left, h, ← List.drop_drop, List.drop_left,
    List.drop_left, List.append_assoc]

theorem slice?_append (before middle rest : List UInt8) :
    slice? (before ++ (middle ++ rest)) before.length (before.length + middle.length) =
      some middle := by
  have hinside : before.length ≤ before.length + middle.length ∧
      before.length + middle.length ≤ (before ++ (middle ++ rest)).length := by
    simp only [List.length_append]
    omega
  rw [slice?, if_pos hinside, ← List.length_append, ← List.append_assoc, List.take_left,
    List.drop_left]

/-- A frame is what was written followed by the bytes up to its end. -/
theorem cut?_append (before : List UInt8) (h : new.length = old.length)
    (after rest : List UInt8) :
    cut? (before ++ (old ++ (after ++ rest))) before.length new
        (before.length + (new ++ after).length) =
      some ⟨new ++ after, before ++ (new ++ (after ++ rest))⟩ := by
  have hframe := slice?_append before (new ++ after) rest
  rw [List.append_assoc new after rest] at hframe
  simp only [cut?, overwrite?_append before h, bind, Option.bind, hframe, pure]

end Cut

/-- The frame of an acknowledgement, cut from any datagram that is as long. -/
theorem exists_ackFrame? {buffer : List UInt8} (h : ackFrameSize ≤ buffer.length) (index : Int8)
    (ack : UInt8) :
    ∃ left, ackFrame? buffer index ack =
      some ⟨[Kind.relied.tag, index.toUInt8, ack], left⟩ := by
  have hold : [Kind.relied.tag, index.toUInt8, ack].length = (buffer.take ackFrameSize).length :=
    (List.length_take_of_le h).symm
  have hcut := cut?_append [] hold [] (buffer.drop ackFrameSize)
  simp only [List.nil_append, List.append_nil, List.take_append_drop] at hcut
  exact ⟨_, hcut⟩

section Packet

variable {α : Type} {kind : Kind} {format : Format α} {size : α → UInt8} {header : α}
variable {payload : List UInt8}

/-- The bytes of a packet. -/
def packet (kind : Kind) (format : Format α) (header : α) (payload : List UInt8) : List UInt8 :=
  kind.tag :: (format.encode header ++ payload)

/-- Reads the header of a packet, and checks that the payload is there that it declares. -/
def readHeader (kind : Kind) (format : Format α) (size : α → UInt8) (datagram : List UInt8) :
    Except Error α := do
  let r ← (Reader.ofBytes datagram).expect kind
  let (header, r) ← format.read r
  checkPayload (size header).toNat r.remaining
  return header

/-- Replaces the contents of a writer by a packet. -/
def writePacket (kind : Kind) (format : Format α) (header : α) (payload : List UInt8)
    (w : Writer) : Except Error Writer := do
  let w ← w.reset.put .u8 kind.tag
  let w ← w.append (format.encode header)
  w.append payload

theorem length_packet (kind : Kind) (format : Format α) (header : α) (payload : List UInt8) :
    (packet kind format header payload).length = 1 + format.width + payload.length := by
  simp only [packet, List.length_cons, List.length_append, format.length_encode]
  omega

/-- A header is read from a datagram that starts with a packet, and from no other. -/
theorem readHeader_eq_ok_iff {datagram : List UInt8} :
    readHeader kind format size datagram = .ok header ↔
      ∃ payload rest, payload.length = (size header).toNat ∧
        datagram = packet kind format header payload ++ rest := by
  constructor
  · intro h
    simp only [readHeader, bind, Except.bind, pure, Except.pure] at h
    split at h
    · cases h
    · next r hexpect =>
      split at h
      · cases h
      · next found hread =>
        obtain ⟨found, r'⟩ := found
        split at h
        · cases h
        · next hcheck =>
          cases h
          obtain ⟨htag, -⟩ := Reader.of_expect hexpect
          obtain ⟨hheader, -⟩ := format.of_read hread
          have hle : (size found).toNat ≤ r'.rest.length := by
            unfold checkPayload at hcheck
            split at hcheck
            · assumption
            · cases hcheck
          refine ⟨r'.rest.take (size found).toNat, r'.rest.drop (size found).toNat,
            List.length_take_of_le hle, ?_⟩
          rw [packet, List.cons_append, List.append_assoc, List.take_append_drop, ← hheader]
          exact htag
  · rintro ⟨payload, rest, hsize, rfl⟩
    have hexpect : (Reader.ofBytes (packet kind format header payload ++ rest)).expect kind =
        .ok ⟨0 + 1, format.encode header ++ (payload ++ rest)⟩ := by
      rw [packet, List.cons_append, List.append_assoc]
      exact Reader.expect_tag kind 0 _
    have hle : (size header).toNat ≤ (payload ++ rest).length := by
      rw [List.length_append]
      omega
    simp only [readHeader, hexpect, format.read_encode, checkPayload, Reader.remaining, hle,
      if_true, bind, Except.bind, pure, Except.pure]

theorem width_le_of_readHeader {datagram : List UInt8}
    (h : readHeader kind format size datagram = .ok header) :
    1 + format.width ≤ datagram.length := by
  obtain ⟨payload, rest, -, rfl⟩ := readHeader_eq_ok_iff.mp h
  rw [List.length_append, length_packet]
  omega

/-- A packet that fits a datagram replaces whatever the writer holds. -/
theorem exists_writePacket (w : Writer)
    (h : (packet kind format header payload).length ≤ maxDatagram) :
    ∃ w', writePacket kind format header payload w = .ok w' ∧
      w'.contents = packet kind format header payload := by
  rw [length_packet] at h
  obtain ⟨w₁, htag, h₁⟩ := w.reset.append_of_le [kind.tag]
    (by simp [Writer.remaining, Writer.reset, Writer.empty, maxDatagram])
  have h₁ : w₁.contents = [kind.tag] := h₁
  obtain ⟨w₂, hheader, h₂⟩ := w₁.append_of_le (format.encode header)
    (by
      simp only [Writer.remaining, h₁, format.length_encode, List.length_singleton]
      omega)
  obtain ⟨w₃, hpayload, h₃⟩ := w₂.append_of_le payload
    (by
      simp only [Writer.remaining, h₂, h₁, List.length_append, format.length_encode,
        List.length_singleton]
      omega)
  refine ⟨w₃, ?_, by rw [h₃, h₂, h₁, List.append_assoc]; rfl⟩
  simp only [writePacket, Writer.put, Field.encode_u8, htag, hheader, hpayload, bind,
    Except.bind]

/-- The payload follows the header. -/
theorem take_drop_packet (kind : Kind) (format : Format α) (header : α)
    (payload rest : List UInt8) :
    ((packet kind format header payload ++ rest).drop (1 + format.width)).take payload.length =
      payload := by
  have hlength : (kind.tag :: format.encode header).length = 1 + format.width := by
    rw [List.length_cons, format.length_encode, Nat.add_comm]
  rw [packet, ← List.cons_append, List.append_assoc, ← hlength, List.drop_left, List.take_left]

/-- A frame may overwrite the last byte of the credentials and what is named before the size. -/
theorem exists_cut?_packet {datagram named : List UInt8} {credentials : Credentials}
    (new : List UInt8) (h : readHeader kind format size datagram = .ok header)
    (hheader : format.encode header =
      Credentials.format.encode credentials ++ (named ++ [size header]))
    (hnew : new.length = 1 + named.length) :
    let payload := (datagram.drop (1 + format.width)).take (size header).toNat
    payload.length = (size header).toNat ∧
      ∃ left, cut? datagram Credentials.format.width new
          (1 + format.width + (size header).toNat) =
        some ⟨new ++ UInt8.ofNat payload.length :: payload, left⟩ := by
  obtain ⟨payload, rest, hsize, rfl⟩ := readHeader_eq_ok_iff.mp h
  rw [← hsize, take_drop_packet]
  refine ⟨rfl, ?_⟩
  rw [hsize, UInt8.ofNat_toNat]
  -- The frame starts at the last byte of the credentials, which is the sender's index.
  let opening := kind.tag :: Credentials.format.encode credentials
  have hopening : opening.length = Credentials.format.width + 1 :=
    congrArg (· + 1) (Credentials.format.length_encode credentials)
  have hbefore : (opening.take Credentials.format.width).length = Credentials.format.width :=
    List.length_take_of_le (by omega)
  have hold : new.length = (opening.drop Credentials.format.width ++ named).length := by
    rw [List.length_append, List.length_drop]
    omega
  have hstop : 1 + format.width + (size header).toNat =
      Credentials.format.width + (new ++ size header :: payload).length := by
    have hwidth := format.length_encode header
    rw [hheader] at hwidth
    simp only [List.length_append, List.length_cons, List.length_nil,
      Credentials.format.length_encode] at hwidth ⊢
    omega
  have hcut := cut?_append (opening.take Credentials.format.width) hold (size header :: payload)
    rest
  rw [List.append_assoc (opening.drop _), ← List.append_assoc (opening.take _),
    List.take_append_drop, hbefore, ← hstop] at hcut
  refine ⟨_, Eq.trans ?_ hcut⟩
  rw [packet, hheader]
  simp only [opening, List.cons_append, List.append_assoc, List.nil_append]

end Packet

namespace UnreliableHeader

theorem decode_eq_readHeader : decode = readHeader .unreliable format size := rfl

theorem encode_format (header : UnreliableHeader) :
    format.encode header = Credentials.format.encode header.credentials ++
      ([header.target.toUInt8] ++ [header.size]) := by
  rw [← Field.encode_i8, ← Field.encode_u8]
  rfl

variable {header : UnreliableHeader} {datagram : List UInt8}

/-- The frame of a packet that is read: its kind, the sender, and the payload after its size. -/
theorem exists_relayFrame? (h : decode datagram = .ok header) (sender : Int8) :
    let payload := (datagram.drop width).take header.size.toNat
    payload.length = header.size.toNat ∧
      ∃ left, header.relayFrame? datagram sender =
        some ⟨[Kind.unreliable.tag, sender.toUInt8, UInt8.ofNat payload.length] ++ payload,
          left⟩ := by
  rw [decode_eq_readHeader] at h
  exact exists_cut?_packet [Kind.unreliable.tag, sender.toUInt8] h header.encode_format rfl

end UnreliableHeader

namespace ReliableHeader

theorem decode_eq_readHeader : decode = readHeader .reliable format size := rfl

theorem encode_format (header : ReliableHeader) :
    format.encode header = Credentials.format.encode header.credentials ++
      ([header.target.toUInt8, header.ack] ++ [header.size]) := by
  change _ = _ ++ ([header.target.toUInt8] ++ ([header.ack] ++ [header.size]))
  rw [← Field.encode_i8, ← Field.encode_u8, ← Field.encode_u8]
  rfl

variable {header : ReliableHeader} {datagram : List UInt8}

/-- The frame of a packet that is read: its kind, the sender, the acknowledgement number, and the
payload after its size. -/
theorem exists_relayFrame? (h : decode datagram = .ok header) (sender : Int8) :
    let payload := (datagram.drop width).take header.size.toNat
    payload.length = header.size.toNat ∧
      ∃ left, header.relayFrame? datagram sender =
        some ⟨[Kind.reliable.tag, sender.toUInt8, header.ack, UInt8.ofNat payload.length] ++
          payload, left⟩ := by
  rw [decode_eq_readHeader] at h
  exact exists_cut?_packet [Kind.reliable.tag, sender.toUInt8, header.ack] h header.encode_format
    rfl

/-- A payload that a byte can count makes a packet, which is read as what was written. -/
theorem exists_encode (credentials : Credentials) (target : Int8) (ack : UInt8)
    {payload : List UInt8} (h : payload.length ≤ 255) (w : Writer) :
    let header : ReliableHeader :=
      { credentials, target, ack, size := UInt8.ofNat payload.length }
    ∃ w', encode credentials target ack payload w = .ok w' ∧
      w'.contents = packet .reliable format header payload ∧
      decode w'.contents = .ok header := by
  intro header
  have hsize : payloadSize payload = .ok header.size := if_pos h
  have hcount : payload.length = header.size.toNat :=
    (UInt8.toNat_ofNat_of_lt' (Nat.lt_succ_of_le h)).symm
  have hfits : (packet .reliable format header payload).length ≤ maxDatagram := by
    have hwidth : 1 + format.width = 13 := rfl
    rw [length_packet, hwidth, maxDatagram]
    omega
  obtain ⟨w', hwrite, hcontents⟩ := exists_writePacket w hfits
  refine ⟨w', ?_, hcontents, ?_⟩
  · simp only [encode, hsize, bind, Except.bind]
    exact hwrite
  · rw [decode_eq_readHeader]
    exact readHeader_eq_ok_iff.mpr ⟨payload, [], hcount, by rw [hcontents, List.append_nil]⟩

end ReliableHeader

end Wire

namespace Request

variable {datagram : List UInt8} {request : Request}

theorem map_eq_ok_iff {α : Type} {result : Except Wire.Error α} {wrap : α → Request} :
    result.map wrap = .ok request ↔ ∃ message, result = .ok message ∧ wrap message = request := by
  cases result <;> simp [Except.map]

theorem kind_of_decodeAs {kind : Wire.Kind} (h : decodeAs datagram kind = .ok request) :
    request.kind = kind := by
  cases kind <;> obtain ⟨message, -, rfl⟩ := map_eq_ok_iff.mp h <;> rfl

/-- A datagram that is read is one of its request's kind. -/
theorem decodeAs_of_decode (h : decode datagram = .ok request) :
    decodeAs datagram request.kind = .ok request := by
  rw [decode] at h
  cases hpeek : Wire.Kind.peek datagram with
  | error fault => simp only [hpeek, bind, Except.bind] at h; cases h
  | ok kind =>
      simp only [hpeek, bind, Except.bind] at h
      rw [kind_of_decodeAs h, h]

/-- The first byte tells how a datagram is read. -/
theorem decode_of_tag (kind : Wire.Kind) (rest : List UInt8) :
    decode (kind.tag :: rest) = decodeAs (kind.tag :: rest) kind := by
  have hpeek : Wire.Kind.peek (kind.tag :: rest) = .ok kind :=
    (Wire.Kind.ofTag?_eq_ok_iff _ _).mpr rfl
  simp only [decode, hpeek, bind, Except.bind]

theorem decode_of_readHeader {α : Type} {kind : Wire.Kind} {format : Wire.Format α}
    {size : α → UInt8} {header : α}
    (h : Wire.readHeader kind format size datagram = .ok header) :
    decode datagram = decodeAs datagram kind := by
  obtain ⟨payload, rest, -, rfl⟩ := Wire.readHeader_eq_ok_iff.mp h
  exact decode_of_tag kind _

theorem decode_eq_unreliable_iff {header : Wire.UnreliableHeader} :
    decode datagram = .ok (.unreliable header) ↔
      Wire.UnreliableHeader.decode datagram = .ok header := by
  constructor
  · intro h
    obtain ⟨found, hdecode, hfound⟩ := map_eq_ok_iff.mp (decodeAs_of_decode h)
    cases hfound
    exact hdecode
  · intro h
    have hread := h
    rw [Wire.UnreliableHeader.decode_eq_readHeader] at hread
    rw [decode_of_readHeader hread, decodeAs, h]
    rfl

theorem decode_of_reliable {header : Wire.ReliableHeader}
    (h : Wire.ReliableHeader.decode datagram = .ok header) :
    decode datagram = .ok (.reliable header) := by
  have hread := h
  rw [Wire.ReliableHeader.decode_eq_readHeader] at hread
  rw [decode_of_readHeader hread, decodeAs, h]
  rfl

theorem decode_eq_reliable_iff {header : Wire.ReliableHeader} :
    decode datagram = .ok (.reliable header) ↔
      Wire.ReliableHeader.decode datagram = .ok header := by
  refine ⟨fun h => ?_, decode_of_reliable⟩
  obtain ⟨found, hdecode, hfound⟩ := map_eq_ok_iff.mp (decodeAs_of_decode h)
  cases hfound
  exact hdecode

/-- A record of some kind of request is read as that request. -/
theorem decode_of_record {α : Type} {record : Wire.Record α} {wrap : α → Request}
    (h : ∀ datagram, decodeAs datagram record.kind = (record.decode datagram).map wrap)
    (message : α) : decode (record.bytes message) = .ok (wrap message) := by
  have hread : decode (record.bytes message) = decodeAs (record.bytes message) record.kind := by
    obtain ⟨tail, hbytes⟩ := record.exists_bytes_eq message
    rw [hbytes]
    exact decode_of_tag record.kind _
  rw [hread, h, record.decode_bytes]
  rfl

theorem decode_of_relied (relied : Wire.Relied) :
    decode (Wire.Relied.record.bytes relied) = .ok (.relied relied) :=
  decode_of_record (fun _ => rfl) relied

/-- There is room for an acknowledgement in every datagram that is read. -/
theorem ackFrameSize_le_of_decode (h : decode datagram = .ok request) :
    Wire.ackFrameSize ≤ datagram.length := by
  have hread := decodeAs_of_decode h
  have fixed : ∀ {α : Type} {record : Wire.Record α} {wrap : α → Request},
      (record.decode datagram).map wrap = .ok request → Wire.ackFrameSize ≤ record.size →
        Wire.ackFrameSize ≤ datagram.length := by
    intro α record wrap hread hsize
    obtain ⟨message, hdecode, -⟩ := map_eq_ok_iff.mp hread
    exact Nat.le_trans hsize (Wire.Record.size_le_of_decode hdecode)
  cases request with
  | ping _ => exact fixed hread (by decide)
  | login _ => exact fixed hread (by decide)
  | logout _ => exact fixed hread (by decide)
  | create _ => exact fixed hread (by decide)
  | join _ => exact fixed hread (by decide)
  | leave _ => exact fixed hread (by decide)
  | relied _ => exact fixed hread (by decide)
  | unreliable _ =>
      have hheader := decode_eq_unreliable_iff.mp h
      rw [Wire.UnreliableHeader.decode_eq_readHeader] at hheader
      exact Nat.le_trans (by decide) (Wire.width_le_of_readHeader hheader)
  | reliable _ =>
      have hheader := decode_eq_reliable_iff.mp h
      rw [Wire.ReliableHeader.decode_eq_readHeader] at hheader
      exact Nat.le_trans (by decide) (Wire.width_le_of_readHeader hheader)

end Request

end RoomRelay
