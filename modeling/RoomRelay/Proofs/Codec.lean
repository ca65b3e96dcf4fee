import RoomRelay.Proofs.Packet
import RoomRelay.Wire.Response

/-!
# Writing and reading are inverse

Every record has one written form. A datagram is read as a message just in case it starts with what
is written for the message. The same goes for relay packets with their payload, which must not be
longer than a byte can count: a longer one is refused before anything is written.

A write that fails leaves in the writer what was written before it. To tell that apart from leaving
everything as it was, packets are also written field by field into a writer that is kept. This is
the same as writing them at once.
-/

namespace RoomRelay.Wire

/-- Whether there is one written form of each value, of a given length, that replaces whatever a
writer holds, and reading accepts just the datagrams that start with it. -/
def Exact {α : Type} (encode : α → Writer → Except Error Writer)
    (decode : List UInt8 → Except Error α) (size : Nat) : Prop :=
  ∀ message w, ∃ w', encode message w = .ok w' ∧ w'.length = size ∧
    ∀ datagram, decode datagram = .ok message ↔ w'.contents <+: datagram

theorem Record.exact {α : Type} (record : Record α) (h : record.size ≤ maxDatagram) :
    Exact record.encode record.decode record.size := by
  intro message w
  obtain ⟨w', hencode, hcontents⟩ := record.encode_eq_bytes message w h
  refine ⟨w', hencode, ?_, fun datagram => ⟨fun hdecode => ?_, ?_⟩⟩
  · rw [Writer.length, hcontents, record.length_bytes]
  · rw [hcontents]
    exact ⟨_, Record.bytes_append_of_decode hdecode⟩
  · rintro ⟨rest, rfl⟩
    rw [hcontents]
    exact record.decode_bytes_append message rest

/-- Reading with a format accepts the byte strings that start with the value's bytes. -/
theorem Format.read_ofBytes_eq_ok_iff {α : Type} (format : Format α) (a : α)
    (datagram : List UInt8) :
    (format.read (Reader.ofBytes datagram)).map Prod.fst = .ok a ↔
      format.encode a <+: datagram := by
  constructor
  · intro h
    cases hread : format.read (Reader.ofBytes datagram) with
    | error fault =>
        rw [hread] at h
        cases h
    | ok found =>
        rw [hread] at h
        cases h
        obtain ⟨hrest, -⟩ := format.of_read hread
        exact ⟨_, hrest.symm⟩
  · rintro ⟨rest, rfl⟩
    rw [Reader.ofBytes, format.read_encode]
    rfl

namespace StatusResponse

/-- A bare status as a kind and a status. -/
def format : Format StatusResponse :=
  (((Format.field .u8).refine Kind.ofTag? Kind.tag Kind.ofTag?_eq_ok_iff).pair Status.format).map
    (fun (request, status) => ⟨request, status⟩) (fun r => (r.request, r.status))
    (fun _ => rfl) (fun _ => rfl)

theorem encode_format (response : StatusResponse) : format.encode response = response.bytes := by
  change Field.encode .u8 _ ++ Field.encode .i8 _ = _
  rw [Field.encode_u8, Field.encode_i8]
  rfl

theorem decode_eq_read (datagram : List UInt8) :
    decode datagram = (format.read (Reader.ofBytes datagram)).map Prod.fst := by
  simp only [decode, format, Format.map, Format.refine, Format.readRefined, Format.pair,
    Format.readPair, Format.field, bind, Except.bind, pure, Except.pure]
  cases (Reader.ofBytes datagram).get .u8 with
  | error fault => rfl
  | ok found =>
      obtain ⟨tag, r⟩ := found
      dsimp only
      cases Kind.ofTag? tag with
      | error fault => rfl
      | ok request =>
          dsimp only
          cases Status.format.read r with
          | error fault => rfl
          | ok found => rfl

theorem exact : Exact encode decode size := by
  intro response w
  obtain ⟨w', hencode, hcontents⟩ := response.exists_encode w
  refine ⟨w', hencode, by rw [Writer.length, hcontents]; rfl, fun datagram => ?_⟩
  rw [decode_eq_read, format.read_ofBytes_eq_ok_iff, encode_format, hcontents]

end StatusResponse

/-- Writes into a writer that is there also after a failure, with what was written before it. -/
abbrev Writing := EStateM Error Writer Unit

namespace Writing

/-- Writes at once: nothing is written in case of failure. -/
def ofFunction (write : Writer → Except Error Writer) : Writing := fun w =>
  match write w with
  | .ok w => .ok () w
  | .error e => .error e w

/-- Writes raw bytes. -/
def bytes (bytes : List UInt8) : Writing := ofFunction fun w => w.append bytes

/-- Writes pieces one after another. -/
def pieces : List (List UInt8) → Writing
  | [] => pure ()
  | piece :: rest => do
    bytes piece
    pieces rest

/-- Pieces that fit are all written. -/
theorem exists_pieces (w : Writer) (parts : List (List UInt8))
    (h : parts.flatten.length ≤ w.remaining) :
    ∃ w', pieces parts w = .ok () w' ∧ w'.contents = w.contents ++ parts.flatten := by
  induction parts generalizing w with
  | nil => exact ⟨w, rfl, by simp⟩
  | cons part rest ih =>
      rw [List.flatten_cons, List.length_append] at h
      obtain ⟨w₁, hpart, h₁⟩ := w.append_of_le part (by omega)
      have hrest : rest.flatten.length ≤ w₁.remaining := by
        simp only [Writer.remaining, h₁, List.length_append] at h ⊢
        omega
      obtain ⟨w₂, hwrite, h₂⟩ := ih w₁ hrest
      refine ⟨w₂, ?_, by rw [h₂, h₁, List.flatten_cons, List.append_assoc]⟩
      have hbytes : bytes part w = .ok () w₁ := by rw [bytes, ofFunction, hpart]
      rw [pieces]
      simp only [bind, EStateM.bind, hbytes, hwrite]

end Writing

/-- How the packets with some type of header are laid out: as their format says, which is one field
after another, and with a size that counts the payload. -/
structure PacketLayout (α : Type) where
  kind : Kind
  format : Format α
  size : α → UInt8
  withSize : α → UInt8 → α
  fields : α → List (List UInt8)
  withSize_size : ∀ header, withSize header (size header) = header
  flatten_fields : ∀ header, (fields header).flatten = format.encode header
  length_le : 1 + format.width + 255 ≤ maxDatagram

/-- Whether just the payloads that a byte can count are written, behind a header of a given length,
and reading finds a header just in case the datagram starts with what is written for it and some
payload of the length that it declares. Longer payloads leave the writer as it was. -/
structure ExactPacket {α : Type} (write : α → List UInt8 → Writing)
    (decode : List UInt8 → Except Error α) (size : α → UInt8) (width : Nat) : Prop where
  write_of_le : ∀ header payload w, payload.length ≤ 255 →
    ∃ w', write header payload w = .ok () w' ∧ w'.length = width + payload.length
  write_of_lt : ∀ header payload w, 255 < payload.length →
    write header payload w = .error (.payloadOverrun payload.length 255) w
  decode_eq_ok_iff : ∀ w header datagram, decode datagram = .ok header ↔
    ∃ payload w', payload.length = (size header).toNat ∧
      write header payload w = .ok () w' ∧ w'.contents <+: datagram

namespace PacketLayout

variable {α : Type} (layout : PacketLayout α)

/-- Writes a packet. The payload is counted first, then the contents of the writer are replaced by
the tag, the header field by field, and the payload. -/
def write (header : α) (payload : List UInt8) : Writing :=
  match payloadSize payload with
  | .error e => throw e
  | .ok size => do
    modify Writer.reset
    Writing.pieces ([layout.kind.tag] :: (layout.fields (layout.withSize header size) ++ [payload]))

/-- Writes a packet at once. -/
def encode (header : α) (payload : List UInt8) (w : Writer) : Except Error Writer := do
  let size ← payloadSize payload
  writePacket layout.kind layout.format (layout.withSize header size) payload w

variable {payload : List UInt8}

theorem length_packet_le (header : α) (h : payload.length ≤ 255) :
    (packet layout.kind layout.format header payload).length ≤ maxDatagram := by
  rw [length_packet]
  exact Nat.le_trans (Nat.add_le_add_left h _) layout.length_le

theorem exists_write (header : α) (h : payload.length ≤ 255) (w : Writer) :
    ∃ w', layout.write header payload w = .ok () w' ∧
      w'.contents = packet layout.kind layout.format
        (layout.withSize header (UInt8.ofNat payload.length)) payload := by
  have hsize : payloadSize payload = .ok (UInt8.ofNat payload.length) := if_pos h
  let sized := layout.withSize header (UInt8.ofNat payload.length)
  have hflatten : ([layout.kind.tag] :: (layout.fields sized ++ [payload])).flatten =
      packet layout.kind layout.format sized payload := by
    rw [List.flatten_cons, List.flatten_append, layout.flatten_fields, List.flatten_singleton]
    rfl
  have hfits := layout.length_packet_le sized h
  rw [← hflatten] at hfits ⊢
  obtain ⟨w', hwrite, hcontents⟩ := Writing.exists_pieces w.reset _ hfits
  refine ⟨w', ?_, hcontents⟩
  rw [write, hsize]
  exact hwrite

theorem write_of_lt (header : α) (h : 255 < payload.length) (w : Writer) :
    layout.write header payload w = .error (.payloadOverrun payload.length 255) w := by
  have hsize : payloadSize payload = .error (.payloadOverrun payload.length 255) :=
    if_neg (Nat.not_le.mpr h)
  rw [write, hsize]
  rfl

/-- Nothing is written unless all is, so a packet may as well be written at once. -/
theorem write_eq_encode (header : α) (payload : List UInt8) :
    layout.write header payload = Writing.ofFunction (layout.encode header payload) := by
  funext w
  by_cases h : payload.length ≤ 255
  · obtain ⟨w₁, hwrite, h₁⟩ := layout.exists_write header h w
    obtain ⟨w₂, hencode, h₂⟩ := exists_writePacket w
      (layout.length_packet_le (layout.withSize header (UInt8.ofNat payload.length)) h)
    have hsize : payloadSize payload = .ok (UInt8.ofNat payload.length) := if_pos h
    obtain rfl : w₁ = w₂ := by
      cases w₁
      cases w₂
      simpa using h₁.trans h₂.symm
    rw [hwrite]
    simp only [Writing.ofFunction, encode, hsize, bind, Except.bind, hencode]
  · have hsize : payloadSize payload = .error (.payloadOverrun payload.length 255) := if_neg h
    rw [layout.write_of_lt header (Nat.not_le.mp h)]
    simp only [Writing.ofFunction, encode, hsize, bind, Except.bind]

theorem exact :
    ExactPacket layout.write (readHeader layout.kind layout.format layout.size) layout.size
      (1 + layout.format.width) where
  write_of_le header _ w h := by
    obtain ⟨w', hwrite, hcontents⟩ := layout.exists_write header h w
    exact ⟨w', hwrite, by rw [Writer.length, hcontents, length_packet]⟩
  write_of_lt header _ w h := layout.write_of_lt header h w
  decode_eq_ok_iff w header datagram := by
    rw [readHeader_eq_ok_iff]
    -- The size that is written for a payload is the one that the header declares.
    have hwritten : ∀ payload, payload.length = (layout.size header).toNat →
        ∃ w', layout.write header payload w = .ok () w' ∧
          w'.contents = packet layout.kind layout.format header payload := by
      intro payload hsize
      have hle : payload.length ≤ 255 := by
        have := (layout.size header).toNat_lt
        omega
      have hwritten := layout.exists_write header hle w
      rwa [hsize, UInt8.ofNat_toNat, layout.withSize_size] at hwritten
    constructor
    · rintro ⟨payload, rest, hsize, rfl⟩
      obtain ⟨w', hwrite, hcontents⟩ := hwritten payload hsize
      exact ⟨payload, w', hsize, hwrite, rest, by rw [hcontents]⟩
    · rintro ⟨payload, w', hsize, hwrite, rest, rfl⟩
      obtain ⟨w₁, hwrite₁, hcontents⟩ := hwritten payload hsize
      obtain rfl : w₁ = w' := by
        rw [hwrite₁] at hwrite
        cases hwrite
        rfl
      exact ⟨payload, rest, hsize, by rw [hcontents]⟩

end PacketLayout

/-- The nine bytes of credentials, field by field. -/
def Credentials.fields (c : Credentials) : List (List UInt8) :=
  [Field.encode .u32 c.token, Field.encode .i16 c.slot, Field.encode .i16 c.room,
    Field.encode .i8 c.index]

namespace UnreliableHeader

/-- The layout of a packet that may get lost. -/
def layout : PacketLayout UnreliableHeader where
  kind := .unreliable
  format := format
  size := size
  withSize header size := { header with size }
  fields header :=
    header.credentials.fields ++ [Field.encode .i8 header.target, Field.encode .u8 header.size]
  withSize_size _ := rfl
  flatten_fields header := by
    simp [Credentials.fields, format, Credentials.format, Format.map, Format.refine, Format.pair,
      Format.field]
  length_le := by decide

theorem encode_layout (header : UnreliableHeader) (payload : List UInt8) :
    layout.encode header payload = encode header.credentials header.target payload := rfl

end UnreliableHeader

namespace ReliableHeader

/-- The layout of a packet that the receiver acknowledges. -/
def layout : PacketLayout ReliableHeader where
  kind := .reliable
  format := format
  size := size
  withSize header size := { header with size }
  fields header :=
    header.credentials.fields ++ [Field.encode .i8 header.target, Field.encode .u8 header.ack,
      Field.encode .u8 header.size]
  withSize_size _ := rfl
  flatten_fields header := by
    simp [Credentials.fields, format, Credentials.format, Format.map, Format.refine, Format.pair,
      Format.field]
  length_le := by decide

theorem encode_layout (header : ReliableHeader) (payload : List UInt8) :
    layout.encode header payload = encode header.credentials header.target header.ack payload :=
  rfl

end ReliableHeader

/-- Every message of the protocol has exactly one written form. -/
theorem wire_format_exact :
    Exact Ping.record.encode Ping.record.decode 18 ∧
    Exact PingResponse.record.encode PingResponse.record.decode 19 ∧
    Exact Login.record.encode Login.record.decode 37 ∧
    Exact LoginResponse.record.encode LoginResponse.record.decode 15 ∧
    Exact Logout.record.encode Logout.record.decode 14 ∧
    Exact Create.record.encode Create.record.decode 57 ∧
    Exact CreateResponse.record.encode CreateResponse.record.decode 6 ∧
    Exact Join.record.encode Join.record.decode 39 ∧
    Exact JoinResponse.record.encode JoinResponse.record.decode 38 ∧
    Exact Leave.record.encode Leave.record.decode 10 ∧
    Exact Relied.record.encode Relied.record.decode 12 ∧
    Exact StatusResponse.encode StatusResponse.decode 2 ∧
    (ExactPacket UnreliableHeader.layout.write UnreliableHeader.decode UnreliableHeader.size 12 ∧
      ∀ (header : UnreliableHeader) payload, UnreliableHeader.layout.write header payload =
        .ofFunction (UnreliableHeader.encode header.credentials header.target payload)) ∧
    (ExactPacket ReliableHeader.layout.write ReliableHeader.decode ReliableHeader.size 13 ∧
      ∀ (header : ReliableHeader) payload, ReliableHeader.layout.write header payload =
        .ofFunction
          (ReliableHeader.encode header.credentials header.target header.ack payload)) := by
  refine ⟨Record.exact _ (by decide), Record.exact _ (by decide), Record.exact _ (by decide),
    Record.exact _ (by decide), Record.exact _ (by decide), Record.exact _ (by decide),
    Record.exact _ (by decide), Record.exact _ (by decide), Record.exact _ (by decide),
    Record.exact _ (by decide), Record.exact _ (by decide), StatusResponse.exact, ⟨?_, ?_⟩, ?_, ?_⟩
  · exact UnreliableHeader.layout.exact
  · intro header payload
    rw [UnreliableHeader.layout.write_eq_encode, UnreliableHeader.encode_layout]
  · exact ReliableHeader.layout.exact
  · intro header payload
    rw [ReliableHeader.layout.write_eq_encode, ReliableHeader.encode_layout]

end RoomRelay.Wire
