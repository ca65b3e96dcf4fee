import RoomRelay.Proofs.Packet

/-!
# Frames rewritten in place

The frame of a relay packet is not built anew but cut from the buffer that the packet came in. It
overwrites the last byte of the sender's credentials and the target, so that its own first bytes
come to stand right before the size and the payload, which were there already. It is nevertheless
the frame that would have been built from the payload: of the credentials and the target, and of
what follows the packet, nothing is left in it.
-/

namespace RoomRelay.Wire

section

variable {α : Type}

/-- The payload of a packet whose header takes some bytes and declares a size. -/
def payloadAt (datagram : List UInt8) (width : Nat) (size : UInt8) : List UInt8 :=
  (datagram.drop width).take size.toNat

/-- How packets of a kind are passed on in the buffer that they came in. Their frame opens with a
tag and the sender's index, and repeats from the header what is `named` and the size. -/
structure RewritesInPlace (decode : List UInt8 → Except Error α)
    (relayFrame? : α → List UInt8 → Int8 → Option Cut) (tag : UInt8) (width : Nat)
    (named : α → List UInt8) (size : α → UInt8) : Prop where
  /-- A packet that is read has a frame, and that is the one that is built afresh. -/
  afresh : ∀ {datagram : List UInt8} {header : α} (sender : Int8),
    decode datagram = .ok header →
      (payloadAt datagram width (size header)).length = (size header).toNat ∧
        ∃ left, relayFrame? header datagram sender =
          some ⟨[tag, sender.toUInt8] ++ named header ++ [size header] ++
            payloadAt datagram width (size header), left⟩
  /-- A buffer keeps its first nine bytes, and all bytes from the declared size on. -/
  kept : ∀ {header : α} {buffer : List UInt8} {sender : Int8} {cut : Cut},
    relayFrame? header buffer sender = some cut →
      cut.buffer.length = buffer.length ∧
        ∀ position, (position < 9 ∨ width ≤ position + 1) →
          cut.buffer[position]? = buffer[position]?
  /-- Packets that agree in what the frame repeats and in the payload have the same frame. -/
  alike : ∀ {first second : List UInt8} {header other : α} (sender : Int8),
    decode first = .ok header → decode second = .ok other → named header = named other →
      size header = size other →
      payloadAt first width (size header) = payloadAt second width (size other) →
        (relayFrame? header first sender).map Cut.frame =
          (relayFrame? other second sender).map Cut.frame
  /-- A frame is cut from every buffer that is as long as the packet, and from no other. -/
  fails_iff : ∀ (header : α) (buffer : List UInt8) (sender : Int8),
    relayFrame? header buffer sender = none ↔ buffer.length < width + (size header).toNat

-- What is repeated from a header and the size end it, after the credentials and a target.
variable {kind : Kind} {format : Format α} {named : α → List UInt8} {size : α → UInt8}
variable {credentials : α → Credentials} {target : α → UInt8}

/-- The target and the last byte of the credentials make place for the opening of the frame. -/
theorem width_of_encode (hformat : ∀ header, format.encode header =
      Credentials.format.encode (credentials header) ++
        (target header :: named header ++ [size header])) (header : α) :
    1 + format.width = Credentials.format.width + (2 + (named header).length) + 1 := by
  have hlength := format.length_encode header
  rw [hformat, List.length_append, Credentials.format.length_encode] at hlength
  simp only [List.length_append, List.length_cons, List.length_nil] at hlength
  omega

/-- A packet that is read has a frame, and that is the one that is built afresh. -/
theorem exists_frame (hformat : ∀ header, format.encode header =
      Credentials.format.encode (credentials header) ++
        (target header :: named header ++ [size header])) {datagram : List UInt8} {header : α}
    (hread : readHeader kind format size datagram = .ok header) (sender : Int8) :
    let payload := payloadAt datagram (1 + format.width) (size header)
    payload.length = (size header).toNat ∧
      ∃ left, cut? datagram Credentials.format.width
          ([kind.tag, sender.toUInt8] ++ named header)
          (1 + format.width + (size header).toNat) =
        some ⟨[kind.tag, sender.toUInt8] ++ named header ++ [size header] ++ payload, left⟩ := by
  have hopening : ([kind.tag, sender.toUInt8] ++ named header).length =
      1 + (target header :: named header).length := by
    simp only [List.length_append, List.length_cons, List.length_nil]
    omega
  obtain ⟨hlength, left, hcut⟩ := exists_cut?_packet
    ([kind.tag, sender.toUInt8] ++ named header) hread (hformat header) hopening
  refine ⟨hlength, left, hcut.trans ?_⟩
  rw [hlength, UInt8.ofNat_toNat, List.append_assoc _ [size header], List.singleton_append]
  rfl

/-- Such frames are rewritten in place. -/
theorem rewritesInPlace (hformat : ∀ header, format.encode header =
      Credentials.format.encode (credentials header) ++
        (target header :: named header ++ [size header])) :
    RewritesInPlace (readHeader kind format size)
      (fun header buffer sender => cut? buffer Credentials.format.width
        ([kind.tag, sender.toUInt8] ++ named header) (1 + format.width + (size header).toNat))
      kind.tag (1 + format.width) named size where
  afresh sender hread := exists_frame hformat hread sender
  kept := by
    intro header buffer sender cut hcut
    refine ⟨length_of_cut? hcut, fun position hposition => getElem?_of_cut? hcut ?_⟩
    have hnine : Credentials.format.width = 9 := rfl
    have hwidth := width_of_encode hformat header
    simp only [List.length_append, List.length_cons, List.length_nil]
    omega
  alike := by
    intro first second header other sender hfirst hsecond hnamed hsize hpayload
    obtain ⟨-, left, hcut⟩ := exists_frame hformat hfirst sender
    obtain ⟨-, left', hcut'⟩ := exists_frame hformat hsecond sender
    rw [hcut, hcut', hnamed, hpayload, hsize]
    rfl
  fails_iff := by
    intro header buffer sender
    apply cut?_eq_none_iff
    have hwidth := width_of_encode hformat header
    simp only [List.length_append, List.length_cons, List.length_nil]
    omega

end

/-- The frames of relay packets are rewritten in place, with the same outcome as if they were built
afresh. Those of packets that may get lost open with two bytes of their own, and those of packets
that are to be acknowledged repeat the number to acknowledge as well. -/
theorem relayFrame_in_place :
    RewritesInPlace UnreliableHeader.decode UnreliableHeader.relayFrame? 10 12
        (fun _ => []) UnreliableHeader.size ∧
      RewritesInPlace ReliableHeader.decode ReliableHeader.relayFrame? 11 13
        (fun header => [header.ack]) ReliableHeader.size := by
  constructor
  · exact rewritesInPlace UnreliableHeader.encode_format
  · exact rewritesInPlace ReliableHeader.encode_format

/-- Two packets from different sessions with the same payload, one of them in a longer datagram. The
first one is not long enough for a payload of another byte. -/
theorem relayFrame_in_place_of_two :
    let header : ReliableHeader := ⟨⟨7, 4, 2, 3⟩, 0, 42, 2⟩
    let other : ReliableHeader := ⟨⟨8, 5, 2, 1⟩, 1, 42, 2⟩
    let datagram := packet .reliable ReliableHeader.format header [120, 121]
    let longer := packet .reliable ReliableHeader.format other [120, 121] ++ [1, 2, 3]
    ReliableHeader.decode datagram = .ok header ∧ ReliableHeader.decode longer = .ok other ∧
      (header.relayFrame? datagram 3).map Cut.frame = some [11, 3, 42, 2, 120, 121] ∧
      (other.relayFrame? longer 3).map Cut.frame = some [11, 3, 42, 2, 120, 121] ∧
      ReliableHeader.relayFrame? { header with size := 3 } datagram 3 = none := by
  intro header other datagram longer
  have hfirst : ReliableHeader.decode datagram = .ok header :=
    readHeader_eq_ok_iff.mpr ⟨[120, 121], [], rfl, (List.append_nil _).symm⟩
  have hsecond : ReliableHeader.decode longer = .ok other :=
    readHeader_eq_ok_iff.mpr ⟨[120, 121], [1, 2, 3], rfl, rfl⟩
  have hframe : (header.relayFrame? datagram 3).map Cut.frame = some [11, 3, 42, 2, 120, 121] := by
    obtain ⟨-, left, hcut⟩ := relayFrame_in_place.2.afresh 3 hfirst
    rw [hcut]
    rfl
  have halike := relayFrame_in_place.2.alike 3 hfirst hsecond rfl rfl (by decide +kernel)
  exact ⟨hfirst, hsecond, hframe, halike ▸ hframe,
    (relayFrame_in_place.2.fails_iff _ datagram 3).mpr (by decide +kernel)⟩

end RoomRelay.Wire
