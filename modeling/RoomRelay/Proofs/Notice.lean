import RoomRelay.Proofs.Checked.Server
import RoomRelay.Proofs.Codec
import RoomRelay.Proofs.Reply

/-!
# What a client is sent

The server sends a client bare statuses, records, the frames of relay packets, and acknowledgements.
Neither length nor direction is written into any of them, and a bare status opens with the same tag
as the record that it stands in for. They can be told apart all the same: nothing but a bare status
is two bytes long, and what is not is read as its first byte says. What was sent is read back, so no
two of them have the same bytes.
-/

namespace RoomRelay

namespace Wire

/-- What a relay packet carries: bytes that one byte can count. -/
structure Payload where
  bytes : List UInt8
  length_le : bytes.length ≤ 255
  deriving DecidableEq, Repr

/-- Whatever the server may send to a client. -/
inductive Notice
  | status (response : StatusResponse)
  | pinged (response : PingResponse)
  | loggedIn (response : LoginResponse)
  | created (response : CreateResponse)
  | joined (response : JoinResponse)
  /-- A member of the room sent a packet that may get lost. -/
  | unreliable (sender : Int8) (payload : Payload)
  /-- A member of the room sent a packet that is to be acknowledged by its number. -/
  | reliable (sender : Int8) (ack : UInt8) (payload : Payload)
  /-- The member with an index received the packet of a number. -/
  | relied (index : Int8) (ack : UInt8)
  deriving DecidableEq, Repr

namespace Notice

/-- The bytes of a notice. -/
def bytes : Notice → List UInt8
  | status response => response.bytes
  | pinged response => PingResponse.record.bytes response
  | loggedIn response => LoginResponse.record.bytes response
  | created response => CreateResponse.record.bytes response
  | joined response => JoinResponse.record.bytes response
  | unreliable sender payload =>
    [Kind.unreliable.tag, sender.toUInt8, UInt8.ofNat payload.bytes.length] ++ payload.bytes
  | reliable sender ack payload =>
    [Kind.reliable.tag, sender.toUInt8, ack, UInt8.ofNat payload.bytes.length] ++ payload.bytes
  | relied index ack => [Kind.relied.tag, index.toUInt8, ack]

/-- Reads a frame that opens with the tag of a kind and is no bare status. A client that logs out
or leaves is sent nothing else. -/
def readAs? (frame : List UInt8) : Kind → Option Notice
  | .ping => (PingResponse.record.decode frame).toOption.map pinged
  | .login => (LoginResponse.record.decode frame).toOption.map loggedIn
  | .create => (CreateResponse.record.decode frame).toOption.map created
  | .join => (JoinResponse.record.decode frame).toOption.map joined
  | .logout | .leave => none
  | .unreliable =>
    match frame with
    | _ :: sender :: _ :: payload =>
      if h : payload.length ≤ 255 then some (unreliable sender.toInt8 ⟨payload, h⟩) else none
    | _ => none
  | .reliable =>
    match frame with
    | _ :: sender :: ack :: _ :: payload =>
      if h : payload.length ≤ 255 then some (reliable sender.toInt8 ack ⟨payload, h⟩) else none
    | _ => none
  | .relied =>
    match frame with
    | [_, index, ack] => some (relied index.toInt8 ack)
    | _ => none

/-- Reads a frame as its length and its first byte say. -/
def read? (frame : List UInt8) : Option Notice :=
  if frame.length = StatusResponse.size then (StatusResponse.decode frame).toOption.map status
  else (Kind.peek frame).toOption.bind (readAs? frame)

theorem read?_of_tag (kind : Kind) {rest : List UInt8} (h : rest.length ≠ 1) :
    read? (kind.tag :: rest) = readAs? (kind.tag :: rest) kind := by
  have hlength : (kind.tag :: rest).length ≠ StatusResponse.size := fun hsize =>
    h (Nat.succ.inj hsize)
  have hpeek : Kind.peek (kind.tag :: rest) = .ok kind := (Kind.ofTag?_eq_ok_iff _ _).mpr rfl
  rw [read?, if_neg hlength, hpeek]
  rfl

/-- A record that is longer than a bare status is read back where its tag is read as its kind. -/
theorem read?_record {α : Type} (record : Record α) (wrap : α → Notice)
    (hsize : StatusResponse.size < record.size)
    (hread : ∀ frame, readAs? frame record.kind = (record.decode frame).toOption.map wrap)
    (message : α) : read? (record.bytes message) = some (wrap message) := by
  have hlength := record.length_bytes message
  obtain ⟨tail, hbytes⟩ := record.exists_bytes_eq message
  rw [hbytes, List.length_cons] at hlength
  have hrest : (record.body.encode message ++ tail).length ≠ 1 := by
    rw [StatusResponse.size] at hsize
    omega
  rw [hbytes, read?_of_tag _ hrest, ← hbytes, hread, record.decode_bytes]
  rfl

end Notice

theorem StatusResponse.decode_bytes (response : StatusResponse) :
    decode response.bytes = .ok response := by
  have hprefix : format.encode response <+: response.bytes :=
    ⟨[], by rw [List.append_nil, encode_format]⟩
  rw [decode_eq_read]
  exact (format.read_ofBytes_eq_ok_iff response response.bytes).mpr hprefix

namespace Notice

/-- Whatever is sent is read back. -/
theorem read?_bytes (notice : Notice) : read? notice.bytes = some notice := by
  cases notice with
  | status response =>
      have hlength : response.bytes.length = StatusResponse.size := rfl
      rw [bytes, read?, if_pos hlength, response.decode_bytes]
      rfl
  | pinged response =>
      exact read?_record PingResponse.record pinged (by decide) (fun _ => rfl) response
  | loggedIn response =>
      exact read?_record LoginResponse.record loggedIn (by decide) (fun _ => rfl) response
  | created response =>
      exact read?_record CreateResponse.record created (by decide) (fun _ => rfl) response
  | joined response =>
      exact read?_record JoinResponse.record joined (by decide) (fun _ => rfl) response
  | unreliable sender payload =>
      exact (read?_of_tag .unreliable (by simp)).trans (dif_pos payload.length_le)
  | reliable sender ack payload =>
      exact (read?_of_tag .reliable (by simp)).trans (dif_pos payload.length_le)
  | relied index ack => exact read?_of_tag .relied (by simp)

/-- No two notices have the same bytes. -/
theorem bytes_injective : Function.Injective bytes := by
  intro first second h
  have hread := congrArg read? h
  rwa [read?_bytes, read?_bytes, Option.some.injEq] at hread

end Notice

/-- A bare status is too short for any record that takes more than two bytes. -/
theorem Record.decode_bytes_status {α : Type} (record : Record α)
    (h : StatusResponse.size < record.size) (response : StatusResponse) :
    record.decode response.bytes = .error (.truncated record.size StatusResponse.size) := by
  rw [decode]
  exact if_pos h

end Wire

namespace Scratch

variable {scratch : Scratch} {frame : Frame}

/-- A record that is sent is sent whole. -/
theorem bytes_of_mem_write {α : Type} {record : Wire.Record α} {message : α}
    {peer : SocketAddress} (hsize : record.size ≤ Wire.maxDatagram)
    (h : frame ∈ (scratch.write peer (record.encode message)).2) :
    frame.bytes = record.bytes message := by
  rw [scratch.snd_write_record peer hsize, List.mem_singleton] at h
  rw [h]

/-- A relayed frame is the one that was cut. -/
theorem exists_of_mem_relay {recipients : List SocketAddress}
    {cut? : List UInt8 → Option Wire.Cut}
    (h : frame ∈ (scratch.relay recipients cut?).2) :
    ∃ cut, cut? scratch.datagram = some cut ∧ frame.bytes = cut.frame := by
  rw [relay] at h
  cases hcut : cut? scratch.datagram with
  | none => simp [hcut] at h
  | some cut =>
      simp only [hcut, List.mem_map] at h
      obtain ⟨recipient, -, rfl⟩ := h
      exact ⟨cut, rfl, rfl⟩

end Scratch

/-- Every frame of an answer is a notice, provided that the frame can be cut from the datagram. -/
theorem Answer.exists_notice {answer : Answer} {scratch : Scratch} {kind : Wire.Kind}
    {peer : SocketAddress} {frame : Frame} (hfits : answer.Fits scratch.datagram)
    (hframe : frame ∈ (answer.frames scratch kind peer).2) :
    ∃ notice : Wire.Notice, frame.bytes = notice.bytes := by
  cases answer with
  | drop | silent => cases hframe
  | status outcome =>
      rw [frames_status, List.mem_singleton] at hframe
      exact ⟨.status ⟨kind, outcome⟩, by rw [hframe]; rfl⟩
  | pinged response => exact ⟨.pinged response, Scratch.bytes_of_mem_write (by decide) hframe⟩
  | loggedIn response => exact ⟨.loggedIn response, Scratch.bytes_of_mem_write (by decide) hframe⟩
  | created response => exact ⟨.created response, Scratch.bytes_of_mem_write (by decide) hframe⟩
  | joined response => exact ⟨.joined response, Scratch.bytes_of_mem_write (by decide) hframe⟩
  | relayUnreliable header recipients =>
      obtain ⟨cut, hcut, hbytes⟩ := Scratch.exists_of_mem_relay hframe
      obtain ⟨hlength, left, hrelay⟩ :=
        Wire.UnreliableHeader.exists_relayFrame? hfits header.credentials.index
      obtain rfl := Option.some.inj (hcut.symm.trans hrelay)
      have hle := header.size.toNat_lt
      exact ⟨.unreliable header.credentials.index ⟨_, by omega⟩, hbytes⟩
  | relayReliable header recipient =>
      obtain ⟨cut, hcut, hbytes⟩ := Scratch.exists_of_mem_relay hframe
      obtain ⟨hlength, left, hrelay⟩ :=
        Wire.ReliableHeader.exists_relayFrame? hfits header.credentials.index
      obtain rfl := Option.some.inj (hcut.symm.trans hrelay)
      have hle := header.size.toNat_lt
      exact ⟨.reliable header.credentials.index header.ack ⟨_, by omega⟩, hbytes⟩
  | acknowledge index ack recipient =>
      obtain ⟨cut, hcut, hbytes⟩ := Scratch.exists_of_mem_relay hframe
      obtain ⟨left, hack⟩ := Wire.exists_ackFrame? hfits index ack
      obtain rfl := Option.some.inj (hcut.symm.trans hack)
      exact ⟨.relied index ack, hbytes⟩

namespace World

/-- Whatever the server sends is a notice, and its bytes tell which one. In particular no client
takes a bare status, such as a refusal, for a record that says that its request was carried out.
Nothing is assumed about how the world came about. -/
theorem notice_of_dispatch (world : World) (config : Config) (now : Instant) (scratch : Scratch)
    (peer : SocketAddress) :
    (∀ frame ∈ (world.dispatch config now scratch peer).frames,
      ∃ notice : Wire.Notice, frame.bytes = notice.bytes) ∧
    (∀ first second : Wire.Notice, first.bytes = second.bytes → first = second) ∧
    ∀ response : Wire.StatusResponse,
      (∀ message, Wire.PingResponse.record.decode response.bytes ≠ .ok message) ∧
      (∀ message, Wire.LoginResponse.record.decode response.bytes ≠ .ok message) ∧
      (∀ message, Wire.CreateResponse.record.decode response.bytes ≠ .ok message) ∧
      ∀ message, Wire.JoinResponse.record.decode response.bytes ≠ .ok message := by
  refine ⟨fun frame hframe => ?_, Wire.Notice.bytes_injective, fun response => ?_⟩
  · rw [frames_dispatch] at hframe
    cases hdecode : Request.decode scratch.datagram with
    | error fault => simp [hdecode] at hframe
    | ok request =>
        rw [hdecode] at hframe
        exact Answer.exists_notice (fits_serve world config now peer hdecode) hframe
  · have short : ∀ {α : Type} (record : Wire.Record α),
        Wire.StatusResponse.size < record.size →
          ∀ message, record.decode response.bytes ≠ .ok message := by
      intro α record hsize message
      rw [record.decode_bytes_status hsize]
      exact nofun
    exact ⟨short _ (by decide), short _ (by decide), short _ (by decide), short _ (by decide)⟩

/-- Two bytes sent from one member of a room to the other arrive as a frame that can be read in no
other way. -/
theorem notice_of_pair :
    let world := (ofConfig .small).run .small smallPair
    let datagram := Wire.packet .unreliable Wire.UnreliableHeader.format
      ⟨⟨654988, 0, 0, 0⟩, 1, 2⟩ [5, 6]
    (world.dispatch .small 9 ⟨.empty, datagram⟩ smallPeer).frames =
        [⟨smallPeer, [10, 0, 2, 5, 6]⟩] ∧
      (∃ notice : Wire.Notice, [10, 0, 2, 5, 6] = notice.bytes) ∧
      ∀ notice : Wire.Notice, [10, 0, 2, 5, 6] = notice.bytes →
        notice = .unreliable 0 ⟨[5, 6], by decide⟩ := by
  intro world datagram
  have hframes : (world.dispatch .small 9 ⟨.empty, datagram⟩ smallPeer).frames =
      [⟨smallPeer, [10, 0, 2, 5, 6]⟩] := by
    decide +kernel
  obtain ⟨hsent, hinjective, -⟩ := notice_of_dispatch world .small 9 ⟨.empty, datagram⟩ smallPeer
  refine ⟨hframes, hsent _ (hframes ▸ List.mem_singleton_self _), fun notice h => ?_⟩
  exact hinjective _ _ h.symm

end World

end RoomRelay
