import RoomRelay.Proofs.Checked.Request
import RoomRelay.Relay.Dispatch

/-!
# Checked frames

How answers become frames, with every position in the writer's buffer and in the datagram checked. A
frame is cut from the datagram that carried the packet, and a header is read only if the payload
that it declares is there: so the first bytes of the frame replace bytes of the header, and it ends
where the packet does. The addresses that a frame goes to are collected in a table of fixed size,
which takes no more once it is full.
-/

namespace RoomRelay

namespace Wire

namespace Writer

/-- Writes raw bytes. -/
def appendChecked (w : Writer) (bytes : List UInt8) : Parse Writer := do
  let remaining ← Checked.sub maxDatagram w.length
  if remaining < bytes.length then throw (.bufferFull bytes.length remaining)
  else
    let stop ← Checked.add w.length bytes.length
    Checked.span w.length stop maxDatagram
    Parse.done (w.append bytes)

/-- The bytes written so far. -/
def written (w : Writer) : Checked (List UInt8) := do
  Checked.span 0 w.length maxDatagram
  return w.contents

theorem length_le_maxDatagram (w : Writer) : w.length ≤ maxDatagram := w.length_le

theorem appendChecked_eq (w : Writer) (bytes : List UInt8) :
    w.appendChecked bytes = .done (w.append bytes) := by
  rw [appendChecked, Checked.sub_of_le w.length_le_maxDatagram, Parse.lift_ok_bind]
  split
  · next hfull => rw [w.append_of_lt bytes hfull]; rfl
  · next hfits =>
    have hstop : w.length + bytes.length ≤ maxDatagram := by
      have := w.length_le_maxDatagram
      omega
    rw [Checked.add_of_le (Nat.le_trans hstop (by decide)), Parse.lift_ok_bind,
      Checked.span_of_le (Nat.le_add_right _ _) hstop]
    rfl

theorem written_eq (w : Writer) : w.written = .ok w.contents := by
  rw [written, Checked.span_of_le (Nat.zero_le _) w.length_le_maxDatagram]
  rfl

end Writer

/-- Replaces the contents of a writer by a record. -/
def Record.encodeChecked {α : Type} (record : Record α) (message : α) (w : Writer) :
    Parse Writer := do
  let w ← w.reset.appendChecked [record.kind.tag]
  let w ← w.appendChecked (record.body.encode message)
  if record.checksummed then
    let content ← w.written
    w.appendChecked (Field.encode .u32 (Checksum.compute content))
  else return w

theorem Record.encodeChecked_eq {α : Type} (record : Record α) (message : α) (w : Writer) :
    record.encodeChecked message w = .done (record.encode message w) := by
  rw [encodeChecked, encode, Writer.appendChecked_eq, Parse.done_bind, Writer.put,
    Field.encode_u8]
  refine congrArg _ (funext fun w => ?_)
  rw [Writer.appendChecked_eq, Parse.done_bind]
  refine congrArg _ (funext fun w => ?_)
  split
  · rw [Writer.written_eq, Parse.lift_ok_bind, Writer.appendChecked_eq]
    rfl
  · rfl

/-- Replaces the contents of a writer by a bare status. -/
def StatusResponse.encodeChecked (response : StatusResponse) (w : Writer) : Parse Writer := do
  let w ← w.reset.appendChecked [response.request.tag]
  w.appendChecked (Field.encode .i8 response.status.code)

theorem StatusResponse.encodeChecked_eq (response : StatusResponse) (w : Writer) :
    response.encodeChecked w = .done (response.encode w) := by
  rw [encodeChecked, encode, Writer.appendChecked_eq, Parse.done_bind, Writer.put,
    Field.encode_u8]
  exact congrArg _ (funext fun w => w.appendChecked_eq _)

/-- Overwrites part of a buffer and cuts out the frame that starts there and ends at `stop`. -/
def cutChecked (buffer : List UInt8) (start : Nat) (bytes : List UInt8) (stop : Nat) :
    Checked Cut := do
  let buffer ← Checked.write buffer start bytes
  let frame ← Checked.slice buffer start stop
  return { frame, buffer }

theorem cutChecked_of_cut? {buffer bytes : List UInt8} {start stop : Nat} {cut : Cut}
    (h : cut? buffer start bytes stop = some cut) (hmax : start + bytes.length ≤ maxSize) :
    cutChecked buffer start bytes stop = .ok cut := by
  have hlength := length_of_cut? h
  obtain ⟨hfits, hstart, hstop, hbuffer, hframe⟩ := cut?_eq_some_iff.mp h
  rw [cutChecked, Checked.write_of_le bytes hfits hmax, Checked.ok_bind, List.append_assoc,
    ← hbuffer, Checked.slice_of_le hstart (hlength.symm ▸ hstop), Checked.ok_bind, ← hframe]
  rfl

/-- The frame that members receive for a packet that may get lost. -/
def UnreliableHeader.relayFrameChecked (header : UnreliableHeader) (buffer : List UInt8)
    (sender : Int8) : Checked Cut := do
  let stop ← Checked.add width header.size.toNat
  cutChecked buffer (width - 3) [Kind.unreliable.tag, sender.toUInt8] stop

/-- The frame that the target receives for a packet that it acknowledges. -/
def ReliableHeader.relayFrameChecked (header : ReliableHeader) (buffer : List UInt8)
    (sender : Int8) : Checked Cut := do
  let stop ← Checked.add width header.size.toNat
  cutChecked buffer (width - 4) [Kind.reliable.tag, sender.toUInt8, header.ack] stop

/-- The frame that tells a member that its packet arrived. -/
def ackFrameChecked (buffer : List UInt8) (index : Int8) (ack : UInt8) : Checked Cut :=
  cutChecked buffer 0 [Kind.relied.tag, index.toUInt8, ack] ackFrameSize

/-- The end of a packet is a number of a word. -/
theorem add_size_le {width : Nat} (h : width ≤ maxDatagram) (size : UInt8) :
    width + size.toNat ≤ maxSize := by
  have := size.toNat_lt
  simp only [maxDatagram, maxSize, UInt64.size] at h ⊢
  omega

theorem UnreliableHeader.relayFrameChecked_of_decode {header : UnreliableHeader}
    {datagram : List UInt8} (h : decode datagram = .ok header) (sender : Int8) :
    ∃ cut, header.relayFrame? datagram sender = some cut ∧
      header.relayFrameChecked datagram sender = .ok cut := by
  obtain ⟨-, left, hcut⟩ := exists_relayFrame? h sender
  refine ⟨_, hcut, ?_⟩
  rw [relayFrameChecked, Checked.add_of_le (add_size_le (by decide) header.size)]
  exact cutChecked_of_cut? hcut (by show width - 3 + 2 ≤ maxSize; decide)

theorem ReliableHeader.relayFrameChecked_of_decode {header : ReliableHeader}
    {datagram : List UInt8} (h : decode datagram = .ok header) (sender : Int8) :
    ∃ cut, header.relayFrame? datagram sender = some cut ∧
      header.relayFrameChecked datagram sender = .ok cut := by
  obtain ⟨-, left, hcut⟩ := exists_relayFrame? h sender
  refine ⟨_, hcut, ?_⟩
  rw [relayFrameChecked, Checked.add_of_le (add_size_le (by decide) header.size)]
  exact cutChecked_of_cut? hcut (by show width - 4 + 3 ≤ maxSize; decide)

theorem ackFrameChecked_of_le {datagram : List UInt8} (h : ackFrameSize ≤ datagram.length)
    (index : Int8) (ack : UInt8) :
    ∃ cut, ackFrame? datagram index ack = some cut ∧
      ackFrameChecked datagram index ack = .ok cut := by
  obtain ⟨left, hcut⟩ := exists_ackFrame? h index ack
  exact ⟨_, hcut, cutChecked_of_cut? hcut (by show 0 + 3 ≤ maxSize; decide)⟩

end Wire

namespace Scratch

/-- Sends what a record writer leaves in the writer; nothing if the record does not fit. -/
def writeChecked (scratch : Scratch) (recipient : SocketAddress)
    (encode : Wire.Writer → Wire.Parse Wire.Writer) : Checked (Scratch × List Frame) := do
  match ← (encode scratch.writer).run with
  | .ok writer => do
    let contents ← writer.written
    return ({ scratch with writer }, [⟨recipient, contents⟩])
  | .error _ => return (scratch, [])

/-- Sends a frame cut from the datagram to a list of addresses. -/
def relayChecked (scratch : Scratch) (recipients : List SocketAddress)
    (cut : List UInt8 → Checked Wire.Cut) : Checked (Scratch × List Frame) := do
  let cut ← cut scratch.datagram
  return ({ scratch with datagram := cut.buffer }, recipients.map (⟨·, cut.frame⟩))

theorem writeChecked_eq {scratch : Scratch} {recipient : SocketAddress}
    {checked : Wire.Writer → Wire.Parse Wire.Writer}
    {encode : Wire.Writer → Except Wire.Error Wire.Writer}
    (h : ∀ w, checked w = .done (encode w)) :
    scratch.writeChecked recipient checked = .ok (scratch.write recipient encode) := by
  rw [writeChecked, write, h, Wire.Parse.run_done, Checked.ok_bind]
  cases encode scratch.writer with
  | error e => rfl
  | ok writer =>
      dsimp only
      rw [writer.written_eq]
      rfl

theorem relayChecked_eq {scratch : Scratch} {recipients : List SocketAddress}
    {checked : List UInt8 → Checked Wire.Cut} {cut? : List UInt8 → Option Wire.Cut}
    (h : ∃ cut, cut? scratch.datagram = some cut ∧ checked scratch.datagram = .ok cut) :
    scratch.relayChecked recipients checked = .ok (scratch.relay recipients cut?) := by
  obtain ⟨cut, hcut, hchecked⟩ := h
  rw [relayChecked, relay, hcut, hchecked]
  rfl

end Scratch

namespace Answer

/-- The frames that answer a request of a kind from a peer, in the order in which they are sent. -/
def framesChecked (scratch : Scratch) (kind : Wire.Kind) (peer : SocketAddress) :
    Answer → Checked (Scratch × List Frame)
  | .drop | .silent => return (scratch, [])
  | .status outcome =>
    scratch.writeChecked peer (Wire.StatusResponse.mk kind outcome).encodeChecked
  | .pinged response =>
    scratch.writeChecked peer (Wire.PingResponse.record.encodeChecked response)
  | .loggedIn response =>
    scratch.writeChecked peer (Wire.LoginResponse.record.encodeChecked response)
  | .created response =>
    scratch.writeChecked peer (Wire.CreateResponse.record.encodeChecked response)
  | .joined response =>
    scratch.writeChecked peer (Wire.JoinResponse.record.encodeChecked response)
  | .relayUnreliable header recipients =>
    scratch.relayChecked recipients fun buffer =>
      header.relayFrameChecked buffer header.credentials.index
  | .relayReliable header recipient =>
    scratch.relayChecked [recipient] fun buffer =>
      header.relayFrameChecked buffer header.credentials.index
  | .acknowledge index ack recipient =>
    scratch.relayChecked [recipient] fun buffer => Wire.ackFrameChecked buffer index ack

/-- An answer that finds in a datagram what its frame is cut from. -/
def Fits (datagram : List UInt8) : Answer → Prop
  | .relayUnreliable header _ => Wire.UnreliableHeader.decode datagram = .ok header
  | .relayReliable header _ => Wire.ReliableHeader.decode datagram = .ok header
  | .acknowledge _ _ _ => Wire.ackFrameSize ≤ datagram.length
  | _ => True

theorem framesChecked_eq {answer : Answer} {scratch : Scratch}
    (h : answer.Fits scratch.datagram) (kind : Wire.Kind) (peer : SocketAddress) :
    answer.framesChecked scratch kind peer = .ok (answer.frames scratch kind peer) := by
  cases answer with
  | drop | silent => rfl
  | status outcome => exact Scratch.writeChecked_eq (Wire.StatusResponse.encodeChecked_eq _)
  | pinged response => exact Scratch.writeChecked_eq (Wire.Record.encodeChecked_eq _ response)
  | loggedIn response => exact Scratch.writeChecked_eq (Wire.Record.encodeChecked_eq _ response)
  | created response => exact Scratch.writeChecked_eq (Wire.Record.encodeChecked_eq _ response)
  | joined response => exact Scratch.writeChecked_eq (Wire.Record.encodeChecked_eq _ response)
  | relayUnreliable header recipients =>
      rw [framesChecked, frames]
      apply Scratch.relayChecked_eq
      exact Wire.UnreliableHeader.relayFrameChecked_of_decode h _
  | relayReliable header recipient =>
      rw [framesChecked, frames]
      apply Scratch.relayChecked_eq
      exact Wire.ReliableHeader.relayFrameChecked_of_decode h _
  | acknowledge index ack recipient =>
      rw [framesChecked, frames]
      apply Scratch.relayChecked_eq
      exact Wire.ackFrameChecked_of_le h index ack

end Answer

/-- The addresses that a frame goes to, in a table of fixed size. -/
structure Recipients where
  addresses : Array (Option SocketAddress)
  count : Nat
  deriving Repr

namespace Recipients

/-- No addresses. -/
def empty : Recipients := ⟨Array.replicate maxRoomCapacity none, 0⟩

/-- Adds an address; nothing happens if the table is full. -/
def push (recipients : Recipients) (address : SocketAddress) : Checked Recipients :=
  if recipients.count < recipients.addresses.size then do
    let addresses ← Checked.set recipients.addresses recipients.count (some address)
    let count ← Checked.add recipients.count 1
    return { addresses, count }
  else return recipients

/-- Adds addresses one after another. -/
def pushAll (recipients : Recipients) : List SocketAddress → Checked Recipients
  | [] => return recipients
  | address :: rest => do
    let recipients ← recipients.push address
    recipients.pushAll rest

/-- The addresses that were added, in order. -/
def listed (recipients : Recipients) : Checked (List SocketAddress) := do
  Checked.span 0 recipients.count recipients.addresses.size
  return (recipients.addresses.toList.take recipients.count).filterMap id

/-- A table that holds the addresses of a list. -/
structure Holds (recipients : Recipients) (list : List SocketAddress) : Prop where
  size_eq : recipients.addresses.size = maxRoomCapacity
  count_eq : recipients.count = list.length
  length_le : list.length ≤ maxRoomCapacity
  take_eq : recipients.addresses.toList.take list.length = list.map some

variable {recipients : Recipients} {list : List SocketAddress}

theorem holds_empty : empty.Holds [] where
  size_eq := Array.size_replicate
  count_eq := rfl
  length_le := Nat.zero_le _
  take_eq := rfl

/-- An address is added to those in a table, or the table is full. -/
theorem Holds.push (h : recipients.Holds list) (address : SocketAddress) :
    ∃ after, recipients.push address = .ok after ∧
      after.Holds ((list ++ [address]).take maxRoomCapacity) := by
  obtain ⟨addresses, count⟩ := recipients
  obtain ⟨hsize, rfl, hlength, htake⟩ := h
  dsimp only at hsize htake
  rw [Recipients.push]
  split
  · next hlt =>
    dsimp only at hlt
    have hroom : list.length + 1 ≤ maxRoomCapacity := by omega
    have hcount : list.length + 1 ≤ maxSize := Nat.le_trans hroom (by decide)
    rw [Checked.set_of_lt hlt, Checked.ok_bind, Checked.add_of_le hcount, Checked.ok_bind]
    refine ⟨_, rfl, ?_⟩
    have hnew : (list ++ [address]).length = list.length + 1 := List.length_append
    rw [List.take_of_length_le (by omega)]
    refine ⟨by simpa using hsize, hnew.symm, by omega, ?_⟩
    rw [hnew, Array.toList_setIfInBounds, List.take_add_one,
      List.take_set_of_le (Nat.le_refl _), htake, List.getElem?_set_self (by simpa using hlt)]
    simp
  · next hfull =>
    dsimp only at hfull
    have hroom : list.length = maxRoomCapacity := by omega
    rw [List.take_append_of_le_length (by omega), List.take_of_length_le (by omega)]
    exact ⟨_, rfl, hsize, rfl, hlength, htake⟩

theorem take_take_append {α : Type} (count : Nat) (first second : List α) :
    (first.take count ++ second).take count = (first ++ second).take count := by
  have hcount : count - min count first.length = count - first.length := by omega
  rw [List.take_append, List.take_append, List.take_take, Nat.min_self, List.length_take, hcount]

/-- Addresses are added as far as there is room for them. -/
theorem Holds.pushAll (h : recipients.Holds list) (addresses : List SocketAddress) :
    ∃ after, recipients.pushAll addresses = .ok after ∧
      after.Holds ((list ++ addresses).take maxRoomCapacity) := by
  induction addresses generalizing recipients list with
  | nil =>
      rw [List.append_nil, List.take_of_length_le h.length_le]
      exact ⟨recipients, rfl, h⟩
  | cons address rest ih =>
      obtain ⟨next, hpush, hnext⟩ := h.push address
      obtain ⟨after, hrest, hafter⟩ := ih hnext
      refine ⟨after, ?_, ?_⟩
      · rw [Recipients.pushAll, hpush, Checked.ok_bind, hrest]
      · rw [List.append_cons, ← take_take_append]
        exact hafter

theorem Holds.listed_eq (h : recipients.Holds list) : recipients.listed = .ok list := by
  have hcount : recipients.count ≤ recipients.addresses.size := by
    rw [h.count_eq, h.size_eq]
    exact h.length_le
  rw [listed, Checked.span_of_le (Nat.zero_le _) hcount, Checked.ok_bind, h.count_eq, h.take_eq,
    List.filterMap_map]
  exact congrArg Except.ok List.filterMap_some

end Recipients

/-- The addresses that an unreliable packet goes to. -/
def Room.unreliableRecipientsChecked (room : Room) (lobby : Lobby) (sender : SeatIndex)
    (target : Int8) : Checked Recipients :=
  if target = Wire.targetOthers then
    Recipients.empty.pushAll (room.addresses lobby (· ≠ sender))
  else if target = Wire.targetAll then
    Recipients.empty.pushAll (room.addresses lobby fun _ => true)
  else
    Recipients.empty.pushAll (SeatIndex.ofWire? target >>= room.memberAddress? lobby).toList

/-- The recipients of a packet are collected, whatever the size of the room. -/
theorem Room.unreliableRecipientsChecked_holds (room : Room) (lobby : Lobby) (sender : SeatIndex)
    (target : Int8) :
    ∃ recipients, room.unreliableRecipientsChecked lobby sender target = .ok recipients ∧
      recipients.Holds (room.unreliableRecipients lobby sender target) := by
  rw [unreliableRecipientsChecked, unreliableRecipients]
  split
  · exact Recipients.holds_empty.pushAll _
  · split
    · exact Recipients.holds_empty.pushAll _
    · have hone : (SeatIndex.ofWire? target >>= room.memberAddress? lobby).toList.length ≤
          maxRoomCapacity :=
        Nat.le_trans Option.length_toList_le (by decide)
      have hcollected := Recipients.holds_empty.pushAll
        (SeatIndex.ofWire? target >>= room.memberAddress? lobby).toList
      rwa [List.nil_append, List.take_of_length_le hone] at hcollected

end RoomRelay
