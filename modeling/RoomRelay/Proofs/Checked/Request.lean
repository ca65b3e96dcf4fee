import RoomRelay.Proofs.Checked.Reader
import RoomRelay.Proofs.Packet

/-!
# Checked decoding

A record is cut from the start of a datagram that is long enough, its tag is compared, its last four
bytes are split off if they are a checksum, and its body is read from what follows the tag. The
header of a packet is read from the datagram itself, since the payload follows it. None of this
reaches outside the datagram, whatever bytes it has and however many.
-/

namespace RoomRelay

namespace Wire

namespace Checksum

/-- Checks that a record ends in the checksum of the bytes before it. -/
def verifyChecked (record : List UInt8) : Parse Unit :=
  if record.length < size then throw (.truncated size record.length)
  else do
    let middle ← Checked.sub record.length size
    let content ← Checked.slice record 0 middle
    let trailer ← Checked.slice record middle record.length
    let first ← Checked.byte trailer 0
    let second ← Checked.byte trailer 1
    let third ← Checked.byte trailer 2
    let fourth ← Checked.byte trailer 3
    let computed := compute content
    let received := UInt32.ofNat (LittleEndian.decode [first, second, third, fourth])
    if computed = received then return () else throw (.checksumMismatch computed received)

/-- A trailer is four bytes. -/
theorem exists_eq_of_length_eq_size :
    ∀ {trailer : List UInt8}, trailer.length = size →
      ∃ first second third fourth, trailer = [first, second, third, fourth]
  | [first, second, third, fourth], _ => ⟨first, second, third, fourth, rfl⟩

theorem verifyChecked_eq (record : List UInt8) : verifyChecked record = .done (verify record) := by
  rw [verifyChecked, verify]
  split
  · rfl
  · next hlength =>
    have hle := Nat.not_lt.mp hlength
    have hstop : (record.take record.length).drop (record.length - size) =
        record.drop (record.length - size) := by rw [List.take_length]
    have hsize : (record.drop (record.length - size)).length = size := by
      rw [List.length_drop, Nat.sub_sub_self hle]
    obtain ⟨first, second, third, fourth, htrailer⟩ := exists_eq_of_length_eq_size hsize
    rw [Checked.sub_of_le hle, Parse.lift_ok_bind,
      Checked.slice_of_le (Nat.zero_le _) (Nat.sub_le _ _), Parse.lift_ok_bind,
      Checked.slice_of_le (Nat.sub_le _ _) (Nat.le_refl _), Parse.lift_ok_bind, hstop, htrailer]
    have hreceived : UInt32.ofNat (LittleEndian.decode [first, second, third, fourth]) =
        trailer record := by rw [trailer, htrailer]
    simp only [Checked.byte, List.getElem?_cons_zero, List.getElem?_cons_succ,
      Parse.lift_ok_bind, hreceived, List.drop_zero]
    split <;> rfl

end Checksum

namespace Record

variable {α : Type}

/-- Checks the checksum of a record that has one. -/
def verifyChecked (record : Record α) (bytes : List UInt8) : Parse Unit :=
  if record.checksummed then Checksum.verifyChecked bytes else return ()

/-- Reads the record at the start of a datagram. -/
def decodeChecked (record : Record α) [Format.Guarded record.body] (datagram : List UInt8) :
    Parse α :=
  if datagram.length < record.size then throw (.truncated record.size datagram.length)
  else do
    let bytes ← Checked.slice datagram 0 record.size
    let actual ← Checked.byte bytes 0
    if actual = record.kind.tag then do
      record.verifyChecked bytes
      let body ← Checked.slice bytes 1 bytes.length
      let (message, _) ← Format.Guarded.read record.body ⟨body, 0⟩
      return message
    else throw (.unexpectedKind record.kind.tag actual)

theorem verifyChecked_eq (record : Record α) (bytes : List UInt8) :
    record.verifyChecked bytes = .done (record.verify bytes) := by
  rw [verifyChecked, verify]
  split
  · exact Checksum.verifyChecked_eq bytes
  · rfl

theorem decodeChecked_eq (record : Record α) [Format.Guarded record.body]
    (h : record.size ≤ maxDatagram) (datagram : List UInt8) :
    record.decodeChecked datagram = .done (record.decode datagram) := by
  rw [decodeChecked, decode]
  split
  · rfl
  · next hlength =>
    have hle := Nat.not_lt.mp hlength
    have hsize := List.length_take_of_le hle
    rw [Checked.slice_of_le (Nat.zero_le _) hle, Parse.lift_ok_bind, List.drop_zero]
    cases hbytes : datagram.take record.size with
    | nil =>
        rw [hbytes, List.length_nil, size] at hsize
        omega
    | cons actual rest =>
        rw [Checked.byte_of_getElem? rfl, Parse.lift_ok_bind, decodeExact, Reader.ofBytes,
          Reader.expect_cons]
        split
        · -- The cursor starts after the tag, where the reader stands once it has read it.
          have hinside : Cursor.Inside ⟨rest, 0⟩ record.body.width := by
            refine ⟨Nat.zero_le _, ?_⟩
            simp only [size, maxDatagram, maxSize, UInt64.size] at h ⊢
            omega
          have hbody := Format.Guarded.read_eq hinside 1
          simp only [Cursor.reader, Nat.add_zero, List.drop_zero] at hbody
          rw [verifyChecked_eq]
          cases record.verify (actual :: rest) with
          | error e => rfl
          | ok _ =>
              rw [Parse.done_ok_bind, Checked.slice_of_le (by simp) (Nat.le_refl _),
                Parse.lift_ok_bind, List.take_length, List.drop_one, List.tail_cons, hbody]
              simp only [bind, Except.bind, Nat.zero_add]
              cases record.body.read ⟨1, rest⟩ <;> rfl
        · rfl

end Record

section Header

variable {α : Type} {kind : Kind} {format : Format α} {size : α → UInt8}

/-- Reads the header of a packet, and checks that the payload is there that it declares. -/
def readHeaderChecked (kind : Kind) (format : Format α) [Format.Guarded format] (size : α → UInt8)
    (datagram : List UInt8) : Parse α := do
  let c ← (Cursor.mk datagram 0).expect kind
  let (header, c) ← Format.Guarded.read format c
  Parse.done (checkPayload (size header).toNat c.remaining)
  return header

theorem readHeaderChecked_eq [Format.Guarded format] (h : 1 + format.width ≤ maxDatagram)
    (datagram : List UInt8) :
    readHeaderChecked kind format size datagram =
      .done (readHeader kind format size datagram) := by
  have hinside : Cursor.Inside ⟨datagram, 0⟩ (1 + format.width) := by
    refine ⟨Nat.zero_le _, ?_⟩
    simp only [maxDatagram, maxSize, UInt64.size] at h ⊢
    omega
  have hexpect := Cursor.expect_eq (Format.Guarded.inside_left hinside) 0 kind
  have hstart : (Cursor.mk datagram 0).reader 0 = Reader.ofBytes datagram := rfl
  rw [readHeaderChecked, hexpect, readHeader, Parse.done_bind, hstart]
  cases htag : (Reader.ofBytes datagram).expect kind with
  | error e => rfl
  | ok r =>
      obtain ⟨hrest, hposition⟩ := Reader.of_expect htag
      have hnext : r = (Cursor.advance ⟨datagram, 0⟩ 1).reader 0 := by
        rw [Cursor.reader_advance, hstart, hrest, List.drop_one, List.tail_cons, ← hposition]
      have hbody : (Cursor.advance ⟨datagram, 0⟩ 1).Inside format.width := by
        have hlength := congrArg List.length hrest
        simp only [Reader.ofBytes, List.length_cons] at hlength
        exact ⟨by simp only [Cursor.advance]; omega, by simpa [Cursor.advance] using hinside.2⟩
      simp only [Except.map, Parse.done_ok_bind]
      rw [Format.Guarded.read_eq hbody 0, Parse.done_bind, hnext]
      cases hread : format.read ((Cursor.advance ⟨datagram, 0⟩ 1).reader 0) with
      | error e => rfl
      | ok found =>
          obtain ⟨header, r'⟩ := found
          obtain ⟨rfl, -⟩ := Format.reader_of_read hread
          simp only [Except.map, Parse.done_ok_bind, Parse.done_bind, Cursor.remaining_reader]
          rfl

end Header

instance : Format.Guarded Credentials.format := by delta Credentials.format; infer_instance

instance : Format.Guarded Range.format := by delta Range.format; infer_instance

instance : Format.Guarded Ping.record.body := by delta Ping.record; infer_instance

instance : Format.Guarded Login.record.body := by delta Login.record; infer_instance

instance : Format.Guarded Logout.record.body := by delta Logout.record; infer_instance

instance : Format.Guarded Create.record.body := by delta Create.record; infer_instance

instance : Format.Guarded Join.record.body := by delta Join.record; infer_instance

instance : Format.Guarded Leave.record.body := by delta Leave.record; infer_instance

instance : Format.Guarded Relied.record.body := by delta Relied.record; infer_instance

instance : Format.Guarded UnreliableHeader.format := by
  delta UnreliableHeader.format; infer_instance

instance : Format.Guarded ReliableHeader.format := by delta ReliableHeader.format; infer_instance

end Wire

namespace Request

open Wire (Parse)

/-- Reads a datagram as a request of a given kind. -/
def decodeAsChecked (datagram : List UInt8) : Wire.Kind → Parse Request
  | .ping => ping <$> Wire.Ping.record.decodeChecked datagram
  | .login => login <$> Wire.Login.record.decodeChecked datagram
  | .logout => logout <$> Wire.Logout.record.decodeChecked datagram
  | .create => create <$> Wire.Create.record.decodeChecked datagram
  | .join => join <$> Wire.Join.record.decodeChecked datagram
  | .leave => leave <$> Wire.Leave.record.decodeChecked datagram
  | .unreliable =>
    unreliable <$> Wire.readHeaderChecked .unreliable Wire.UnreliableHeader.format
      Wire.UnreliableHeader.size datagram
  | .reliable =>
    reliable <$> Wire.readHeaderChecked .reliable Wire.ReliableHeader.format
      Wire.ReliableHeader.size datagram
  | .relied => relied <$> Wire.Relied.record.decodeChecked datagram

/-- Reads a datagram as a request of the kind that its first byte names. -/
def decodeChecked (datagram : List UInt8) : Parse Request := do
  decodeAsChecked datagram (← Parse.done (Wire.Kind.peek datagram))

theorem decodeAsChecked_eq (datagram : List UInt8) (kind : Wire.Kind) :
    decodeAsChecked datagram kind = .done (decodeAs datagram kind) := by
  cases kind with
  | ping => exact Parse.map_of_eq_done _ (Wire.Record.decodeChecked_eq _ (by decide) datagram)
  | login => exact Parse.map_of_eq_done _ (Wire.Record.decodeChecked_eq _ (by decide) datagram)
  | logout => exact Parse.map_of_eq_done _ (Wire.Record.decodeChecked_eq _ (by decide) datagram)
  | create => exact Parse.map_of_eq_done _ (Wire.Record.decodeChecked_eq _ (by decide) datagram)
  | join => exact Parse.map_of_eq_done _ (Wire.Record.decodeChecked_eq _ (by decide) datagram)
  | leave => exact Parse.map_of_eq_done _ (Wire.Record.decodeChecked_eq _ (by decide) datagram)
  | unreliable => exact Parse.map_of_eq_done _ (Wire.readHeaderChecked_eq (by decide) datagram)
  | reliable => exact Parse.map_of_eq_done _ (Wire.readHeaderChecked_eq (by decide) datagram)
  | relied => exact Parse.map_of_eq_done _ (Wire.Record.decodeChecked_eq _ (by decide) datagram)

/-- Whatever is received is read, or refused, without a fault. -/
theorem decodeChecked_eq (datagram : List UInt8) :
    decodeChecked datagram = .done (decode datagram) := by
  rw [decodeChecked, decode, Wire.Parse.done_bind]
  exact congrArg _ (funext (decodeAsChecked_eq datagram))

end Request

end RoomRelay
