import RoomRelay.Wire.Kind
import RoomRelay.Wire.Writer

/-!
# Records

A record is a datagram of fixed size: the tag of its kind, a body in some format, and for some
kinds a checksum over all of that. Bytes after the record are ignored when it is read.
-/

namespace RoomRelay.Wire

namespace Reader

/-- Reads the tag of the expected kind. -/
def expect (r : Reader) (kind : Kind) : Except Error Reader :=
  match r.get .u8 with
  | .error e => .error e
  | .ok (actual, r) =>
    if actual = kind.tag then .ok r else .error (.unexpectedKind kind.tag actual)

/-- The first byte is compared with the tag of the expected kind. -/
theorem expect_cons (position : Nat) (actual : UInt8) (rest : List UInt8) (kind : Kind) :
    expect ⟨position, actual :: rest⟩ kind =
      if actual = kind.tag then .ok ⟨position + 1, rest⟩
      else .error (.unexpectedKind kind.tag actual) := by
  have hget := get_encode .u8 actual position rest
  rw [Field.encode_u8, List.singleton_append] at hget
  rw [expect, hget]
  rfl

theorem expect_tag (kind : Kind) (position : Nat) (rest : List UInt8) :
    expect ⟨position, kind.tag :: rest⟩ kind = .ok ⟨position + 1, rest⟩ :=
  (expect_cons position kind.tag rest kind).trans (if_pos rfl)

theorem of_expect {r r' : Reader} {kind : Kind} (h : r.expect kind = .ok r') :
    r.rest = kind.tag :: r'.rest ∧ r'.position = r.position + 1 := by
  unfold expect at h
  split at h
  · cases h
  · next actual after hget =>
    split at h
    · next htag =>
      cases h
      obtain ⟨hrest, hposition⟩ := of_get hget
      rw [Field.encode_u8, htag] at hrest
      exact ⟨hrest, hposition⟩
    · cases h

end Reader

/-- How the values of a type are sent as records. -/
structure Record (α : Type) where
  kind : Kind
  checksummed : Bool
  body : Format α

namespace Record

variable {α : Type}

/-- The number of bytes of a record. -/
def size (record : Record α) : Nat :=
  1 + record.body.width + if record.checksummed then Checksum.size else 0

/-- The tag and the body of a record. -/
def content (record : Record α) (message : α) : List UInt8 :=
  record.kind.tag :: record.body.encode message

/-- The bytes of a record. -/
def bytes (record : Record α) (message : α) : List UInt8 :=
  let content := record.content message
  if record.checksummed then content ++ Field.encode .u32 (Checksum.compute content) else content

/-- Replaces the contents of a writer by a record. -/
def encode (record : Record α) (message : α) (w : Writer) : Except Error Writer := do
  let w ← w.reset.put .u8 record.kind.tag
  let w ← w.append (record.body.encode message)
  if record.checksummed then w.putChecksum else .ok w

/-- Checks the checksum of a record that has one. -/
def verify (record : Record α) (bytes : List UInt8) : Except Error Unit :=
  if record.checksummed then Checksum.verify bytes else .ok ()

/-- Reads a record from exactly its bytes. A wrong tag is refused first, then a wrong checksum, then
what the body's format refuses. -/
def decodeExact (record : Record α) (bytes : List UInt8) : Except Error α := do
  let r ← (Reader.ofBytes bytes).expect record.kind
  record.verify bytes
  let (message, _) ← record.body.read r
  return message

/-- Reads the record at the start of a datagram, which must not be shorter than it. -/
def decode (record : Record α) (datagram : List UInt8) : Except Error α :=
  if datagram.length < record.size then .error (.truncated record.size datagram.length)
  else record.decodeExact (datagram.take record.size)

end Record

end RoomRelay.Wire
