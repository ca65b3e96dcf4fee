import RoomRelay.Text.Hex
import RoomRelay.Wire.LittleEndian

/-!
# Wire errors

Everything that can go wrong while a datagram is read or written, as causes. None of them is
ever told to the peer: a datagram that does not decode is dropped.
-/

namespace RoomRelay.Wire

/-- Why bytes could not be read as, or written from, a record. -/
inductive Error
  /-- A read of `needed` bytes met only `remaining`. -/
  | truncated (needed remaining : Nat)
  /-- A write of `needed` bytes had room for only `remaining`. -/
  | bufferFull (needed remaining : Nat)
  /-- The first byte is no message kind. -/
  | unknownKind (tag : UInt8)
  /-- The first byte is the tag of another record. -/
  | unexpectedKind (expected actual : UInt8)
  /-- The trailing checksum is not that of the bytes before it. -/
  | checksumMismatch (computed received : UInt32)
  /-- A relay packet declares more payload than there is, or than a byte can count. -/
  | payloadOverrun (declared available : Nat)
  /-- A status byte is no status. -/
  | unknownStatus (code : Int8)
  deriving DecidableEq, Repr

/-- A word as eight hexadecimal digits, most significant first. -/
def hexWord (word : UInt32) : String :=
  "0x" ++ Hex.encode (LittleEndian.encode 4 word.toNat).reverse

/-- The wording of a wire error. -/
def Error.message : Error → String
  | .truncated needed remaining =>
    s!"truncated record: needed {needed} more bytes, {remaining} remaining"
  | .bufferFull needed remaining => s!"buffer full: {needed} bytes needed, {remaining} remaining"
  | .unknownKind tag => s!"unknown message type: {tag.toNat}"
  | .unexpectedKind expected actual =>
    s!"unexpected message type: expected {expected.toNat}, got {actual.toNat}"
  | .checksumMismatch computed received =>
    s!"checksum mismatch: computed {hexWord computed}, received {hexWord received}"
  | .payloadOverrun declared available =>
    s!"payload overrun: declared {declared} bytes, {available} available"
  | .unknownStatus code => s!"unknown error code: {code.toInt}"

end RoomRelay.Wire
