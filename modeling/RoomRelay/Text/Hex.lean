import RoomRelay.Text.Numeral

/-!
# Hexadecimal text

Byte strings are shown to people as two lower-case digits per byte. Reading accepts digits of
either case and refuses an odd number of digits.
-/

namespace RoomRelay.Hex

/-- The lower-case digit of a number below sixteen. -/
def digit (n : Nat) : Char :=
  if n < 10 then Char.ofNat ('0'.toNat + n) else Char.ofNat ('a'.toNat + (n - 10))

/-- Two digits per byte, the high half first. -/
def encodeChars : List UInt8 → List Char
  | [] => []
  | byte :: bytes => digit (byte.toNat / 16) :: digit (byte.toNat % 16) :: encodeChars bytes

/-- The text of a byte string. -/
def encode (bytes : List UInt8) : String :=
  String.ofList (encodeChars bytes)

/-- The bytes that pairs of digits denote. -/
def decodeChars? : List Char → Option (List UInt8)
  | [] => some []
  | [_] => none
  | high :: low :: rest => do
    let h ← Numeral.digitValue? 16 high
    let l ← Numeral.digitValue? 16 low
    let bytes ← decodeChars? rest
    return UInt8.ofNat (16 * h + l) :: bytes

/-- The byte string that a text denotes. -/
def decode? (text : String) : Option (List UInt8) :=
  decodeChars? text.toList

end RoomRelay.Hex
