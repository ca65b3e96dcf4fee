import RoomRelay.Wire.Error
import RoomRelay.Wire.Field

/-!
# Record checksum

Login and logout records end in a four-byte value computed from the bytes before it: the sum,
over the bytes, of a constant plus a multiple of the byte, modulo `2 ^ 32`. It sorts out damaged
or random datagrams and authenticates nobody.
-/

namespace RoomRelay.Wire.Checksum

/-- What every byte adds whatever its value. -/
def base : UInt32 := 64548

/-- What every byte adds for each unit of its value. -/
def factor : UInt32 := 6597

/-- The number of bytes of a checksum. -/
def size : Nat := 4

/-- The checksum of a byte string. -/
def compute (bytes : List UInt8) : UInt32 :=
  bytes.foldl (fun sum byte => sum + (base + byte.toUInt32 * factor)) 0

/-- The word that the last four bytes of a record hold. -/
def trailer (record : List UInt8) : UInt32 :=
  UInt32.ofNat (LittleEndian.decode (record.drop (record.length - size)))

/-- Checks that a record ends in the checksum of the bytes before it. -/
def verify (record : List UInt8) : Except Error Unit :=
  if record.length < size then .error (.truncated size record.length)
  else
    let computed := compute (record.take (record.length - size))
    let received := trailer record
    if computed = received then .ok () else .error (.checksumMismatch computed received)

/-- A record that ends in its checksum passes. -/
theorem verify_append (content : List UInt8) :
    verify (content ++ Field.encode .u32 (compute content)) = .ok () := by
  have hlength : (Field.encode .u32 (compute content)).length = 4 := Field.length_encode _ _
  have htrailer := Field.decode_encode .u32 (compute content)
  simp only [Field.decode] at htrailer
  simp [verify, size, trailer, hlength, htrailer]

/-- A record that passes ends in its checksum. -/
theorem of_verify {record : List UInt8} (h : verify record = .ok ()) :
    size ≤ record.length ∧
      record.drop (record.length - size) =
        Field.encode .u32 (compute (record.take (record.length - size))) := by
  unfold verify at h
  split at h
  · cases h
  · next hlength =>
    have hlength := Nat.not_lt.mp hlength
    dsimp only at h
    split at h
    · next hsum =>
      refine ⟨hlength, ?_⟩
      have hwidth : (record.drop (record.length - size)).length = Field.width .u32 := by
        simp only [List.length_drop, Field.width, size] at hlength ⊢
        omega
      rw [hsum]
      exact (Field.encode_decode .u32 hwidth).symm
    · cases h

end RoomRelay.Wire.Checksum
