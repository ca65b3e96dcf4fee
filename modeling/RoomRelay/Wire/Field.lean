import RoomRelay.Wire.LittleEndian

/-!
# Fields

A field is a value of fixed width inside a record: an integer of one of seven sizes, written
little-endian (and in two's complement if signed), or a block of bytes. Each field type is in
bijection with the byte strings of its width, which `decode_encode` and `encode_decode` state.
-/

namespace RoomRelay.Wire

/-- The type of a field. -/
inductive Field
  | u8 | i8 | u16 | i16 | u32 | i32 | u64
  | block (size : Nat)
  deriving DecidableEq, Repr

namespace Field

/-- The values of a field. -/
abbrev Value : Field → Type
  | u8 => UInt8
  | i8 => Int8
  | u16 => UInt16
  | i16 => Int16
  | u32 => UInt32
  | i32 => Int32
  | u64 => UInt64
  | block size => Vector UInt8 size

/-- The number of bytes of a field. -/
def width : Field → Nat
  | u8 | i8 => 1
  | u16 | i16 => 2
  | u32 | i32 => 4
  | u64 => 8
  | block size => size

/-- The bytes of a value. -/
def encode : (field : Field) → field.Value → List UInt8
  | u8, v => LittleEndian.encode 1 v.toNat
  | i8, v => LittleEndian.encode 1 v.toUInt8.toNat
  | u16, v => LittleEndian.encode 2 v.toNat
  | i16, v => LittleEndian.encode 2 v.toUInt16.toNat
  | u32, v => LittleEndian.encode 4 v.toNat
  | i32, v => LittleEndian.encode 4 v.toUInt32.toNat
  | u64, v => LittleEndian.encode 8 v.toNat
  | block _, v => v.toList

/-- The block of `size` bytes that a byte string is; another length gives zero bytes. -/
def blockOfList (size : Nat) (bytes : List UInt8) : Vector UInt8 size :=
  if h : bytes.length = size then ⟨bytes.toArray, by simpa using h⟩ else Vector.replicate size 0

/-- The value that bytes of the field's width denote. -/
def decode : (field : Field) → List UInt8 → field.Value
  | u8, bytes => UInt8.ofNat (LittleEndian.decode bytes)
  | i8, bytes => (UInt8.ofNat (LittleEndian.decode bytes)).toInt8
  | u16, bytes => UInt16.ofNat (LittleEndian.decode bytes)
  | i16, bytes => (UInt16.ofNat (LittleEndian.decode bytes)).toInt16
  | u32, bytes => UInt32.ofNat (LittleEndian.decode bytes)
  | i32, bytes => (UInt32.ofNat (LittleEndian.decode bytes)).toInt32
  | u64, bytes => UInt64.ofNat (LittleEndian.decode bytes)
  | block size, bytes => blockOfList size bytes

@[simp] theorem length_encode (field : Field) (v : field.Value) :
    (field.encode v).length = field.width := by
  cases field <;> simp [encode, width]

@[simp] theorem encode_u8 (v : UInt8) : encode .u8 v = [v] := by
  simp [encode, LittleEndian.encode]

theorem encode_i8 (v : Int8) : encode .i8 v = [v.toUInt8] :=
  encode_u8 v.toUInt8

variable {n : Nat}

@[simp] theorem blockOfList_toList (v : Vector UInt8 n) : blockOfList n v.toList = v := by
  rw [blockOfList, dif_pos v.length_toList]
  exact Vector.toArray_inj.mp (by simp [Vector.toList])

theorem toList_blockOfList {bytes : List UInt8} (h : bytes.length = n) :
    (blockOfList n bytes).toList = bytes := by
  rw [blockOfList, dif_pos h]
  simp

theorem ofNat_decode_uint8 (v : UInt8) :
    UInt8.ofNat (LittleEndian.decode (LittleEndian.encode 1 v.toNat)) = v := by
  rw [LittleEndian.decode_encode_of_lt v.toNat_lt, UInt8.ofNat_toNat]

theorem ofNat_decode_uint16 (v : UInt16) :
    UInt16.ofNat (LittleEndian.decode (LittleEndian.encode 2 v.toNat)) = v := by
  rw [LittleEndian.decode_encode_of_lt v.toNat_lt, UInt16.ofNat_toNat]

theorem ofNat_decode_uint32 (v : UInt32) :
    UInt32.ofNat (LittleEndian.decode (LittleEndian.encode 4 v.toNat)) = v := by
  rw [LittleEndian.decode_encode_of_lt v.toNat_lt, UInt32.ofNat_toNat]

theorem ofNat_decode_uint64 (v : UInt64) :
    UInt64.ofNat (LittleEndian.decode (LittleEndian.encode 8 v.toNat)) = v := by
  rw [LittleEndian.decode_encode_of_lt v.toNat_lt, UInt64.ofNat_toNat]

@[simp] theorem decode_encode (field : Field) (v : field.Value) :
    field.decode (field.encode v) = v := by
  cases field with
  | u8 => exact ofNat_decode_uint8 v
  | i8 => exact congrArg UInt8.toInt8 (ofNat_decode_uint8 (Int8.toUInt8 v))
  | u16 => exact ofNat_decode_uint16 v
  | i16 => exact congrArg UInt16.toInt16 (ofNat_decode_uint16 (Int16.toUInt16 v))
  | u32 => exact ofNat_decode_uint32 v
  | i32 => exact congrArg UInt32.toInt32 (ofNat_decode_uint32 (Int32.toUInt32 v))
  | u64 => exact ofNat_decode_uint64 v
  | block _ => exact blockOfList_toList v

/-- Bytes of a given length are the numeral of the number that they denote. -/
theorem encode_of_toNat_eq {bytes : List UInt8} {value : Nat} (h : bytes.length = n)
    (hv : LittleEndian.decode bytes < LittleEndian.span n → value = LittleEndian.decode bytes) :
    LittleEndian.encode n value = bytes := by
  subst h
  rw [hv (LittleEndian.decode_lt bytes), LittleEndian.encode_decode]

theorem encode_decode (field : Field) {bytes : List UInt8} (h : bytes.length = field.width) :
    field.encode (field.decode bytes) = bytes := by
  cases field with
  | u8 => exact encode_of_toNat_eq h UInt8.toNat_ofNat_of_lt'
  | i8 => exact encode_of_toNat_eq h UInt8.toNat_ofNat_of_lt'
  | u16 => exact encode_of_toNat_eq h UInt16.toNat_ofNat_of_lt'
  | i16 => exact encode_of_toNat_eq h UInt16.toNat_ofNat_of_lt'
  | u32 => exact encode_of_toNat_eq h UInt32.toNat_ofNat_of_lt'
  | i32 => exact encode_of_toNat_eq h UInt32.toNat_ofNat_of_lt'
  | u64 => exact encode_of_toNat_eq h UInt64.toNat_ofNat_of_lt'
  | block _ => exact toList_blockOfList h

end Field

end RoomRelay.Wire
