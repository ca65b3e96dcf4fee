/-!
# Little-endian numerals

A number below `span width` is written as `width` bytes, least significant first. On such
numbers, and on byte strings of that length, `encode` and `decode` are inverse to each other.
-/

namespace RoomRelay.LittleEndian

/-- The `width` least significant bytes of a number, least significant first. -/
def encode : (width : Nat) → (value : Nat) → List UInt8
  | 0, _ => []
  | width + 1, value => UInt8.ofNat value :: encode width (value / 256)

/-- The number that a byte string denotes. -/
def decode : List UInt8 → Nat
  | [] => 0
  | byte :: bytes => byte.toNat + 256 * decode bytes

@[simp] theorem length_encode (width value : Nat) : (encode width value).length = width := by
  induction width generalizing value with
  | zero => rfl
  | succ width ih => simp [encode, ih]

/-- How many numbers `width` bytes can tell apart. -/
def span : (width : Nat) → Nat
  | 0 => 1
  | width + 1 => 256 * span width

theorem decode_lt (bytes : List UInt8) : decode bytes < span bytes.length := by
  induction bytes with
  | nil => exact Nat.one_pos
  | cons byte bytes ih =>
    have := byte.toNat_lt
    simp only [decode, List.length_cons, span]
    omega

theorem decode_encode (width value : Nat) :
    decode (encode width value) = value % span width := by
  induction width generalizing value with
  | zero => exact (Nat.mod_one value).symm
  | succ width ih =>
    have hlow : (UInt8.ofNat value).toNat = value % 256 := by simp
    rw [encode, decode, ih, hlow, span, Nat.mod_mul]

theorem decode_encode_of_lt {width value : Nat} (h : value < span width) :
    decode (encode width value) = value := by
  rw [decode_encode, Nat.mod_eq_of_lt h]

theorem encode_decode (bytes : List UInt8) : encode bytes.length (decode bytes) = bytes := by
  induction bytes with
  | nil => rfl
  | cons byte bytes ih =>
    have hb := byte.toNat_lt
    have hlow : UInt8.ofNat (byte.toNat + 256 * decode bytes) = byte := by
      apply UInt8.toNat_inj.mp
      simp only [UInt8.toNat_ofNat']
      omega
    have hhigh : (byte.toNat + 256 * decode bytes) / 256 = decode bytes := by omega
    simp only [List.length_cons, encode, decode, hlow, hhigh, ih]

end RoomRelay.LittleEndian
