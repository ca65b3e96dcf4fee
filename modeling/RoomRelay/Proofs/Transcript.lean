import Mathlib.Algebra.Ring.Nat
import RoomRelay.Proofs.Checked.Reader
import RoomRelay.Proofs.Slate

/-!
# Writing and reading piece by piece

Pieces are written on a slate one after another, whatever became of those before. A piece that does
not fit is refused, and the slate stays as it was, so that a shorter one may still be written on it.
A transcript tells what each write came to; what is on the slate in the end is told by the writes
that were not refused. Going through their shapes, a reader gets back just the values that were
written, and nothing is left over. A read that asks for too much is refused likewise, and the reader
stays where it was.
-/

namespace RoomRelay

namespace LittleEndian

/-- The bytes of an integer in two's complement, least significant first: each is the integer
divided by the weight of its place and rounded down, modulo 256. -/
def ofInt (width : Nat) (n : Int) : List UInt8 :=
  (List.range width).map fun place => UInt8.ofInt (n / span place)

theorem ofInt_succ (width : Nat) (n : Int) :
    ofInt (width + 1) n = UInt8.ofInt n :: ofInt width (n / 256) := by
  have hplace : ∀ place, n / (span (place + 1) : Nat) = n / 256 / (span place : Nat) := by
    intro place
    rw [Int.ediv_ediv_of_nonneg (by decide), span, Int.natCast_mul]
    rfl
  have hone : n / (span 0 : Nat) = n := Int.ediv_one n
  simp only [ofInt, List.range_succ_eq_map, List.map_cons, List.map_map, hone, List.cons.injEq,
    true_and]
  exact List.map_congr_left fun place _ => congrArg UInt8.ofInt (hplace place)

/-- A number is written as the integer that it is. -/
theorem encode_eq_ofInt (width value : Nat) : encode width value = ofInt width value := by
  induction width generalizing value with
  | zero => rfl
  | succ width ih =>
      have hlow : UInt8.ofNat value = UInt8.ofInt value := by
        rw [UInt8.ofInt, ← UInt8.ofNat_mod_size]
        rfl
      rw [encode, ih, ofInt_succ, hlow]
      rfl

/-- Integers that differ by all that some bytes can tell apart have the same bytes. -/
theorem ofInt_sub_span (width : Nat) (n : Int) : ofInt width (n - span width) = ofInt width n := by
  induction width generalizing n with
  | zero => rfl
  | succ width ih =>
      have hspan : ((span (width + 1) : Nat) : Int) = 256 * (span width : Nat) :=
        Int.natCast_mul 256 (span width)
      have hlow : UInt8.ofInt (n - span (width + 1)) = UInt8.ofInt n := by
        rw [UInt8.ofInt, UInt8.ofInt, hspan]
        congr 2
        omega
      have hhigh : (n - span (width + 1)) / 256 = n / 256 - span width := by
        rw [hspan]
        omega
      rw [ofInt_succ, ofInt_succ, hlow, hhigh, ih]

/-- A word is written as the integer that it is in two's complement. -/
theorem encode_toNat {bits width : Nat} (h : 2 ^ bits = span width) (word : BitVec bits) :
    encode width word.toNat = ofInt width word.toInt := by
  rw [encode_eq_ofInt, BitVec.toInt_eq_toNat_cond]
  split
  · rfl
  · rw [h, ofInt_sub_span]

end LittleEndian

namespace Wire

namespace Field

/-- The bytes of a value by their places. -/
def bytes : (field : Field) → field.Value → List UInt8
  | u8, v => LittleEndian.ofInt 1 v.toNat
  | i8, v => LittleEndian.ofInt 1 v.toInt
  | u16, v => LittleEndian.ofInt 2 v.toNat
  | i16, v => LittleEndian.ofInt 2 v.toInt
  | u32, v => LittleEndian.ofInt 4 v.toNat
  | i32, v => LittleEndian.ofInt 4 v.toInt
  | u64, v => LittleEndian.ofInt 8 v.toNat
  | block _, v => v.toList

theorem encode_eq_bytes (field : Field) (v : field.Value) : field.encode v = field.bytes v := by
  cases field with
  | u8 | u16 | u32 | u64 => exact LittleEndian.encode_eq_ofInt _ _
  | i8 => exact LittleEndian.encode_toNat rfl (Int8.toBitVec v)
  | i16 => exact LittleEndian.encode_toNat rfl (Int16.toBitVec v)
  | i32 => exact LittleEndian.encode_toNat rfl (Int32.toBitVec v)
  | block _ => rfl

end Field

/-- A value of a field, or raw bytes. -/
inductive Item
  | value (field : Field) (v : field.Value)
  | raw (bytes : List UInt8)

/-- What can be read at once: a field, or a number of raw bytes. -/
inductive Shape
  | value (field : Field)
  | raw (count : Nat)

/-- What can be written at once: an item, or the checksum of everything before it. -/
inductive Piece
  | plain (item : Item)
  | checksum

namespace Item

/-- As what an item is read. -/
def shape : Item → Shape
  | value field _ => .value field
  | raw bytes => .raw bytes.length

/-- The bytes that there should be of an item. -/
def bytes : Item → List UInt8
  | value field v => field.bytes v
  | raw bytes => bytes

end Item

namespace Shape

/-- The number of bytes that are read. -/
def width : Shape → Nat
  | value field => field.width
  | raw count => count

/-- What is read from bytes of the right number. -/
def item : Shape → List UInt8 → Item
  | value field, bytes => .value field (field.decode bytes)
  | raw _, bytes => .raw bytes

variable {shape : Shape} {bytes : List UInt8}

theorem shape_item (h : bytes.length = shape.width) : (shape.item bytes).shape = shape := by
  cases shape with
  | value field => rfl
  | raw count => exact congrArg raw h

theorem bytes_item (h : bytes.length = shape.width) : (shape.item bytes).bytes = bytes := by
  cases shape with
  | value field =>
      show field.bytes (field.decode bytes) = bytes
      rw [← field.encode_eq_bytes, field.encode_decode h]
  | raw count => rfl

end Shape

namespace Item

theorem length_bytes (item : Item) : item.bytes.length = item.shape.width := by
  cases item with
  | value field v =>
      show (field.bytes v).length = field.width
      rw [← field.encode_eq_bytes, field.length_encode]
  | raw bytes => rfl

theorem item_bytes (item : Item) : item.shape.item item.bytes = item := by
  cases item with
  | value field v =>
      show value field (field.decode (field.bytes v)) = _
      rw [← field.encode_eq_bytes, field.decode_encode]
  | raw bytes => rfl

end Item

namespace Piece

/-- The item that is written for a piece behind some contents. -/
def itemAfter (contents : List UInt8) : Piece → Item
  | plain item => item
  | checksum => .value .u32 (Checksum.compute contents)

/-- The bytes that there should be of a piece on a slate. -/
def bytesOn (slate : Slate) (piece : Piece) : List UInt8 := (piece.itemAfter slate.written).bytes

/-- Writes a piece on a slate. -/
def write : Piece → Slate.Script
  | plain (.value field v) => Slate.append (field.encode v)
  | plain (.raw bytes) => Slate.append bytes
  | checksum => Slate.putChecksum

/-- Writes a piece in a writer. -/
def put (w : Writer) : Piece → Except Error Writer
  | plain (.value field v) => w.put field v
  | plain (.raw bytes) => w.append bytes
  | checksum => w.putChecksum

/-- On a slate the same is written as in a writer. -/
theorem implements_write (piece : Piece) : Slate.Implements piece.write (piece.put ·) := by
  cases piece with
  | plain item =>
      cases item with
      | value field v => exact .append (field.encode v)
      | raw bytes => exact .append bytes
  | checksum => exact .putChecksum

variable (piece : Piece) (slate : Slate)

/-- A piece is written as these bytes. -/
theorem write_eq : piece.write slate = Slate.append (piece.bytesOn slate) slate := by
  cases piece with
  | plain item =>
      cases item with
      | value field v =>
          show Slate.append (field.encode v) slate = Slate.append (field.bytes v) slate
          rw [field.encode_eq_bytes]
      | raw bytes => rfl
  | checksum =>
      let sum := Checksum.compute slate.written
      show Slate.append (Field.encode .u32 sum) slate = Slate.append (Field.bytes .u32 sum) slate
      rw [Field.encode_eq_bytes]

variable {piece slate}

theorem write_of_le (h : (piece.bytesOn slate).length ≤ slate.remaining) :
    piece.write slate = .ok () (slate.extend (piece.bytesOn slate) h) := by
  rw [write_eq, Slate.append, dif_pos h]

theorem write_of_lt (h : slate.remaining < (piece.bytesOn slate).length) :
    piece.write slate =
      .error (.bufferFull (piece.bytesOn slate).length slate.remaining) slate := by
  rw [write_eq, Slate.append, dif_neg (Nat.not_le.mpr h)]

theorem of_write_ok {after : Slate} (h : piece.write slate = .ok () after) :
    (piece.bytesOn slate).length ≤ slate.remaining ∧
      after.written = slate.written ++ piece.bytesOn slate := by
  obtain hlt | hle := Nat.lt_or_ge slate.remaining (piece.bytesOn slate).length
  · rw [write_of_lt hlt] at h
    cases h
  · rw [write_of_le hle] at h
    cases h
    exact ⟨hle, slate.toWriter_extend _ hle⟩

theorem of_write_error {fault : Error} {after : Slate}
    (h : piece.write slate = .error fault after) :
    slate.remaining < (piece.bytesOn slate).length ∧
      fault = .bufferFull (piece.bytesOn slate).length slate.remaining ∧
      after = slate := by
  obtain hlt | hle := Nat.lt_or_ge slate.remaining (piece.bytesOn slate).length
  · rw [write_of_lt hlt] at h
    cases h
    exact ⟨hlt, rfl, rfl⟩
  · rw [write_of_le hle] at h
    cases h

/-- What it comes to to write a piece on a slate. -/
structure Writes (piece : Piece) (slate : Slate) : Prop where
  /-- It is refused just in case fewer bytes are left than it takes. -/
  fails_iff : (∃ fault after, piece.write slate = .error fault after) ↔
    slate.remaining < (piece.bytesOn slate).length
  /-- Then it is told how many it takes and how many are left, and the slate stays as it was. -/
  refused : ∀ {fault after}, piece.write slate = .error fault after →
    fault = .bufferFull (piece.bytesOn slate).length slate.remaining ∧
      after = slate
  /-- So whatever would have fitted before still does. -/
  still_fits : ∀ {fault after}, piece.write slate = .error fault after → ∀ other : Piece,
    (other.bytesOn slate).length ≤ slate.remaining →
      ∃ later, other.write after = .ok () later
  /-- Otherwise its bytes, and nothing else, come behind those that were written before. -/
  appended : ∀ {after}, piece.write slate = .ok () after →
    after.written = slate.written ++ piece.bytesOn slate

theorem writes (piece : Piece) (slate : Slate) : piece.Writes slate where
  fails_iff := by
    constructor
    · rintro ⟨fault, after, h⟩
      exact (of_write_error h).1
    · intro h
      exact ⟨_, _, write_of_lt h⟩
  refused h := (of_write_error h).2
  still_fits h other hother := by
    obtain ⟨-, -, rfl⟩ := of_write_error h
    exact ⟨_, write_of_le hother⟩
  appended h := (of_write_ok h).2

end Piece

/-- What is done with a cursor. Of a failure there may be traces. -/
abbrev Reading (α : Type) := EStateM Error Cursor α

namespace Reading

/-- Reads `count` raw bytes. -/
def take (count : Nat) : Reading (List UInt8) := do
  let c ← get
  if c.remaining < count then throw (.truncated count c.remaining)
  else do
    set (c.advance count)
    return (c.buffer.drop c.position).take count

/-- Reads one field. -/
def field (field : Field) : Reading field.Value := do
  return field.decode (← take field.width)

/-- Reading with a cursor as a function does with a reader. -/
def Implements {α : Type} (reading : Reading α) (read : Reader → Except Error (α × Reader)) :
    Prop :=
  ∀ c, match reading c with
    | .ok a after => read (c.reader 0) = .ok (a, after.reader 0)
    | .error fault _ => read (c.reader 0) = .error fault

variable {α β : Type} {c after : Cursor}

theorem bind_of_ok {first : Reading α} {a : α} (h : first c = .ok a after)
    (next : α → Reading β) : (first >>= next) c = next a after := by
  simp only [bind, EStateM.bind, h]

theorem bind_of_error {first : Reading α} {fault : Error} (h : first c = .error fault after)
    (next : α → Reading β) : (first >>= next) c = .error fault after := by
  simp only [bind, EStateM.bind, h]

variable {count : Nat}

theorem take_of_lt (h : c.remaining < count) :
    take count c = .error (.truncated count c.remaining) c := by
  show (if c.remaining < count then (throw _ : Reading _) else _) c = _
  rw [if_pos h]
  rfl

theorem take_of_le (h : count ≤ c.remaining) :
    take count c = .ok ((c.buffer.drop c.position).take count) (c.advance count) := by
  show (if c.remaining < count then (throw _ : Reading _) else _) c = _
  rw [if_neg (Nat.not_lt.mpr h)]
  rfl

namespace Implements

/-- Nothing is read. -/
theorem done (a : α) : Implements (pure a) fun r => .ok (a, r) := fun _ => rfl

/-- One after the other. -/
theorem seq {first : Reading α} {next : α → Reading β}
    {read : Reader → Except Error (α × Reader)} {read' : α → Reader → Except Error (β × Reader)}
    (h : Implements first read) (h' : ∀ a, Implements (next a) (read' a)) :
    Implements (first >>= next) fun r => read r >>= fun found => read' found.1 found.2 := by
  intro c
  have hfirst := h c
  cases hresult : first c with
  | ok a after =>
      rw [hresult] at hfirst
      dsimp only at hfirst ⊢
      rw [bind_of_ok hresult, hfirst]
      exact h' a after
  | error fault after =>
      rw [hresult] at hfirst
      dsimp only at hfirst ⊢
      rw [bind_of_error hresult, hfirst]
      rfl

theorem take (count : Nat) : Implements (Reading.take count) (·.take count) := by
  intro c
  obtain hlt | hle := Nat.lt_or_ge c.remaining count
  · rw [take_of_lt hlt]
    show (c.reader 0).take count = _
    rw [Reader.take, c.remaining_reader, if_neg (Nat.not_le.mpr hlt)]
  · rw [take_of_le hle]
    show (c.reader 0).take count = _
    rw [Reader.take, c.remaining_reader, if_pos hle, c.reader_advance]
    rfl

end Implements

end Reading

namespace Shape

/-- Reads an item of a shape with a cursor. -/
def read : Shape → Reading Item
  | value field => do return .value field (← Reading.field field)
  | raw count => do return .raw (← Reading.take count)

/-- Reads an item of a shape with a reader. -/
def get (r : Reader) : Shape → Except Error (Item × Reader)
  | value field => do
    let (v, r) ← r.get field
    return (.value field v, r)
  | raw count => do
    let (bytes, r) ← r.take count
    return (.raw bytes, r)

/-- What is read are the bytes at the position, taken for an item of the shape. -/
theorem read_eq (shape : Shape) :
    shape.read = Reading.take shape.width >>= fun bytes => pure (shape.item bytes) := by
  cases shape with
  | value field =>
      rw [read, Reading.field, bind_assoc]
      simp only [pure_bind]
      rfl
  | raw count => rfl

theorem get_eq (shape : Shape) (r : Reader) :
    shape.get r = r.take shape.width >>= fun found => .ok (shape.item found.1, found.2) := by
  cases shape with
  | value field =>
      show (r.get field >>= fun found => .ok (Item.value field found.1, found.2)) =
        r.take field.width >>= _
      rw [Reader.get]
      cases r.take field.width <;> rfl
  | raw count => rfl

/-- With a cursor the same is read as with a reader. -/
theorem implements_read (shape : Shape) : Reading.Implements shape.read (shape.get ·) := by
  have h := (Reading.Implements.take shape.width).seq fun bytes => .done (shape.item bytes)
  rw [← shape.read_eq] at h
  simpa only [get_eq] using h

variable {shape : Shape} {c : Cursor}

theorem read_of_lt (h : c.remaining < shape.width) :
    shape.read c = .error (.truncated shape.width c.remaining) c := by
  rw [read_eq, Reading.bind_of_error (Reading.take_of_lt h)]

theorem read_of_le (h : shape.width ≤ c.remaining) :
    shape.read c =
      .ok (shape.item ((c.buffer.drop c.position).take shape.width)) (c.advance shape.width) := by
  rw [read_eq, Reading.bind_of_ok (Reading.take_of_le h)]
  rfl

theorem of_read_ok {item : Item} {after : Cursor} (h : shape.read c = .ok item after) :
    shape.width ≤ c.remaining ∧ item.shape = shape ∧
      item.bytes = (c.buffer.drop c.position).take shape.width ∧
      after = c.advance shape.width := by
  obtain hlt | hle := Nat.lt_or_ge c.remaining shape.width
  · rw [read_of_lt hlt] at h
    cases h
  · rw [read_of_le hle] at h
    cases h
    have hlength : ((c.buffer.drop c.position).take shape.width).length = shape.width := by
      rw [List.length_take, List.length_drop]
      exact Nat.min_eq_left hle
    exact ⟨hle, shape_item hlength, bytes_item hlength, rfl⟩

theorem of_read_error {fault : Error} {after : Cursor} (h : shape.read c = .error fault after) :
    c.remaining < shape.width ∧ fault = .truncated shape.width c.remaining ∧ after = c := by
  obtain hlt | hle := Nat.lt_or_ge c.remaining shape.width
  · rw [read_of_lt hlt] at h
    cases h
    exact ⟨hlt, rfl, rfl⟩
  · rw [read_of_le hle] at h
    cases h

/-- What it comes to to read an item of a shape with a cursor. -/
structure Reads (shape : Shape) (c : Cursor) : Prop where
  /-- It fails just in case fewer bytes remain than it takes. -/
  fails_iff : (∃ fault after, shape.read c = .error fault after) ↔ c.remaining < shape.width
  /-- Then it is told how many it takes and how many remain, and the cursor is not moved. -/
  refused : ∀ {fault after}, shape.read c = .error fault after →
    fault = .truncated shape.width c.remaining ∧ after = c
  /-- Otherwise an item of the shape is found, of which the bytes are those at the position, and the
  cursor is moved behind them. -/
  found : ∀ {item after}, shape.read c = .ok item after →
    item.shape = shape ∧ item.bytes = (c.buffer.drop c.position).take shape.width ∧
      after = c.advance shape.width

theorem reads (shape : Shape) (c : Cursor) : shape.Reads c where
  fails_iff := by
    constructor
    · rintro ⟨fault, after, h⟩
      exact (of_read_error h).1
    · intro h
      exact ⟨_, _, read_of_lt h⟩
  refused h := (of_read_error h).2
  found h := (of_read_ok h).2

end Shape

/-- Reads items with a reader one after another. -/
def Reader.getEach (r : Reader) : List Shape → Except Error (List Item × Reader)
  | [] => .ok ([], r)
  | shape :: rest => do
    let (item, r) ← shape.get r
    let (items, r) ← r.getEach rest
    return (item :: items, r)

namespace Reading

/-- Reads one item after another. -/
def each : List Shape → Reading (List Item)
  | [] => return []
  | shape :: rest => do
    let item ← shape.read
    return item :: (← each rest)

theorem implements_each (shapes : List Shape) :
    Implements (each shapes) (Reader.getEach · shapes) := by
  induction shapes with
  | nil => exact .done []
  | cons shape rest ih =>
      exact shape.implements_read.seq fun item => ih.seq fun items => .done (item :: items)

/-- Items are read one after another from their bytes. -/
theorem each_of_bytes (items : List Item) {c : Cursor} {rest : List UInt8}
    (h : c.buffer.drop c.position = items.flatMap Item.bytes ++ rest) :
    each (items.map Item.shape) c = .ok items (c.advance (items.flatMap Item.bytes).length) := by
  induction items generalizing c with
  | nil => rfl
  | cons item items ih =>
      rw [List.flatMap_cons, List.append_assoc] at h
      have hwidth := item.length_bytes
      have hle : item.shape.width ≤ c.remaining := by
        have hlength := congrArg List.length h
        rw [List.length_drop, List.length_append, hwidth] at hlength
        exact Nat.le.intro hlength.symm
      have hread : item.shape.read c = .ok item (c.advance item.shape.width) := by
        rw [Shape.read_of_le hle, h, ← hwidth, List.take_left, item.item_bytes]
      have hrest := ih (c := c.advance item.shape.width) (by
        rw [← hwidth]
        simp only [Cursor.advance, ← List.drop_drop, h, List.drop_left])
      rw [List.map_cons, each, bind_of_ok hread, bind_of_ok hrest, List.flatMap_cons,
        List.length_append, hwidth]
      simp only [Cursor.advance, Nat.add_assoc]
      rfl

end Reading

/-- Tries to write pieces in a writer one after another, and goes on with the same writer if one is
refused. -/
def Writer.putEach (w : Writer) : List Piece → List (Except Error Unit) × Writer
  | [] => ([], w)
  | piece :: rest =>
    match piece.put w with
    | .ok w => let others := w.putEach rest; (.ok () :: others.1, others.2)
    | .error fault => let others := w.putEach rest; (.error fault :: others.1, others.2)

namespace Slate

/-- A piece that was to be written, its item at that time, and what came of it. -/
structure Entry where
  piece : Piece
  item : Item
  result : Except Error Unit

/-- Entries in the order of the writes. -/
abbrev Transcript := List Entry

/-- The item, if it was written. -/
def Entry.kept? (entry : Entry) : Option Item :=
  match entry.result with
  | .ok () => some entry.item
  | .error _ => none

namespace Transcript

/-- The items that were written. -/
def items (transcript : Transcript) : List Item := transcript.filterMap Entry.kept?

/-- The bytes that were written. -/
def bytes (transcript : Transcript) : List UInt8 := transcript.items.flatMap Item.bytes

theorem bytes_cons (entry : Entry) (transcript : Transcript) :
    bytes (entry :: transcript) = bytes [entry] ++ transcript.bytes := by
  rw [bytes, bytes, bytes, ← List.flatMap_append, items, items, items, ← List.filterMap_append]
  rfl

end Transcript

/-- Tries to write a piece. -/
def attempt (slate : Slate) (piece : Piece) : Entry × Slate :=
  let item := piece.itemAfter slate.written
  match piece.write slate with
  | .ok () after => (⟨piece, item, .ok ()⟩, after)
  | .error fault after => (⟨piece, item, .error fault⟩, after)

/-- Tries to write pieces one after another, whatever becomes of those before. -/
def attempts (slate : Slate) : List Piece → Transcript × Slate
  | [] => ([], slate)
  | piece :: rest =>
    let tried := slate.attempt piece
    let others := tried.2.attempts rest
    (tried.1 :: others.1, others.2)

theorem attempts_cons (slate : Slate) (piece : Piece) (rest : List Piece) :
    slate.attempts (piece :: rest) =
      ((slate.attempt piece).1 :: ((slate.attempt piece).2.attempts rest).1,
        ((slate.attempt piece).2.attempts rest).2) := rfl

/-- Whether an entry tells what comes of writing a piece behind some contents. -/
structure Entry.Follows (entry : Entry) (contents : List UInt8) : Prop where
  item : entry.item = entry.piece.itemAfter contents
  result : entry.result =
    if entry.item.bytes.length ≤ maxDatagram - contents.length then .ok ()
    else .error (.bufferFull entry.item.bytes.length (maxDatagram - contents.length))

/-- Whether a transcript tells what came of writing pieces one after another. -/
structure Transcript.Tells (transcript : Transcript) (pieces : List Piece) (start final : Slate) :
    Prop where
  /-- Every piece was tried in its turn. -/
  tried : transcript.map Entry.piece = pieces
  /-- Each came behind the items that had been written by then. -/
  follows : ∀ {before entry after}, transcript = before ++ entry :: after →
    entry.Follows (start.written ++ Transcript.bytes before)
  /-- The items that were written, and nothing else, are on the slate in the end. -/
  written : final.written = start.written ++ transcript.bytes
  /-- From their bytes just these items are read, and nothing is left over. -/
  read_back : ∃ finish, Reading.each (transcript.items.map Item.shape)
      ⟨final.written.drop start.written.length, 0⟩ = .ok transcript.items finish ∧
    finish.remaining = 0

theorem attempt_of_le {slate : Slate} {piece : Piece}
    (h : (piece.bytesOn slate).length ≤ slate.remaining) :
    slate.attempt piece =
      (⟨piece, piece.itemAfter slate.written, .ok ()⟩, slate.extend (piece.bytesOn slate) h) := by
  rw [attempt, Piece.write_of_le h]

theorem attempt_of_lt {slate : Slate} {piece : Piece}
    (h : slate.remaining < (piece.bytesOn slate).length) :
    slate.attempt piece =
      (⟨piece, piece.itemAfter slate.written,
        .error (.bufferFull (piece.bytesOn slate).length slate.remaining)⟩, slate) := by
  rw [attempt, Piece.write_of_lt h]

/-- A write leaves an entry, and on the slate what the entry says. -/
theorem attempt_follows (slate : Slate) (piece : Piece) :
    let entry := (slate.attempt piece).1
    entry.piece = piece ∧ entry.Follows slate.written ∧
      (slate.attempt piece).2.written = slate.written ++ Transcript.bytes [entry] := by
  have hremaining : maxDatagram - slate.written.length = slate.remaining := by
    rw [slate.length_written, remaining]
  obtain hlt | hle := Nat.lt_or_ge slate.remaining (piece.bytesOn slate).length
  · rw [attempt_of_lt hlt]
    refine ⟨rfl, ⟨rfl, ?_⟩, (List.append_nil _).symm⟩
    rw [hremaining]
    exact (if_neg (Nat.not_le.mpr hlt)).symm
  · rw [attempt_of_le hle]
    refine ⟨rfl, ⟨rfl, ?_⟩, ?_⟩
    · rw [hremaining]
      exact (if_pos hle).symm
    · exact (slate.toWriter_extend _ hle).trans (congrArg _ (List.append_nil _).symm)

/-- So does one write after another. -/
theorem attempts_follow (slate : Slate) (pieces : List Piece) :
    let transcript := (slate.attempts pieces).1
    transcript.map Entry.piece = pieces ∧
      (slate.attempts pieces).2.written = slate.written ++ transcript.bytes ∧
      ∀ {before entry after}, transcript = before ++ entry :: after →
        entry.Follows (slate.written ++ Transcript.bytes before) := by
  induction pieces generalizing slate with
  | nil =>
      refine ⟨rfl, (List.append_nil _).symm, ?_⟩
      intro before entry after hsplit
      cases before <;> cases hsplit
  | cons piece rest ih =>
      obtain ⟨hpiece, hfollows, hwritten⟩ := slate.attempt_follows piece
      obtain ⟨hpieces, hfinal, hrest⟩ := ih (slate.attempt piece).2
      rw [hwritten, List.append_assoc, ← Transcript.bytes_cons] at hfinal
      rw [attempts_cons]
      refine ⟨congr (congrArg List.cons hpiece) hpieces, hfinal, ?_⟩
      intro before entry after hsplit
      cases before with
      | nil =>
          obtain ⟨rfl, -⟩ := List.cons.inj hsplit
          rw [show Transcript.bytes [] = [] from rfl, List.append_nil]
          exact hfollows
      | cons first before =>
          obtain ⟨rfl, hafter⟩ := List.cons.inj hsplit
          rw [Transcript.bytes_cons, ← List.append_assoc, ← hwritten]
          exact hrest hafter

/-- What comes of pieces is what comes of them in a writer, which has the same contents in the
end. -/
theorem putEach_toWriter (slate : Slate) (pieces : List Piece) :
    slate.toWriter.putEach pieces =
      ((slate.attempts pieces).1.map Entry.result, (slate.attempts pieces).2.toWriter) := by
  induction pieces generalizing slate with
  | nil => rfl
  | cons piece rest ih =>
      have hput := piece.implements_write slate
      obtain hlt | hle := Nat.lt_or_ge slate.remaining (piece.bytesOn slate).length
      · rw [Piece.write_of_lt hlt] at hput
        dsimp only at hput
        rw [Writer.putEach, hput, attempts_cons, attempt_of_lt hlt]
        simp only [ih, List.map_cons]
      · rw [Piece.write_of_le hle] at hput
        dsimp only at hput
        rw [Writer.putEach, hput, attempts_cons, attempt_of_le hle]
        simp only [ih, List.map_cons]

theorem attempts_tell (slate : Slate) (pieces : List Piece) :
    (slate.attempts pieces).1.Tells pieces slate (slate.attempts pieces).2 := by
  obtain ⟨htried, hwritten, hfollows⟩ := slate.attempts_follow pieces
  refine ⟨htried, hfollows, hwritten, ?_⟩
  let items := (slate.attempts pieces).1.items
  rw [hwritten, List.drop_left]
  have hread := Reading.each_of_bytes items (c := ⟨items.flatMap Item.bytes, 0⟩)
    (List.append_nil _).symm
  refine ⟨_, hread, ?_⟩
  simp [Cursor.remaining, Cursor.advance]

end Slate

/-- What is written is what was meant, and it is read back as that. Whatever a slate holds, a piece
is written on it as the bytes that its value has by their places, behind everything written before,
or else, and just in case these are more than what is left, it is refused with both numbers and the
slate stays as it was. So a transcript of any pieces, whatever their order and however many of them
are refused, tells what is on the slate in the end, and a reader that asks for what was written gets
just that and comes to the end. Likewise a read fails just in case it asks for more than what
remains, with both numbers, and leaves the reader where it was. All this holds of writers and
readers too, as the same is written and read with them. -/
theorem pieces_written_and_read :
    (∀ piece : Piece, Slate.Implements piece.write (piece.put ·) ∧ ∀ slate, piece.Writes slate) ∧
    (∀ (slate : Slate) (pieces : List Piece),
      let tried := slate.attempts pieces
      tried.1.Tells pieces slate tried.2 ∧
        slate.toWriter.putEach pieces =
          (tried.1.map Slate.Entry.result, tried.2.toWriter)) ∧
    (∀ shape : Shape, Reading.Implements shape.read (shape.get ·) ∧ ∀ c, shape.Reads c) ∧
    (∀ shapes : List Shape,
      Reading.Implements (Reading.each shapes) (Reader.getEach · shapes)) := by
  refine ⟨?_, ?_, ?_, Reading.implements_each⟩
  · intro piece
    exact ⟨piece.implements_write, piece.writes⟩
  · intro slate pieces
    exact ⟨slate.attempts_tell pieces, slate.putEach_toWriter pieces⟩
  · intro shape
    exact ⟨shape.implements_read, shape.reads⟩

/-- With three bytes left a word is refused, a shorter one is written, and there is no room for the
checksum any more. -/
example :
    let slate : Slate := ⟨List.replicate maxDatagram 0, 1021, List.length_replicate, by decide⟩
    let tried := slate.attempts [.plain (.value .i32 (-2)), .plain (.value .i16 (-2)), .checksum]
    tried.1.map Slate.Entry.result =
        [.error (.bufferFull 4 3), .ok (), .error (.bufferFull 4 1)] ∧
      tried.2.written.drop 1021 = [0xFE, 0xFF] :=
  ⟨rfl, by decide +kernel⟩

end Wire

end RoomRelay
