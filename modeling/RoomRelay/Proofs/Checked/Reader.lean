import RoomRelay.Proofs.Checked.Basic
import RoomRelay.Wire.Record

/-!
# Checked reading

A reader of the library holds the bytes that are left. A cursor holds the whole buffer and a
position in it, and every read takes a stretch of the buffer. A format is guarded if it can be read
from a cursor with all stretches checked; every format that is put together from fields is, by the
same construction. The position is that in the buffer, which need not be the position in the
datagram that the buffer was cut from.
-/

namespace RoomRelay.Wire

/-- A result of reading, unless the bytes are refused, or the first fault on the way to either. -/
abbrev Parse (α : Type) := ExceptT Error Checked α

namespace Parse

variable {α β : Type}

/-- A result, or a refusal, that is reached without a fault. -/
def done (result : Except Error α) : Parse α := ExceptT.mk (.ok result)

theorem run_done (result : Except Error α) : (done result).run = .ok result := rfl

@[simp] theorem done_ok_bind (a : α) (next : α → Parse β) : (done (.ok a) >>= next) = next a :=
  rfl

@[simp] theorem lift_ok_bind (a : α) (next : α → Parse β) :
    ((liftM (Except.ok a : Checked α) : Parse α) >>= next) = next a := rfl

/-- Steps that meet no fault are taken one after another. -/
theorem done_bind (result : Except Error α) (next : α → Except Error β) :
    done (result >>= next) = done result >>= fun a => done (next a) := by
  cases result <;> rfl

/-- A result is wrapped without a fault if it is reached without one. -/
theorem map_of_eq_done {parse : Parse α} {result : Except Error α} (wrap : α → β)
    (h : parse = done result) : wrap <$> parse = done (result.map wrap) := by
  rw [h]
  cases result <;> rfl

theorem throw_eq_done (e : Error) : (throw e : Parse α) = done (.error e) := rfl

end Parse

/-- A position in a buffer. -/
structure Cursor where
  buffer : List UInt8
  position : Nat
  deriving DecidableEq, Repr

namespace Cursor

/-- The number of bytes from the position on. -/
def remaining (c : Cursor) : Nat := c.buffer.length - c.position

/-- The cursor some bytes further on. -/
def advance (c : Cursor) (count : Nat) : Cursor := { c with position := c.position + count }

/-- Reads `count` raw bytes. -/
def take (c : Cursor) (count : Nat) : Parse (List UInt8 × Cursor) :=
  if c.remaining < count then throw (.truncated count c.remaining)
  else do
    let stop ← Checked.add c.position count
    let bytes ← Checked.slice c.buffer c.position stop
    return (bytes, { c with position := stop })

/-- Reads one field. -/
def get (c : Cursor) (field : Field) : Parse (field.Value × Cursor) := do
  let (bytes, c) ← c.take field.width
  return (field.decode bytes, c)

/-- Reads the tag of the expected kind. -/
def expect (c : Cursor) (kind : Kind) : Parse Cursor := do
  let (actual, c) ← c.get .u8
  if actual = kind.tag then return c else throw (.unexpectedKind kind.tag actual)

/-- A cursor inside its buffer that can be moved on by some bytes, if they are there. -/
def Inside (c : Cursor) (count : Nat) : Prop :=
  c.position ≤ c.buffer.length ∧ c.position + count ≤ maxSize

/-- The reader at the same place in a datagram that has `offset` bytes before the buffer. -/
def reader (c : Cursor) (offset : Nat) : Reader :=
  ⟨offset + c.position, c.buffer.drop c.position⟩

theorem remaining_reader (c : Cursor) (offset : Nat) :
    (c.reader offset).remaining = c.remaining :=
  List.length_drop

theorem reader_advance (c : Cursor) (offset count : Nat) :
    (c.advance count).reader offset =
      ⟨(c.reader offset).position + count, (c.reader offset).rest.drop count⟩ := by
  simp only [reader, advance, List.drop_drop, Nat.add_assoc]

/-- Bytes are taken as a reader takes them. -/
theorem take_eq {c : Cursor} {count : Nat} (h : c.Inside count) (offset : Nat) :
    c.take count =
      .done (((c.reader offset).take count).map fun found => (found.1, c.advance count)) := by
  rw [take, Reader.take, remaining_reader]
  split
  · next hshort => rw [if_neg (Nat.not_le.mpr hshort), Parse.throw_eq_done]; rfl
  · next hshort =>
    have hle := Nat.not_lt.mp hshort
    obtain ⟨hposition, hmax⟩ := h
    have hstop : c.position + count ≤ c.buffer.length := by
      simp only [remaining] at hle
      omega
    rw [if_pos hle, Checked.add_of_le hmax, Parse.lift_ok_bind,
      Checked.slice_of_le (Nat.le_add_right _ _) hstop, Parse.lift_ok_bind, List.drop_take,
      Nat.add_sub_cancel_left]
    rfl

theorem get_eq {c : Cursor} {field : Field} (h : c.Inside field.width) (offset : Nat) :
    c.get field =
      .done (((c.reader offset).get field).map fun found =>
        (found.1, c.advance field.width)) := by
  rw [get, take_eq h offset, Reader.get]
  cases (c.reader offset).take field.width <;> rfl

theorem expect_eq {c : Cursor} (h : c.Inside 1) (offset : Nat) (kind : Kind) :
    c.expect kind = .done (((c.reader offset).expect kind).map fun _ => c.advance 1) := by
  have hget := get_eq (show c.Inside (Field.width .u8) from h) offset
  rw [expect, hget, Reader.expect]
  cases (c.reader offset).get .u8 with
  | error e => rfl
  | ok found =>
      simp only [Except.map, Parse.done_ok_bind]
      split <;> rfl

end Cursor

namespace Format

variable {α β : Type}

/-- A format that can be read from a cursor with every stretch of the buffer checked, and is read
as from a reader. -/
class Guarded (format : Format α) where
  read : Cursor → Parse (α × Cursor)
  read_eq : ∀ {c : Cursor}, c.Inside format.width → ∀ offset,
    read c = .done ((format.read (c.reader offset)).map fun found =>
      (found.1, c.advance format.width))

/-- Where a reader stands after a value was read, and the cursor with it. -/
theorem reader_of_read {format : Format α} {c : Cursor} {offset : Nat} {a : α} {r : Reader}
    (h : format.read (c.reader offset) = .ok (a, r)) :
    r = (c.advance format.width).reader offset ∧
      (c.position ≤ c.buffer.length → c.position + format.width ≤ c.buffer.length) := by
  obtain ⟨hrest, hposition⟩ := format.of_read h
  have hwidth := format.length_encode a
  constructor
  · rw [c.reader_advance, hrest, ← hwidth, List.drop_left, hwidth, ← hposition]
  · intro hinside
    have hlength := congrArg List.length hrest
    simp only [Cursor.reader, List.length_drop, List.length_append, hwidth] at hlength
    omega

/-- What is left of two stretches once the first was read. -/
theorem inside_of_read {format : Format α} {c : Cursor} {offset count : Nat} {a : α} {r : Reader}
    (h : format.read (c.reader offset) = .ok (a, r)) (hinside : c.Inside (format.width + count)) :
    (c.advance format.width).Inside count := by
  obtain ⟨hposition, hmax⟩ := hinside
  refine ⟨(reader_of_read h).2 hposition, ?_⟩
  simp only [Cursor.advance]
  omega

theorem map_read_list (x : Format α) (count : Nat) (r : Reader) :
    ((x.list count).read r).map (fun found => (found.1.val, found.2)) = readList x count r := by
  simp only [list]
  split <;> exact Eq.symm ‹_›

/-- Rows are read alike if the same lists are read. -/
theorem row_ext {count : Nat}
    {first second : Except Error ({ as : List α // as.length = count } × Reader)}
    (h : first.map (fun found => (found.1.val, found.2)) =
      second.map fun found => (found.1.val, found.2)) : first = second := by
  cases first with
  | error e => cases second <;> cases h; rfl
  | ok found =>
      cases second with
      | error e => cases h
      | ok other =>
          obtain ⟨⟨as, has⟩, r⟩ := found
          obtain ⟨⟨bs, hbs⟩, r'⟩ := other
          simp only [Except.map, Except.ok.injEq, Prod.mk.injEq] at h
          obtain ⟨rfl, rfl⟩ := h
          rfl

/-- A row with one more value is that value and a row. -/
theorem read_list_succ (x : Format α) (count : Nat) (r : Reader) :
    (x.list (count + 1)).read r =
      ((x.pair (x.list count)).read r).map fun found =>
        (⟨found.1.1 :: found.1.2.val, congrArg (· + 1) found.1.2.property⟩, found.2) := by
  apply row_ext
  rw [map_read_list, readList]
  simp only [pair, readPair]
  cases x.read r with
  | error e => rfl
  | ok found =>
      simp only [← x.map_read_list count found.2]
      cases (x.list count).read found.2 <;> rfl

namespace Guarded

variable {x : Format α} {y : Format β}

theorem inside_left {c : Cursor} {left right : Nat} (h : c.Inside (left + right)) :
    c.Inside left :=
  ⟨h.1, by have := h.2; omega⟩

/-- A field is read with one stretch. -/
@[reducible] def ofField (field : Field) : Guarded (Format.field field) where
  read c := c.get field
  read_eq h offset := Cursor.get_eq h offset

instance : Guarded (Format.field .u8) := ofField .u8

instance : Guarded (Format.field .i8) := ofField .i8

instance : Guarded (Format.field .u16) := ofField .u16

instance : Guarded (Format.field .i16) := ofField .i16

instance : Guarded (Format.field .u32) := ofField .u32

instance : Guarded (Format.field .i32) := ofField .i32

instance : Guarded (Format.field .u64) := ofField .u64

instance {size : Nat} : Guarded (Format.field (.block size)) := ofField (.block size)

instance pair [Guarded x] [Guarded y] : Guarded (x.pair y) where
  read c := do
    let (a, c) ← read x c
    let (b, c) ← read y c
    return ((a, b), c)
  read_eq {c} h offset := by
    rw [read_eq (inside_left h) offset]
    simp only [Format.pair, readPair]
    cases hx : x.read (c.reader offset) with
    | error e => rfl
    | ok found =>
        obtain ⟨a, r⟩ := found
        obtain ⟨hr, -⟩ := reader_of_read hx
        simp only [Except.map, Parse.done_ok_bind]
        rw [read_eq (inside_of_read hx h) offset, ← hr]
        cases y.read r with
        | error e => rfl
        | ok found =>
            simp only [Except.map, Parse.done_ok_bind, Cursor.advance, Nat.add_assoc]
            rfl

instance refine [Guarded x] {check : α → Except Error β} {forget : β → α}
    {check_eq_ok : ∀ a b, check a = .ok b ↔ forget b = a} :
    Guarded (x.refine check forget check_eq_ok) where
  read c := do
    let (a, c) ← read x c
    let b ← Parse.done (check a)
    return (b, c)
  read_eq {c} h offset := by
    have hx := read_eq (show c.Inside x.width from h) offset
    rw [hx]
    simp only [Format.refine, readRefined]
    cases x.read (c.reader offset) with
    | error e => rfl
    | ok found =>
        simp only [Except.map, Parse.done_ok_bind]
        cases check found.1 <;> rfl

instance map [Guarded x] {forth : α → β} {back : β → α} {back_forth : ∀ a, back (forth a) = a}
    {forth_back : ∀ b, forth (back b) = b} : Guarded (x.map forth back back_forth forth_back) :=
  refine

/-- A number of values in a row, each read after the one before. -/
@[reducible] def row (x : Format α) [Guarded x] : (count : Nat) → Guarded (x.list count)
  | 0 =>
    { read := fun c => return (⟨[], rfl⟩, c)
      read_eq := fun {c} _ offset => by
        have hread : (x.list 0).read (c.reader offset) = .ok (⟨[], rfl⟩, c.reader offset) := rfl
        rw [hread]
        simp only [Except.map, Format.list, Nat.zero_mul]
        rfl }
  | count + 1 =>
    letI := row x count
    { read := fun c => do
        let ((a, as), c) ← read (x.pair (x.list count)) c
        return (⟨a :: as.val, congrArg (· + 1) as.property⟩, c)
      read_eq := fun {c} h offset => by
        have hwidth : (x.list (count + 1)).width = (x.pair (x.list count)).width := by
          simp only [Format.list, Format.pair, Nat.succ_mul, Nat.add_comm]
        rw [hwidth] at h ⊢
        rw [read_eq h offset, read_list_succ]
        cases (x.pair (x.list count)).read (c.reader offset) <;> rfl }

instance list [Guarded x] {count : Nat} : Guarded (x.list count) := row x count

instance vector [Guarded x] {count : Nat} : Guarded (x.vector count) := map

end Guarded

end Format

end RoomRelay.Wire
