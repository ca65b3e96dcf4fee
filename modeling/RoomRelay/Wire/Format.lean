import RoomRelay.Wire.Reader

/-!
# Formats

A format says how the values of a type are laid out as bytes of a fixed width. Formats are built
from fields by putting one after another, by repetition, and by renaming the values; a status
byte shows that reading may refuse bytes that no value has.

The three laws that a format carries make it exact: its bytes have its width, reading what was
written gives the value back, and whatever can be read is what writing that value produces. Every
record of the protocol inherits them.
-/

namespace RoomRelay.Wire

/-- A layout of the values of a type as bytes of one width. -/
structure Format (α : Type) where
  /-- The number of bytes. -/
  width : Nat
  /-- The bytes of a value. -/
  encode : α → List UInt8
  /-- Reads a value at the reader's position. -/
  read : Reader → Except Error (α × Reader)
  length_encode : ∀ a, (encode a).length = width
  read_encode : ∀ a position rest,
    read ⟨position, encode a ++ rest⟩ = .ok (a, ⟨position + width, rest⟩)
  of_read : ∀ {r a r'}, read r = .ok (a, r') →
    r.rest = encode a ++ r'.rest ∧ r'.position = r.position + width

namespace Reader

theorem take_append (position : Nat) (bytes rest : List UInt8) :
    take ⟨position, bytes ++ rest⟩ bytes.length = .ok (bytes, ⟨position + bytes.length, rest⟩) := by
  simp [take, remaining]

theorem of_take {r r' : Reader} {count : Nat} {bytes : List UInt8}
    (h : r.take count = .ok (bytes, r')) :
    r.rest = bytes ++ r'.rest ∧ r'.position = r.position + count ∧ bytes.length = count := by
  unfold take at h
  split at h
  · next hle =>
    simp only [Except.ok.injEq, Prod.mk.injEq] at h
    obtain ⟨rfl, rfl⟩ := h
    exact ⟨(List.take_append_drop count r.rest).symm, rfl, List.length_take_of_le hle⟩
  · cases h

theorem get_encode (field : Field) (v : field.Value) (position : Nat) (rest : List UInt8) :
    get ⟨position, field.encode v ++ rest⟩ field = .ok (v, ⟨position + field.width, rest⟩) := by
  have h := take_append position (field.encode v) rest
  rw [Field.length_encode] at h
  simp [get, h]

theorem of_get {r r' : Reader} {field : Field} {v : field.Value} (h : r.get field = .ok (v, r')) :
    r.rest = field.encode v ++ r'.rest ∧ r'.position = r.position + field.width := by
  unfold get at h
  split at h
  · next bytes r'' htake =>
    simp only [Except.ok.injEq, Prod.mk.injEq] at h
    obtain ⟨rfl, rfl⟩ := h
    obtain ⟨hrest, hposition, hlength⟩ := of_take htake
    exact ⟨by rw [Field.encode_decode field hlength, hrest], hposition⟩
  · cases h

end Reader

namespace Format

variable {α β : Type}

/-- One field. -/
def field (f : Field) : Format f.Value where
  width := f.width
  encode := f.encode
  read r := r.get f
  length_encode := f.length_encode
  read_encode v position rest := Reader.get_encode f v position rest
  of_read h := Reader.of_get h

/-- Reads with one format and then with another. -/
def readPair (x : Format α) (y : Format β) (r : Reader) : Except Error ((α × β) × Reader) :=
  match x.read r with
  | .error e => .error e
  | .ok (a, r) =>
    match y.read r with
    | .error e => .error e
    | .ok (b, r) => .ok ((a, b), r)

/-- One value after another. -/
def pair (x : Format α) (y : Format β) : Format (α × β) where
  width := x.width + y.width
  encode v := x.encode v.1 ++ y.encode v.2
  read := readPair x y
  length_encode v := by simp [x.length_encode, y.length_encode]
  read_encode v position rest := by
    simp [readPair, x.read_encode, y.read_encode, Nat.add_assoc]
  of_read {r v r'} h := by
    unfold readPair at h
    split at h
    · cases h
    · next a r₁ hx =>
      split at h
      · cases h
      · next b r₂ hy =>
        simp only [Except.ok.injEq, Prod.mk.injEq] at h
        obtain ⟨rfl, rfl⟩ := h
        obtain ⟨hx₁, hx₂⟩ := x.of_read hx
        obtain ⟨hy₁, hy₂⟩ := y.of_read hy
        exact ⟨by rw [hx₁, hy₁, List.append_assoc], by omega⟩

/-- Reads with a format and passes the value through a check. -/
def readRefined (x : Format α) (check : α → Except Error β) (r : Reader) :
    Except Error (β × Reader) :=
  match x.read r with
  | .error e => .error e
  | .ok (a, r) =>
    match check a with
    | .error e => .error e
    | .ok b => .ok (b, r)

/-- The same bytes for the values that a check lets through. -/
def refine (x : Format α) (check : α → Except Error β) (forget : β → α)
    (check_eq_ok : ∀ a b, check a = .ok b ↔ forget b = a) : Format β where
  width := x.width
  encode b := x.encode (forget b)
  read := readRefined x check
  length_encode b := x.length_encode (forget b)
  read_encode b position rest := by
    simp [readRefined, x.read_encode, (check_eq_ok (forget b) b).2 rfl]
  of_read {r b r'} h := by
    unfold readRefined at h
    split at h
    · cases h
    · next a r₁ hx =>
      split at h
      · cases h
      · next b' hb =>
        simp only [Except.ok.injEq, Prod.mk.injEq] at h
        obtain ⟨rfl, rfl⟩ := h
        rw [(check_eq_ok a b').1 hb]
        exact x.of_read hx

/-- The same bytes for a type in bijection with the values. -/
def map (x : Format α) (forth : α → β) (back : β → α) (back_forth : ∀ a, back (forth a) = a)
    (forth_back : ∀ b, forth (back b) = b) : Format β :=
  x.refine (fun a => .ok (forth a)) back fun a b =>
    ⟨fun h => by cases h; exact back_forth a, fun h => by rw [← h, forth_back]⟩

/-- Reads a number of values in a row. -/
def readList (x : Format α) : Nat → Reader → Except Error (List α × Reader)
  | 0, r => .ok ([], r)
  | count + 1, r =>
    match x.read r with
    | .error e => .error e
    | .ok (a, r) =>
      match readList x count r with
      | .error e => .error e
      | .ok (as, r) => .ok (a :: as, r)

theorem readList_encode (x : Format α) (as : List α) (position : Nat) (rest : List UInt8) :
    readList x as.length ⟨position, as.flatMap x.encode ++ rest⟩ =
      .ok (as, ⟨position + as.length * x.width, rest⟩) := by
  induction as generalizing position with
  | nil => simp [readList]
  | cons a as ih =>
    simp only [List.length_cons, readList, List.flatMap_cons, List.append_assoc, x.read_encode, ih]
    simp only [Except.ok.injEq, Prod.mk.injEq, true_and, Reader.mk.injEq, and_true]
    rw [Nat.succ_mul]
    omega

theorem of_readList {x : Format α} {count : Nat} {r r' : Reader} {as : List α}
    (h : readList x count r = .ok (as, r')) :
    r.rest = as.flatMap x.encode ++ r'.rest ∧ r'.position = r.position + count * x.width ∧
      as.length = count := by
  induction count generalizing r as with
  | zero =>
    simp only [readList, Except.ok.injEq, Prod.mk.injEq] at h
    obtain ⟨rfl, rfl⟩ := h
    simp
  | succ count ih =>
    unfold readList at h
    split at h
    · cases h
    · next a r₁ hx =>
      split at h
      · cases h
      · next as' r₂ hrest =>
        simp only [Except.ok.injEq, Prod.mk.injEq] at h
        obtain ⟨rfl, rfl⟩ := h
        obtain ⟨hx₁, hx₂⟩ := x.of_read hx
        obtain ⟨h₁, h₂, h₃⟩ := ih hrest
        refine ⟨by rw [hx₁, h₁]; simp, ?_, by simp [h₃]⟩
        rw [h₂, hx₂, Nat.succ_mul]
        omega

theorem length_flatMap_encode (x : Format α) (as : List α) :
    (as.flatMap x.encode).length = as.length * x.width := by
  induction as with
  | nil => simp
  | cons a as ih => simp [x.length_encode, ih, Nat.succ_mul, Nat.add_comm]

/-- The values of exactly `count` in a row as lists of that length. -/
def list (x : Format α) (count : Nat) : Format { as : List α // as.length = count } where
  width := count * x.width
  encode as := as.val.flatMap x.encode
  read r :=
    match h : readList x count r with
    | .error e => .error e
    | .ok (as, r') => .ok (⟨as, (of_readList h).2.2⟩, r')
  length_encode as := by rw [length_flatMap_encode, as.property]
  read_encode as position rest := by
    obtain ⟨as, rfl⟩ := as
    split
    · next h => rw [readList_encode] at h; cases h
    · next h =>
      rw [readList_encode] at h
      simp only [Except.ok.injEq, Prod.mk.injEq] at h
      obtain ⟨rfl, rfl⟩ := h
      rfl
  of_read {r as r'} h := by
    split at h
    · cases h
    · next hread =>
      simp only [Except.ok.injEq, Prod.mk.injEq] at h
      obtain ⟨rfl, rfl⟩ := h
      obtain ⟨h₁, h₂, _⟩ := of_readList hread
      exact ⟨h₁, h₂⟩

/-- A number of values in a row. -/
def vector (x : Format α) (count : Nat) : Format (Vector α count) :=
  (x.list count).map (fun as => ⟨as.val.toArray, by simp [as.property]⟩)
    (fun v => ⟨v.toList, v.length_toList⟩)
    (fun _ => rfl) (fun _ => by simp [Vector.toList])

end Format

end RoomRelay.Wire
