import RoomRelay.Config.Basic

/-!
# Checked operations

The definitions of this library are total where a machine is not: a position outside a table is
passed over, a difference stops at zero, and a count has no largest value. The checked operations
here fail in these cases, with a fault that tells what was asked for. What is built from them and
gives a result without a fault therefore stays within its tables, and its counts within a word; the
definition that it is equal to does so as well.
-/

namespace RoomRelay

/-- What cannot be done. -/
inductive Fault
  /-- A position lies outside a table. -/
  | index (position size : Nat)
  /-- A stretch from one position up to another does not lie inside a table. -/
  | range (start stop size : Nat)
  /-- A sum, a difference or a product is no number of a word. -/
  | sum (a b : Nat)
  | difference (a b : Nat)
  | product (a b : Nat)
  deriving DecidableEq, Repr

/-- A result, or the first fault on the way to it. -/
abbrev Checked (α : Type) := Except Fault α

namespace Checked

variable {α β : Type}

/-- Adds numbers of which the sum is to fit a word. -/
def add (a b : Nat) : Checked Nat := if a + b ≤ maxSize then .ok (a + b) else .error (.sum a b)

/-- Subtracts a number from one that is to be no smaller. -/
def sub (a b : Nat) : Checked Nat := if b ≤ a then .ok (a - b) else .error (.difference a b)

/-- Multiplies numbers of which the product is to fit a word. -/
def mul (a b : Nat) : Checked Nat := if a * b ≤ maxSize then .ok (a * b) else .error (.product a b)

/-- Checks that a stretch from one position up to another lies inside a table. -/
def span (start stop size : Nat) : Checked Unit :=
  if start ≤ stop ∧ stop ≤ size then .ok () else .error (.range start stop size)

/-- The entry of a table at a position. -/
def get (cells : Array α) (position : Nat) : Checked α :=
  match cells[position]? with
  | some a => .ok a
  | none => .error (.index position cells.size)

/-- Replaces the entry of a table at a position. -/
def set (cells : Array α) (position : Nat) (a : α) : Checked (Array α) :=
  if position < cells.size then .ok (cells.setIfInBounds position a)
  else .error (.index position cells.size)

/-- The byte at a position. -/
def byte (bytes : List UInt8) (position : Nat) : Checked UInt8 :=
  match bytes[position]? with
  | some byte => .ok byte
  | none => .error (.index position bytes.length)

/-- The bytes from one position up to another. -/
def slice (bytes : List UInt8) (start stop : Nat) : Checked (List UInt8) := do
  span start stop bytes.length
  return (bytes.take stop).drop start

/-- Replaces one byte after another from a position on. -/
def write (buffer : List UInt8) (position : Nat) : List UInt8 → Checked (List UInt8)
  | [] => .ok buffer
  | byte :: rest =>
    if position < buffer.length then do
      let next ← add position 1
      write (buffer.set position byte) next rest
    else .error (.index position buffer.length)

@[simp] theorem ok_bind (a : α) (next : α → Checked β) : (Except.ok a >>= next) = next a := rfl

/-- A part of a result is reached without a fault if the result is. -/
theorem map_of_eq_ok {checked : Checked α} {a : α} (part : α → β) (h : checked = .ok a) :
    part <$> checked = .ok (part a) := by
  rw [h]
  rfl

theorem add_of_le {a b : Nat} (h : a + b ≤ maxSize) : add a b = .ok (a + b) := if_pos h

theorem sub_of_le {a b : Nat} (h : b ≤ a) : sub a b = .ok (a - b) := if_pos h

theorem mul_of_le {a b : Nat} (h : a * b ≤ maxSize) : mul a b = .ok (a * b) := if_pos h

theorem span_of_le {start stop size : Nat} (h : start ≤ stop) (hstop : stop ≤ size) :
    span start stop size = .ok () := if_pos ⟨h, hstop⟩

theorem get_of_getElem? {cells : Array α} {position : Nat} {a : α}
    (h : cells[position]? = some a) : get cells position = .ok a := by
  rw [get, h]

theorem set_of_lt {cells : Array α} {position : Nat} (h : position < cells.size) (a : α) :
    set cells position a = .ok (cells.setIfInBounds position a) := if_pos h

theorem byte_of_getElem? {bytes : List UInt8} {position : Nat} {found : UInt8}
    (h : bytes[position]? = some found) : byte bytes position = .ok found := by
  rw [byte, h]

theorem slice_of_le {bytes : List UInt8} {start stop : Nat} (h : start ≤ stop)
    (hstop : stop ≤ bytes.length) :
    slice bytes start stop = .ok ((bytes.take stop).drop start) := by
  rw [slice, span_of_le h hstop]
  rfl

/-- Bytes that are replaced one by one are replaced as a whole. -/
theorem write_of_le (bytes : List UInt8) {buffer : List UInt8} {start : Nat}
    (h : start + bytes.length ≤ buffer.length) (hmax : start + bytes.length ≤ maxSize) :
    write buffer start bytes =
      .ok (buffer.take start ++ bytes ++ buffer.drop (start + bytes.length)) := by
  induction bytes generalizing buffer start with
  | nil => simp [write]
  | cons byte rest ih =>
    simp only [List.length_cons] at h hmax
    have hlt : start < buffer.length := by omega
    have hnext : start + 1 ≤ maxSize := by omega
    have hrest : start + 1 + rest.length ≤ (buffer.set start byte).length := by
      rw [List.length_set]
      omega
    have htake : (buffer.set start byte).take (start + 1) = buffer.take start ++ [byte] := by
      rw [List.take_add_one, List.take_set_of_le (Nat.le_refl start),
        List.getElem?_set_self hlt]
      rfl
    have hdrop : (buffer.set start byte).drop (start + 1 + rest.length) =
        buffer.drop (start + (byte :: rest).length) := by
      rw [List.drop_set_of_lt (by omega), List.length_cons]
      congr 1
      omega
    rw [write, if_pos hlt, add_of_le hnext, ok_bind, ih hrest (by omega), htake, hdrop]
    simp only [List.append_assoc, List.cons_append, List.nil_append]

end Checked

end RoomRelay
