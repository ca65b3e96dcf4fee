/-!
# Numerals

Unsigned numbers written in ASCII digits of some base. A numeral has at least one digit; leading
zeros are allowed here, and the formats that refuse them say so themselves.
-/

namespace RoomRelay.Numeral

/-- The value of an ASCII digit or letter as a digit of `base`. -/
def digitValue? (base : Nat) (c : Char) : Option Nat :=
  let value :=
    if '0' ≤ c ∧ c ≤ '9' then c.toNat - '0'.toNat
    else if 'a' ≤ c ∧ c ≤ 'z' then c.toNat - 'a'.toNat + 10
    else if 'A' ≤ c ∧ c ≤ 'Z' then c.toNat - 'A'.toNat + 10
    else base
  if value < base then some value else none

/-- Whether a character is a digit of `base`. -/
def isDigit (base : Nat) (c : Char) : Bool :=
  (digitValue? base c).isSome

/-- The value of a list of digits, most significant first; what is no digit counts as zero. -/
def value (base : Nat) (digits : List Char) : Nat :=
  digits.foldl (fun n c => base * n + (digitValue? base c).getD 0) 0

/-- Reads a non-empty list of digits and nothing else. -/
def read? (base : Nat) (digits : List Char) : Option Nat :=
  if digits ≠ [] ∧ digits.all (isDigit base) then some (value base digits) else none

/-- Reads a decimal numeral below `bound` that may start with one plus sign. -/
def readSigned? (bound : Nat) (text : List Char) : Option Nat :=
  let digits := match text with
    | '+' :: digits => digits
    | digits => digits
  (read? 10 digits).filter (· < bound)

end RoomRelay.Numeral
