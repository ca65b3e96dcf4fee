import RoomRelay.Text.Numeral

/-!
# Settings documents

Settings are written as a TOML document without tables: one `key = value` to a line, where values
are integers and strings of any of TOML's spellings, blank lines, and comments. A document that
uses more of TOML than that can be no server's settings, since no setting is a table, an array, a
date, a boolean or a fraction; it is refused like one that is no TOML at all.

Readers take what they accept from the front of a text and return it with what is left.
-/

namespace RoomRelay

/-- The value of a setting. -/
inductive Setting
  | integer (value : Int)
  | text (value : String)
  deriving DecidableEq, Repr

/-- One line of a document. -/
structure Entry where
  key : String
  value : Setting
  deriving DecidableEq, Repr

namespace Document

/-- Whether a character separates words within a line. -/
def isBlank (c : Char) : Bool := c == ' ' || c == '\t'

/-- Whether a character may stand in a comment: a tab, or any that is no ASCII control. -/
def isPrintable (c : Char) : Bool := c == '\t' || (0x20 ≤ c.toNat && c.toNat ≠ 0x7F)

/-- Drops blanks. -/
def skipBlanks (text : List Char) : List Char := text.dropWhile isBlank

/-- Drops a line break, if the text starts with one. -/
def newline? : List Char → Option (List Char)
  | '\n' :: rest => some rest
  | '\r' :: '\n' :: rest => some rest
  | _ => none

/-- Drops what may follow a value on its line: blanks, a comment, and the line break. The last line
needs no break. -/
def lineTail? (text : List Char) : Option (List Char) :=
  let rest :=
    match skipBlanks text with
    | '#' :: comment => comment.dropWhile isPrintable
    | rest => rest
  if rest.isEmpty then some [] else newline? rest

/-- The character whose code is written in the first `count` hexadecimal digits of a text. -/
def scalar? (count : Nat) (text : List Char) : Option Char := do
  let digits := text.take count
  let n ← Numeral.read? 16 digits
  if digits.length = count ∧ (n < 0xD800 ∨ (0xDFFF < n ∧ n < 0x110000)) then some (Char.ofNat n)
  else none

/-- The character that follows a backslash stands for, and how many characters say so. -/
def escape? : List Char → Option (Char × Nat)
  | 'b' :: _ => some ('\x08', 1)
  | 't' :: _ => some ('\t', 1)
  | 'n' :: _ => some ('\n', 1)
  | 'f' :: _ => some ('\x0c', 1)
  | 'r' :: _ => some ('\r', 1)
  | '"' :: _ => some ('"', 1)
  | '\\' :: _ => some ('\\', 1)
  | 'u' :: rest => (scalar? 4 rest).map fun c => (c, 5)
  | 'U' :: rest => (scalar? 8 rest).map fun c => (c, 9)
  | _ => none

/-- How a string is delimited. -/
structure Quotes where
  mark : Char
  /-- Three marks on either side instead of one, and line breaks between them. -/
  multiline : Bool
  /-- Whether a backslash escapes. -/
  escapes : Bool
  deriving DecidableEq, Repr

/-- Ends a string whose next character is a mark. Up to two marks before the three that close a
string of several lines belong to the string. -/
def close? (quotes : Quotes) (text : List Char) : Option (List Char × List Char) :=
  if quotes.multiline then
    let marks := (text.takeWhile (· == quotes.mark)).length
    if marks < 3 then none
    else
      let inside := min (marks - 3) 2
      some (List.replicate inside quotes.mark, text.drop (inside + 3))
  else some ([], text.drop 1)

/-- The number of blanks and line breaks at the front of a text. -/
def blankLength : List Char → Nat
  | '\n' :: rest => blankLength rest + 1
  | '\r' :: '\n' :: rest => blankLength rest + 2
  | c :: rest => if isBlank c then blankLength rest + 1 else 0
  | [] => 0

/-- Reads the rest of a string up to and including its closing marks. The first `skip` characters
have been accounted for already. A backslash at the end of a line takes the break and all blank
space after it away. -/
def stringTail? (quotes : Quotes) (skip : Nat) : List Char → Option (List Char × List Char)
  | [] => none
  | c :: rest =>
    if 0 < skip then stringTail? quotes (skip - 1) rest
    else if c = quotes.mark then
      match close? quotes (c :: rest) with
      | some closed => some closed
      | none => (stringTail? quotes 0 rest).map fun (cs, rest) => (c :: cs, rest)
    else if quotes.escapes ∧ c = '\\' then
      if quotes.multiline ∧ (newline? (skipBlanks rest)).isSome then
        stringTail? quotes (blankLength rest) rest
      else
        match escape? rest with
        | none => none
        | some (c, taken) => (stringTail? quotes taken rest).map fun (cs, rest) => (c :: cs, rest)
    else if isPrintable c then
      (stringTail? quotes 0 rest).map fun (cs, rest) => (c :: cs, rest)
    else if quotes.multiline ∧ (newline? (c :: rest)).isSome then
      (stringTail? quotes (if c = '\r' then 1 else 0) rest).map fun (cs, rest) => ('\n' :: cs, rest)
    else none

/-- Reads a string after its opening marks. A line break right after three marks is dropped. -/
def stringBody? (quotes : Quotes) (text : List Char) : Option (String × List Char) :=
  let text := if quotes.multiline then (newline? text).getD text else text
  (stringTail? quotes 0 text).map fun (cs, rest) => (String.ofList cs, rest)

/-- Reads a string that stays on its line. -/
def lineString? : List Char → Option (String × List Char)
  | '"' :: rest => stringBody? { mark := '"', multiline := false, escapes := true } rest
  | '\'' :: rest => stringBody? { mark := '\'', multiline := false, escapes := false } rest
  | _ => none

/-- Reads a string of any kind. -/
def string? : List Char → Option (String × List Char)
  | '"' :: '"' :: '"' :: rest => stringBody? { mark := '"', multiline := true, escapes := true } rest
  | '\'' :: '\'' :: '\'' :: rest =>
    stringBody? { mark := '\'', multiline := true, escapes := false } rest
  | text => lineString? text

/-- The digits of a numeral in which single underscores may stand between digits. -/
def digits? (base : Nat) : List Char → Option (List Char)
  | [] => none
  | [c] => if Numeral.isDigit base c then some [c] else none
  | c :: '_' :: rest =>
    if Numeral.isDigit base c then (digits? base rest).map (c :: ·) else none
  | c :: rest => if Numeral.isDigit base c then (digits? base rest).map (c :: ·) else none

/-- A decimal numeral without leading zeros. -/
def decimal? (text : List Char) : Option Nat := do
  let digits ← digits? 10 text
  if digits.length = 1 ∨ digits.head? ≠ some '0' then some (Numeral.value 10 digits) else none

/-- An integer of 64 bits: hexadecimal, octal or binary without a sign, or decimal. -/
def integer? (text : List Char) : Option Int := do
  let value : Int ←
    match text with
    | '0' :: 'x' :: rest => (digits? 16 rest).map fun ds => Int.ofNat (Numeral.value 16 ds)
    | '0' :: 'o' :: rest => (digits? 8 rest).map fun ds => Int.ofNat (Numeral.value 8 ds)
    | '0' :: 'b' :: rest => (digits? 2 rest).map fun ds => Int.ofNat (Numeral.value 2 ds)
    | '+' :: rest => (decimal? rest).map Int.ofNat
    | '-' :: rest => (decimal? rest).map fun n => -Int.ofNat n
    | rest => (decimal? rest).map Int.ofNat
  if Int64.minValue.toInt ≤ value ∧ value ≤ Int64.maxValue.toInt then some value else none

/-- Whether a character may stand in the spelling of an integer. -/
def isIntegerChar (c : Char) : Bool := c.isAlphanum || c == '_' || c == '+' || c == '-'

/-- Reads a value. -/
def value? (text : List Char) : Option (Setting × List Char) :=
  match text with
  | '"' :: _ | '\'' :: _ => (string? text).map fun (s, rest) => (.text s, rest)
  | _ =>
    (integer? (text.takeWhile isIntegerChar)).map fun n =>
      (.integer n, text.dropWhile isIntegerChar)

/-- Whether a character may stand in a key without quotes. -/
def isKeyChar (c : Char) : Bool := c.isAlphanum || c == '_' || c == '-'

/-- Reads a key. -/
def key? (text : List Char) : Option (String × List Char) :=
  match text with
  | '"' :: _ | '\'' :: _ => lineString? text
  | _ =>
    let name := text.takeWhile isKeyChar
    if name.isEmpty then none else some (String.ofList name, text.dropWhile isKeyChar)

/-- Reads a key, its value, and the rest of their line. -/
def entry? (text : List Char) : Option (Entry × List Char) := do
  let (key, text) ← key? text
  match skipBlanks text with
  | '=' :: text =>
    let (value, text) ← value? (skipBlanks text)
    let text ← lineTail? text
    return ({ key, value }, text)
  | _ => none

/-- Reads up to `lines` lines, and fails if that is not all of the text. -/
def entries? : (lines : Nat) → List Char → Option (List Entry)
  | 0, _ => none
  | lines + 1, text =>
    match skipBlanks text with
    | [] => some []
    | '#' :: comment => lineTail? ('#' :: comment) >>= entries? lines
    | '\n' :: rest => entries? lines rest
    | '\r' :: rest => newline? ('\r' :: rest) >>= entries? lines
    | text => do
      let (entry, rest) ← entry? text
      let entries ← entries? lines rest
      return entry :: entries

/-- Reads a document. A byte order mark before it is dropped, and no key may come twice. -/
def parse? (text : String) : Option (List Entry) := do
  let chars :=
    match text.toList with
    | '\uFEFF' :: chars => chars
    | chars => chars
  let entries ← entries? (chars.length + 1) chars
  if (entries.map Entry.key).Nodup then some entries else none

end Document

end RoomRelay
