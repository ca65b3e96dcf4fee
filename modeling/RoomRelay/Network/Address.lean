import RoomRelay.Text.Numeral
import RoomRelay.Text.Hex

/-!
# Socket addresses

The text of a socket address is an IPv4 address, a colon and a port, or an IPv6 address in square
brackets, a colon and a port. Octets are decimal without leading zeros; the groups of an IPv6
address are one to four hexadecimal digits, `::` stands once for a run of zero groups, the last
two groups may be written as an IPv4 address, and a scope may follow after a percent sign. Ports
and scopes are decimal and may have leading zeros. Each reader takes what it accepts from the front
of the text and returns it with what is left.

Printing gives the canonical text: lower-case groups without leading zeros, the longest run of at
least two zero groups (the first of equals) as `::`, and IPv4-mapped addresses with their octets.
-/

namespace RoomRelay

/-- An IPv4 address. -/
abbrev IPv4 := Vector UInt8 4

/-- An IPv6 address. -/
abbrev IPv6 := Vector UInt16 8

/-- The address of a peer. -/
inductive SocketAddress
  | v4 (host : IPv4) (port : UInt16)
  | v6 (host : IPv6) (scope : UInt32) (port : UInt16)
  deriving DecidableEq, Repr

namespace SocketAddress

/-- The port of an address. -/
def port : SocketAddress → UInt16
  | v4 _ port => port
  | v6 _ _ port => port

/-- The same host at another port. -/
def withPort (address : SocketAddress) (port : UInt16) : SocketAddress :=
  match address with
  | v4 host _ => v4 host port
  | v6 host scope _ => v6 host scope port

/-- Drops an expected character. -/
def expect? (c : Char) : List Char → Option (List Char)
  | d :: rest => if d = c then some rest else none
  | [] => none

/-- Reads a numeral of any length below `bound`; leading zeros are allowed. -/
def number? (bound : Nat) (text : List Char) : Option (Nat × List Char) := do
  let digits := text.takeWhile (Numeral.isDigit 10)
  let n ← (Numeral.read? 10 digits).filter (· < bound)
  return (n, text.dropWhile (Numeral.isDigit 10))

/-- Reads a decimal number below 256 of at most three digits and without leading zeros. -/
def octet? (text : List Char) : Option (UInt8 × List Char) := do
  let digits := text.takeWhile (Numeral.isDigit 10)
  let n ← Numeral.read? 10 digits
  if digits.length ≤ 3 ∧ n < 256 ∧ (digits.length = 1 ∨ digits.head? ≠ some '0') then
    return (UInt8.ofNat n, text.dropWhile (Numeral.isDigit 10))
  else none

/-- Reads four octets separated by points. -/
def ipv4? (text : List Char) : Option (IPv4 × List Char) := do
  let (a, text) ← octet? text
  let (b, text) ← octet? (← expect? '.' text)
  let (c, text) ← octet? (← expect? '.' text)
  let (d, text) ← octet? (← expect? '.' text)
  return (#v[a, b, c, d], text)

/-- Reads one to four hexadecimal digits. -/
def group? (text : List Char) : Option (UInt16 × List Char) := do
  let digits := text.takeWhile (Numeral.isDigit 16)
  let n ← Numeral.read? 16 digits
  if digits.length ≤ 4 then return (UInt16.ofNat n, text.dropWhile (Numeral.isDigit 16)) else none

/-- The group that two octets make up. -/
def ofOctets (high low : UInt8) : UInt16 := high.toUInt16 * 256 + low.toUInt16

/-- Groups read from the front of a text. -/
structure Groups where
  groups : List UInt16
  /-- Whether the last two groups were written as an IPv4 address. -/
  embedded : Bool
  rest : List Char

/-- Reads as many groups separated by colons as there are, at most `room`. The last two may be
written as an IPv4 address. A colon that no group follows is left unread. -/
def groups (first : Bool) : (room : Nat) → List Char → Groups
  | 0, text => ⟨[], false, text⟩
  | room + 1, text =>
    match if first then some text else expect? ':' text with
    | none => ⟨[], false, text⟩
    | some after =>
      match if room = 0 then none else ipv4? after with
      | some (host, rest) =>
        ⟨[ofOctets host[0] host[1], ofOctets host[2] host[3]], true, rest⟩
      | none =>
        match group? after with
        | none => ⟨[], false, text⟩
        | some (group, rest) =>
          let more := groups false room rest
          { more with groups := group :: more.groups }

/-- The address with the given first groups, then zeros, then the given last groups. -/
def fill (head tail : List UInt16) : IPv6 :=
  Vector.ofFn fun i =>
    if i.val < head.length then head.getD i.val 0
    else if 8 - tail.length ≤ i.val then tail.getD (i.val - (8 - tail.length)) 0
    else 0

/-- Reads an IPv6 address. Without `::` it has eight groups; with it at most seven are written,
and an IPv4 address may not stand before it. -/
def ipv6? (text : List Char) : Option (IPv6 × List Char) := do
  let head := groups true 8 text
  if head.groups.length = 8 then return (fill head.groups [], head.rest)
  if head.embedded then none
  let rest ← expect? ':' (← expect? ':' head.rest)
  let tail := groups true (7 - head.groups.length) rest
  return (fill head.groups tail.groups, tail.rest)

/-- Reads a scope, if there is one. -/
def scope (text : List Char) : UInt32 × List Char :=
  match (do number? UInt32.size (← expect? '%' text)) with
  | some (n, rest) => (UInt32.ofNat n, rest)
  | none => (0, text)

/-- Reads a colon and a port. -/
def port? (text : List Char) : Option (UInt16 × List Char) := do
  let (n, rest) ← number? UInt16.size (← expect? ':' text)
  return (UInt16.ofNat n, rest)

/-- Reads an IPv4 address and a port. -/
def v4? (text : List Char) : Option (SocketAddress × List Char) := do
  let (host, text) ← ipv4? text
  let (port, text) ← port? text
  return (.v4 host port, text)

/-- Reads an IPv6 address in brackets and a port. -/
def v6? (text : List Char) : Option (SocketAddress × List Char) := do
  let (host, text) ← ipv6? (← expect? '[' text)
  let (scope, text) := scope text
  let (port, text) ← port? (← expect? ']' text)
  return (.v6 host scope port, text)

/-- The address that a text denotes, if all of the text is one. -/
def parse? (text : String) : Option SocketAddress :=
  match v4? text.toList <|> v6? text.toList with
  | some (address, []) => some address
  | _ => none

/-- Four octets separated by points. -/
def printIPv4 (host : IPv4) : String :=
  ".".intercalate (host.toList.map fun octet => toString octet.toNat)

/-- Groups separated by colons. -/
def printGroups (groups : List UInt16) : String :=
  ":".intercalate (groups.map fun group => String.ofList (Nat.toDigits 16 group.toNat))

/-- A run of groups. -/
structure Run where
  start : Nat
  length : Nat

/-- The longest run of zero groups from a position on, given the run that ends there and the
longest one so far. Of runs of equal length the first is taken. -/
def longestRun (position : Nat) (current longest : Run) : List UInt16 → Run
  | [] => longest
  | group :: rest =>
    if group = 0 then
      let current : Run :=
        if current.length = 0 then ⟨position, 1⟩ else ⟨current.start, current.length + 1⟩
      let longest := if longest.length < current.length then current else longest
      longestRun (position + 1) current longest rest
    else longestRun (position + 1) ⟨0, 0⟩ longest rest

/-- The canonical text of an IPv6 address. -/
def printIPv6 (host : IPv6) : String :=
  let groups := host.toList
  if groups.take 6 = [0, 0, 0, 0, 0, 0xffff] then
    "::ffff:" ++
      printIPv4 #v[(host[6] / 256).toUInt8, host[6].toUInt8, (host[7] / 256).toUInt8, host[7].toUInt8]
  else
    let run := longestRun 0 ⟨0, 0⟩ ⟨0, 0⟩ groups
    if 1 < run.length then
      printGroups (groups.take run.start) ++ "::" ++
        printGroups (groups.drop (run.start + run.length))
    else printGroups groups

/-- The canonical text of an address. A scope of zero is not shown. -/
def print : SocketAddress → String
  | v4 host port => s!"{printIPv4 host}:{port.toNat}"
  | v6 host scope port =>
    if scope = 0 then s!"[{printIPv6 host}]:{port.toNat}"
    else s!"[{printIPv6 host}%{scope.toNat}]:{port.toNat}"

/-- The address that stands for every local IPv4 address, at a port. -/
def anyV4 (port : UInt16) : SocketAddress := .v4 #v[0, 0, 0, 0] port

end SocketAddress

end RoomRelay
