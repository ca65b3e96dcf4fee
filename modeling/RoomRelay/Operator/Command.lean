import RoomRelay.Operator.Report
import RoomRelay.Text.Numeral
import RoomRelay.Text.Words

/-!
# Commands

The lines that the operator may type: `report server`, `report time`, `report room` with a room
number, and `exit`. Words are separated by white space, and a line with more words than its command
has is no command.
-/

namespace RoomRelay

/-- A command of the operator. -/
inductive Command
  | reportServer
  | reportRoom (room : RoomId)
  | reportTime
  | exit
  deriving DecidableEq, Repr

namespace Command

/-- The room that a word numbers: decimal, perhaps after a plus sign, and below 65536. -/
def roomNumber? (word : String) : Option RoomId :=
  (Numeral.readSigned? UInt16.size word.toList).map fun n => ⟨UInt16.ofNat n⟩

/-- The command that a list of words is. -/
def ofWords? : List String → Option Command
  | ["exit"] => some exit
  | ["report", "server"] => some reportServer
  | ["report", "time"] => some reportTime
  | ["report", "room", number] => (roomNumber? number).map reportRoom
  | _ => none

/-- The command that a line is. -/
def parse? (line : String) : Option Command := ofWords? (Text.words line)

/-- What a command prints. Leaving prints nothing. -/
def execute (command : Command) (world : World) (now : Instant) (traffic : Traffic) :
    Option String :=
  match command with
  | reportServer => some (ServerReport.capture world traffic).message
  | reportRoom id =>
    match RoomReport.capture? world now id with
    | some report => some report.message
    | none => some s!"Room {id.number.toNat} does not exist"
  | reportTime => some s!"Server time: {now.toNat}ms"
  | exit => none

end Command

end RoomRelay
