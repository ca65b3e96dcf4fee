import RoomRelay.Network.Mailbox
import RoomRelay.Text.Hex
import RoomRelay.World.Basic

/-!
# Reports

What the operator is told about the server: totals with one line for each room in use, or the
members of one room.
-/

namespace RoomRelay

/-- Totals of the server. -/
structure ServerReport where
  sessions : Nat
  lobbyCapacity : Nat
  /-- The rooms that have members and how many they have. -/
  rooms : List (RoomId × Nat)
  seated : Nat
  traffic : Traffic
  deriving DecidableEq, Repr

namespace ServerReport

/-- Takes the totals of a world. -/
def capture (world : World) (traffic : Traffic) : ServerReport :=
  let rooms := world.rooms.active.map fun room => (room.id, room.memberCount)
  { sessions := world.lobby.live
    lobbyCapacity := world.lobby.capacity
    rooms
    seated := rooms.foldl (fun seated room => seated + room.2) 0
    traffic }

/-- The totals, one to a line. -/
def message (report : ServerReport) : String :=
  let rooms := report.rooms.map fun (room, count) =>
    s!"Room[{room.number.toNat}] -> {count} members"
  "\n".intercalate
    ([s!"Sessions connected: {report.sessions}/{report.lobbyCapacity}"] ++ rooms ++
      [s!"Active rooms: {report.rooms.length}", s!"Sessions in rooms: {report.seated}",
        report.traffic.message])

end ServerReport

/-- What is told about one member of a room. -/
structure MemberReport where
  index : SeatIndex
  slot : SlotId
  token : UInt32
  flags : UInt8
  idle : Nat
  device : Wire.Device
  deriving DecidableEq, Repr

namespace MemberReport

/-- Reports the session that sits at an index. -/
def ofSession (index : SeatIndex) (session : Session) (now : Instant) : MemberReport :=
  { index
    slot := session.slot
    token := session.token.word
    flags := session.flags
    idle := session.idle now
    device := session.device }

/-- One member, in a line that is indented under its room. -/
def message (report : MemberReport) : String :=
  s!"  [{report.index.number.toNat}] slot {report.slot.number.toNat} token {report.token.toNat}" ++
    s!" flags {report.flags.toNat} idle {report.idle}ms" ++
    s!" device {Hex.encode report.device.toList}"

end MemberReport

/-- What is told about one room. -/
structure RoomReport where
  room : RoomId
  memberCount : Nat
  capacity : Nat
  isOpen : Bool
  members : List MemberReport
  deriving DecidableEq, Repr

namespace RoomReport

/-- Reports a room, if the server has it. -/
def capture? (world : World) (now : Instant) (id : RoomId) : Option RoomReport :=
  (world.rooms.room? id).map fun room =>
    { room := id
      memberCount := room.memberCount
      capacity := room.capacity
      isOpen := room.isOpen now
      members := room.members.filterMap fun (index, slot) =>
        (world.lobby.get? slot).map fun session => MemberReport.ofSession index session now }

/-- The room and its members, one to a line. -/
def message (report : RoomReport) : String :=
  let mark := if report.isOpen then " (open)" else ""
  "\n".intercalate
    (s!"Room[{report.room.number.toNat}] {report.memberCount}/{report.capacity} members{mark}" ::
      report.members.map MemberReport.message)

end RoomReport

end RoomRelay
