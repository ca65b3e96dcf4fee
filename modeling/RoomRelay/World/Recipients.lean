import RoomRelay.Wire.Packet
import RoomRelay.World.Basic

/-!
# Recipients

Where a relay packet goes: the current addresses of the members that its target names.
-/

namespace RoomRelay

/-- What becomes of a reliable packet. -/
inductive ReliableRoute
  /-- The target receives it. -/
  | forward (recipient : SocketAddress)
  /-- Nobody sits there, and the server acknowledges it in place of the target. -/
  | acknowledge
  deriving DecidableEq, Repr

namespace Room

/-- The address of the member at an index. -/
def memberAddress? (room : Room) (lobby : Lobby) (index : SeatIndex) : Option SocketAddress := do
  let session ← lobby.get? (← room.member? index)
  return session.peer

/-- The addresses of all members that a condition on the index admits, in the order of indices. -/
def addresses (room : Room) (lobby : Lobby) (admits : SeatIndex → Bool) : List SocketAddress :=
  room.members.filterMap fun (index, slot) =>
    if admits index then (lobby.get? slot).map Session.peer else none

/-- The addresses that an unreliable packet goes to: of every member, of every member but the
sender, or of the member at one index. -/
def unreliableRecipients (room : Room) (lobby : Lobby) (sender : SeatIndex) (target : Int8) :
    List SocketAddress :=
  if target = Wire.targetOthers then
    (room.addresses lobby (· ≠ sender)).take maxRoomCapacity
  else if target = Wire.targetAll then
    (room.addresses lobby fun _ => true).take maxRoomCapacity
  else (SeatIndex.ofWire? target >>= room.memberAddress? lobby).toList

/-- Where a reliable packet for an index goes. -/
def reliableRoute (room : Room) (lobby : Lobby) (target : SeatIndex) : ReliableRoute :=
  match room.memberAddress? lobby target with
  | some recipient => .forward recipient
  | none => .acknowledge

/-- The member that an acknowledgement goes to. -/
def reliedRecipient (room : Room) (lobby : Lobby) (target : SeatIndex) : Option SocketAddress :=
  room.memberAddress? lobby target

end Room

end RoomRelay
