import RoomRelay.World.Basic

/-!
# Election of masters

Each room that has a member which was heard of lately has one such member marked as its master. A
master keeps the mark while it is live; otherwise the live member with the lowest index takes it.
Elections look at the room's cells and change only the flags of sessions.
-/

namespace RoomRelay

namespace Lobby

/-- Whether the session in a slot was heard of within a timeout. -/
def isLive (lobby : Lobby) (now : Instant) (timeout : Nat) (slot : SlotId) : Bool :=
  match lobby.get? slot with
  | none => false
  | some session => session.idle now < timeout

/-- Whether the session in a slot is marked as a master. -/
def isMarked (lobby : Lobby) (slot : SlotId) : Bool :=
  match lobby.get? slot with
  | none => false
  | some session => session.isMaster

/-- Finds the first marked session among slots, and clears the mark wherever it is met again.
`found` is the marked session met before these slots. -/
def unmarkOthers (lobby : Lobby) (found : Option SlotId) : List SlotId → Lobby × Option SlotId
  | [] => (lobby, found)
  | slot :: rest =>
    if lobby.isMarked slot then
      match found with
      | none => lobby.unmarkOthers (some slot) rest
      | some _ => (lobby.modify slot (·.setMaster false)).unmarkOthers found rest
    else lobby.unmarkOthers found rest

/-- Marks the first live session among slots as the master. -/
def promote (lobby : Lobby) (slots : List SlotId) (now : Instant) (timeout : Nat) :
    Lobby × Option SlotId :=
  match slots.find? (lobby.isLive now timeout) with
  | none => (lobby, none)
  | some successor => (lobby.modify successor (·.setMaster true), some successor)

/-- Elects the master of a room and returns its slot. -/
def elect (lobby : Lobby) (room : Room) (now : Instant) (timeout : Nat) : Lobby × Option SlotId :=
  let slots := room.members.map Prod.snd
  match lobby.unmarkOthers none slots with
  | (lobby, none) => lobby.promote slots now timeout
  | (lobby, some master) =>
    if lobby.isLive now timeout master then (lobby, some master)
    else (lobby.modify master (·.setMaster false)).promote slots now timeout

/-- Elects the masters of rooms one after another. -/
def electEach (lobby : Lobby) (rooms : List Room) (now : Instant) (timeout : Nat) : Lobby :=
  rooms.foldl (fun lobby room => (lobby.elect room now timeout).1) lobby

end Lobby

namespace World

/-- Elects the master of a room and returns its slot. -/
def elect (world : World) (room : Room) (now : Instant) (timeout : Nat) : World × Option SlotId :=
  let (lobby, master) := world.lobby.elect room now timeout
  ({ world with lobby }, master)

/-- Elects the master of every room that has members, and counts those rooms. -/
def electAll (world : World) (now : Instant) (timeout : Nat) : World × Nat :=
  let active := world.rooms.active
  ({ world with lobby := world.lobby.electEach active now timeout }, active.length)

end World

end RoomRelay
