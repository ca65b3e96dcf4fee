import RoomRelay.Config.Basic
import RoomRelay.World.Election

/-!
# Sweeps

From time to time the server closes the sessions that have been silent for too long, and elects
masters anew if the last election it held was long enough ago, so that rooms in which nobody talks
recover as well.
-/

namespace RoomRelay

/-- Whether the session in a slot has been silent for longer than a timeout. -/
def Lobby.isOverdue (lobby : Lobby) (now : Instant) (timeout : Nat) (slot : SlotId) : Bool :=
  match lobby.get? slot with
  | none => false
  | some session => timeout < session.idle now

namespace World

/-- Closes those sessions among slots that have been silent for longer than a timeout, and counts
them. -/
def expireSlots (world : World) (now : Instant) (timeout : Nat) : List SlotId → World × Nat
  | [] => (world, 0)
  | slot :: rest =>
    if world.lobby.isOverdue now timeout slot then
      let (world, count) := (world.remove slot).1.expireSlots now timeout rest
      (world, count + 1)
    else world.expireSlots now timeout rest

/-- Closes every session that has been silent for longer than a timeout, and counts them. -/
def expireIdle (world : World) (now : Instant) (timeout : Nat) : World × Nat :=
  world.expireSlots now timeout ((List.range world.lobby.capacity).filterMap SlotId.ofPosition?)

end World

/-- The reading of the clock at the last election of a series of sweeps. -/
structure Sweeper where
  lastElection : Option Instant
  deriving DecidableEq, Repr

/-- What a sweep did. -/
structure SweepOutcome where
  expired : Nat
  electedRooms : Nat
  deriving DecidableEq, Repr

/-- The result of a sweep. -/
structure Sweep where
  sweeper : Sweeper
  world : World
  outcome : SweepOutcome

namespace Sweeper

/-- A sweeper that has held no election. -/
def fresh : Sweeper := ⟨none⟩

/-- Whether an election is due. -/
def isElectionDue (sweeper : Sweeper) (config : Config) (now : Instant) : Bool :=
  match sweeper.lastElection with
  | none => true
  | some last => config.electionInterval ≤ now.since last

/-- Sweeps once. -/
def tick (sweeper : Sweeper) (config : Config) (world : World) (now : Instant) : Sweep :=
  let (world, expired) := world.expireIdle now config.sessionTimeout
  if sweeper.isElectionDue config now then
    let (world, electedRooms) := world.electAll now config.masterTimeout
    ⟨⟨some now⟩, world, ⟨expired, electedRooms⟩⟩
  else ⟨sweeper, world, ⟨expired, 0⟩⟩

end Sweeper

end RoomRelay
