import RoomRelay.Network.Address
import RoomRelay.Room.Basic

/-!
# Settings

The settings of a server, their defaults, and the conditions under which it starts. The number of
slots defaults to one for every seat.
-/

namespace RoomRelay

/-- The largest number that a count or a size is represented by. -/
def maxSize : Nat := UInt64.size - 1

/-- The largest number of rooms, and of slots, that signed sixteen-bit wire fields can tell
apart. -/
def maxWireNumber : Nat := 32767

/-- The settings of a server. Times are in milliseconds. -/
structure Config where
  bindAddress : SocketAddress
  roomCount : Nat
  roomCapacity : Nat
  /-- The number of slots, if it is not to follow from the number of seats. -/
  lobbySize : Option Nat
  sessionTimeout : Nat
  masterTimeout : Nat
  sweepInterval : Nat
  electionSpacing : Nat
  workerThreads : Nat
  receiveTimeout : Nat
  initialToken : UInt32
  deriving DecidableEq, Repr

/-- Why a server does not start with some settings. -/
inductive Config.Fault
  | roomCount (got : Nat)
  | roomCapacity (got : Nat)
  | lobbyCapacity (got : Nat)
  | noWorker
  | zeroInterval
  deriving DecidableEq, Repr

/-- The wording of a fault. -/
def Config.Fault.message (fault : Fault) : String :=
  "invalid configuration: " ++
    match fault with
    | roomCount got => s!"room_count must be in 1..={maxWireNumber}, got {got}"
    | roomCapacity got => s!"room_capacity must be in 1..={maxRoomCapacity}, got {got}"
    | lobbyCapacity got => s!"lobby_capacity must be in 1..={maxWireNumber}, got {got}"
    | noWorker => "worker_threads must be at least 1"
    | zeroInterval => "sweep_interval_ms and recv_timeout_ms must be non-zero"

namespace Config

/-- The port that the server listens on if no other is set. -/
def defaultPort : UInt16 := 36000

/-- The settings of a server that sets none. -/
def default : Config where
  bindAddress := SocketAddress.anyV4 defaultPort
  roomCount := 1024
  roomCapacity := 16
  lobbySize := none
  sessionTimeout := 300000
  masterTimeout := 5000
  sweepInterval := 1000
  electionSpacing := 1000
  workerThreads := 31
  receiveTimeout := 100
  initialToken := 654987

/-- The number of slots of the lobby. -/
def lobbyCapacity (config : Config) : Nat :=
  config.lobbySize.getD (min (config.roomCount * config.roomCapacity) maxSize)

/-- The time between elections: they are held in sweeps, so never more often than those. -/
def electionInterval (config : Config) : Nat := max config.electionSpacing config.sweepInterval

/-- Checks the settings in a fixed order and reports the first fault. -/
def validate (config : Config) : Except Fault Unit :=
  if config.roomCount = 0 ∨ maxWireNumber < config.roomCount then
    .error (.roomCount config.roomCount)
  else if config.roomCapacity = 0 ∨ maxRoomCapacity < config.roomCapacity then
    .error (.roomCapacity config.roomCapacity)
  else if config.lobbyCapacity = 0 ∨ maxWireNumber < config.lobbyCapacity then
    .error (.lobbyCapacity config.lobbyCapacity)
  else if config.workerThreads = 0 then .error .noWorker
  else if config.sweepInterval = 0 ∨ config.receiveTimeout = 0 then .error .zeroInterval
  else .ok ()

end Config

end RoomRelay
