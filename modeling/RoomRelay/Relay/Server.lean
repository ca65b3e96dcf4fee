import RoomRelay.Relay.Worker

/-!
# Starting a server

A server starts with an empty lobby and rooms that were never opened, provided that its settings
are valid and that its network tells the address it listens at.
-/

namespace RoomRelay

/-- The world of a server that was just started, whether or not its settings are valid. -/
def World.ofConfig (config : Config) : World where
  tokens := TokenIssuer.startingAt config.initialToken
  lobby := Lobby.ofCapacity config.lobbyCapacity
  rooms := RoomTable.ofSize config.roomCount config.roomCapacity

/-- Why a server does not start. -/
inductive StartError
  | config (fault : Config.Fault)
  /-- The network does not tell its address. -/
  | address (reason : String)
  deriving DecidableEq, Repr

/-- The wording of a start error. -/
def StartError.message : StartError → String
  | config fault => fault.message
  | address reason => s!"i/o error: {reason}"

/-- A server that listens at an address. -/
structure Server where
  config : Config
  listening : SocketAddress
  world : World
  deriving Repr

/-- Starts a server. Its settings are checked before its network is asked for the address. -/
def Server.start (config : Config) (address : Except String SocketAddress) :
    Except StartError Server :=
  match config.validate, address with
  | .error fault, _ => .error (.config fault)
  | .ok (), .error reason => .error (.address reason)
  | .ok (), .ok listening => .ok { config, listening, world := World.ofConfig config }

end RoomRelay
