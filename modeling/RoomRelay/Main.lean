import RoomRelay.Config.Load
import RoomRelay.Operator.Command
import RoomRelay.Relay.Server
import RoomRelay.World.Sweep
import Std.Async.Timer
import Std.Async.UDP

/-!
# Command line

Runs a relay on a UDP socket, with the operator's console on standard input. This module moves
bytes and reads the clock. What is done with them is decided by `Station.step`, `Sweeper.tick` and
`Command.execute`, each applied to the whole state in one step.
-/

namespace RoomRelay.Main

open Std.Async

/-- What the command line says. -/
structure Options where
  configPath : String := "relay.toml"
  port : Option UInt16 := none
  workers : Option Nat := none

/-- Reads the arguments, or says which of them makes no sense. -/
def Options.parse (options : Options) : List String → Except String Options
  | [] => .ok options
  | flag :: value :: rest =>
    if flag = "-c" ∨ flag = "--config" then { options with configPath := value }.parse rest
    else if flag = "-p" ∨ flag = "--port" then
      match Numeral.readSigned? UInt16.size value.toList with
      | some n => { options with port := some (UInt16.ofNat n) }.parse rest
      | none => .error s!"invalid port: {value}"
    else if flag = "-w" ∨ flag = "--workers" then
      match Numeral.readSigned? UInt64.size value.toList with
      | some n => { options with workers := some n }.parse rest
      | none => .error s!"invalid number of workers: {value}"
    else .error s!"unexpected argument: {flag}"
  | [flag] => .error s!"unexpected argument: {flag}"

/-- Settings with those overridden that the command line gives. -/
def Options.apply (options : Options) (config : Config) : Config :=
  { config with
    bindAddress := options.port.elim config.bindAddress config.bindAddress.withPort
    workerThreads := options.workers.getD config.workerThreads }

/-- Looks for a settings file. -/
def findConfig (path : String) : IO ConfigFile := do
  try
    let bytes ← IO.FS.readBinFile path
    return .contents bytes.data.toList
  catch
    | .noFileOrDirectory .. => return .missing
    | _ => return .unreadable

/-- The socket library's form of an address. -/
def toSocket : SocketAddress → Std.Net.SocketAddress
  | .v4 host port => .v4 ⟨⟨host⟩, port⟩
  | .v6 host _ port => .v6 ⟨⟨host⟩, port⟩

/-- An address in the socket library's form. -/
def ofSocket : Std.Net.SocketAddress → SocketAddress
  | .v4 address => .v4 address.addr.octets address.port
  | .v6 address => .v6 address.addr.segments 0 address.port

/-- Everything that the threads share. -/
structure Shared where
  config : Config
  station : Station
  sweeper : Sweeper
  start : Nat
  /-- Whether the threads are to go on. -/
  running : Bool

/-- The clock: milliseconds since the start, the first reading being one. -/
def now (start : Nat) : BaseIO Instant :=
  return UInt64.ofNat (((← IO.monoMsNow) - start) + 1)

/-- Sends a frame. One that cannot be sent is lost. -/
def send (socket : UDP.Socket) (frame : Frame) : IO Unit := do
  try (socket.send ⟨frame.bytes.toArray⟩ (some (toSocket frame.to))).block
  catch _ => pure ()

/-- A time for the timers, at most what a 32-bit count of milliseconds holds. -/
def delay (milliseconds : Nat) : UInt32 := UInt32.ofNat (min milliseconds (UInt32.size - 1))

/-- Waits for a datagram, but not for longer than a timeout. -/
def receive (socket : UDP.Socket) (timeout : Nat) : IO (Option Datagram) := do
  let timer ← (Selector.sleep (Std.Time.Millisecond.Offset.ofNat (delay timeout).toNat)).block
  let received := socket.recvSelector (UInt64.ofNat Wire.maxDatagram)
  (Selectable.one #[
    .case received fun (bytes, source) =>
      return source.map fun source => ⟨bytes.data.toList, ofSocket source⟩,
    .case timer fun _ => return none]).block

/-- Dispatches one datagram and returns what is to be sent. -/
def Shared.dispatch (s : Shared) (datagram : Datagram) (instant : Instant) : List Frame × Shared :=
  let arrived := { s.station with mailbox := s.station.mailbox.inject datagram }
  let station := arrived.step s.config (fun _ => true) instant
  let (mailbox, frames) := station.mailbox.takeSent
  (frames, { s with station := { station with mailbox } })

/-- Receives and dispatches for as long as the server runs. -/
partial def serve (socket : UDP.Socket) (shared : IO.Ref Shared) : IO Unit := do
  let s ← shared.get
  if s.running then
    try
      if let some datagram ← receive socket s.config.receiveTimeout then
        let instant ← now s.start
        (← shared.modifyGet (·.dispatch datagram instant)).forM (send socket)
    catch _ => IO.sleep 10
    serve socket shared

/-- Sweeps once the sweep interval is over, and again and again for as long as the server runs.
`waited` is the part of the interval that is over. -/
partial def sweep (shared : IO.Ref Shared) (waited : Nat) : IO Unit := do
  let s ← shared.get
  if s.running then
    if waited < s.config.sweepInterval then
      let pause := min (s.config.sweepInterval - waited) 100
      IO.sleep (delay pause)
      sweep shared (waited + pause)
    else
      let instant ← now s.start
      shared.modify fun s =>
        let swept := s.sweeper.tick s.config s.station.world instant
        { s with sweeper := swept.sweeper, station := { s.station with world := swept.world } }
      sweep shared 0

/-- Reads commands until one of them, or the end of the input, ends the console. Tells whether the
program is to end too. -/
partial def console (input : IO.FS.Stream) (shared : IO.Ref Shared) : IO Bool := do
  let line ← input.getLine
  if line.isEmpty then return false
  match Command.parse? line with
  | some .exit => return true
  | some command =>
    let s ← shared.get
    let text := command.execute s.station.world (← now s.start) s.station.mailbox.traffic
    if let some text := text then IO.println text
  | none =>
    let words := Text.words line
    unless words.isEmpty do
      IO.println s!"Unknown command: {line.trimAscii}"
  console input shared

/-- Runs a relay with valid settings. -/
def run (server : Server) (socket : UDP.Socket) : IO UInt32 := do
  let station := Station.fresh server.world (Mailbox.atAddress server.listening)
  let start ← IO.monoMsNow
  let shared ← IO.mkRef
    { config := server.config, station, sweeper := Sweeper.fresh, start, running := true : Shared }
  let serving ← IO.asTask (serve socket shared) Task.Priority.dedicated
  let sweeping ← IO.asTask (sweep shared 0) Task.Priority.dedicated
  if ← console (← IO.getStdin) shared then
    shared.modify ({ · with running := false })
  discard (IO.wait serving)
  discard (IO.wait sweeping)
  return 0

/-- Starts a relay as the command line says. -/
def launch (options : Options) : IO UInt32 := do
  match Config.load (← findConfig options.configPath) with
  | .error .unreadable =>
    IO.eprintln s!"cannot read config file {options.configPath}"
    return 1
  | .error .malformed =>
    IO.eprintln s!"cannot parse config file {options.configPath}"
    return 1
  | .error (.invalid fault) =>
    IO.eprintln fault.message
    return 1
  | .ok config =>
    let config := options.apply config
    let socket ← UDP.Socket.mk
    let address ←
      try
        socket.bind (toSocket config.bindAddress)
        pure (Except.ok (ofSocket (← socket.getSockName)))
      catch e => pure (Except.error (toString e))
    match Server.start config address with
    | .error e =>
      IO.eprintln e.message
      return 1
    | .ok server => run server socket

end RoomRelay.Main

/-- Runs the relay server. -/
def main (args : List String) : IO UInt32 := do
  match RoomRelay.Main.Options.parse {} args with
  | .error reason =>
    IO.eprintln reason
    return 2
  | .ok options => RoomRelay.Main.launch options
