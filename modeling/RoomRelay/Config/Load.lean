import RoomRelay.Config.Basic
import RoomRelay.Config.Document

/-!
# Loading settings

A settings file changes some of the defaults. A file that does not exist changes none of them; one
that cannot be read, is no document of known settings, or makes them invalid is refused.
-/

namespace RoomRelay

/-- What is found where a settings file is looked for. -/
inductive ConfigFile
  | missing
  | unreadable
  | contents (bytes : List UInt8)

/-- Why settings could not be loaded. -/
inductive LoadError
  /-- There is something that is no file, or whose bytes are no text. -/
  | unreadable
  /-- The text is no document of known settings. -/
  | malformed
  | invalid (fault : Config.Fault)
  deriving DecidableEq, Repr

namespace Config

/-- The natural number that an integer setting is. -/
def natural? : Setting → Option Nat
  | .integer (.ofNat n) => some n
  | _ => none

/-- Changes the setting that an entry names. -/
def set? (config : Config) (entry : Entry) : Option Config :=
  match entry.key with
  | "bind_address" =>
    match entry.value with
    | .text text => (SocketAddress.parse? text).map ({ config with bindAddress := · })
    | .integer _ => none
  | "room_count" => (natural? entry.value).map ({ config with roomCount := · })
  | "room_capacity" => (natural? entry.value).map ({ config with roomCapacity := · })
  | "lobby_capacity" => (natural? entry.value).map ({ config with lobbySize := some · })
  | "session_timeout_ms" => (natural? entry.value).map ({ config with sessionTimeout := · })
  | "master_timeout_ms" => (natural? entry.value).map ({ config with masterTimeout := · })
  | "sweep_interval_ms" => (natural? entry.value).map ({ config with sweepInterval := · })
  | "election_interval_ms" => (natural? entry.value).map ({ config with electionSpacing := · })
  | "worker_threads" => (natural? entry.value).map ({ config with workerThreads := · })
  | "recv_timeout_ms" => (natural? entry.value).map ({ config with receiveTimeout := · })
  | "initial_token" =>
    ((natural? entry.value).filter (· < UInt32.size)).map
      ({ config with initialToken := UInt32.ofNat · })
  | _ => none

/-- The defaults, changed by the entries of a document. -/
def ofEntries? (entries : List Entry) : Option Config := entries.foldlM set? default

/-- Settings, if they are valid. -/
def checked (config : Config) : Except LoadError Config :=
  match config.validate with
  | .ok () => .ok config
  | .error fault => .error (.invalid fault)

/-- The settings that a text describes. -/
def ofText (text : String) : Except LoadError Config :=
  match Document.parse? text >>= ofEntries? with
  | none => .error .malformed
  | some config => config.checked

/-- The settings that a file describes. -/
def load : ConfigFile → Except LoadError Config
  | .missing => default.checked
  | .unreadable => .error .unreadable
  | .contents bytes =>
    match String.fromUTF8? ⟨bytes.toArray⟩ with
    | none => .error .unreadable
    | some text => ofText text

end Config

end RoomRelay
