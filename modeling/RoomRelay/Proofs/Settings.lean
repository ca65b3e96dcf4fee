import RoomRelay.Config.Basic

/-!
# Settings that pass the checks

Settings that a server starts with leave every table at least one entry and at most as many as
can be told apart on the wire.
-/

namespace RoomRelay.Config

/-- The bounds that settings must keep to for a server to start. -/
structure Bounded (config : Config) : Prop where
  roomCount_pos : 0 < config.roomCount
  roomCount_le : config.roomCount ≤ maxWireNumber
  roomCapacity_pos : 0 < config.roomCapacity
  roomCapacity_le : config.roomCapacity ≤ maxRoomCapacity
  lobbyCapacity_pos : 0 < config.lobbyCapacity
  lobbyCapacity_le : config.lobbyCapacity ≤ maxWireNumber

/-- The slots of a server that starts can be numbered. -/
theorem Bounded.lobbyCapacity_le_size {config : Config} (h : config.Bounded) :
    config.lobbyCapacity ≤ 65536 :=
  Nat.le_trans h.lobbyCapacity_le (by decide)

/-- So can the places in its rooms. -/
theorem Bounded.roomCapacity_le_size {config : Config} (h : config.Bounded) :
    config.roomCapacity ≤ 256 :=
  Nat.le_trans h.roomCapacity_le (by decide)

theorem bounded_of_validate {config : Config} (h : config.validate = .ok ()) :
    config.Bounded := by
  rw [validate] at h
  split at h
  · cases h
  · next hrooms =>
    split at h
    · cases h
    · next hcapacity =>
      split at h
      · cases h
      · next hlobby => constructor <;> omega

end RoomRelay.Config
