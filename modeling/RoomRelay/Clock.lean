/-!
# Clock

Readings of the server's clock are 64-bit counts of milliseconds. Time that has passed is measured
so that it is never negative: a reading taken before the one that it is compared with counts as
the same instant.
-/

namespace RoomRelay

/-- A reading of the clock, in milliseconds. -/
abbrev Instant := UInt64

/-- The milliseconds from one reading to another, none if the other is not later. -/
def Instant.since (now earlier : Instant) : Nat := now.toNat - earlier.toNat

/-- A clock that moves only when told to. -/
structure Clock where
  now : Instant
  deriving DecidableEq, Repr

namespace Clock

/-- Moves the clock forward, wrapping around at the largest reading. -/
def advance (clock : Clock) (milliseconds : UInt64) : Clock := ⟨clock.now + milliseconds⟩

/-- Puts the clock at a reading. -/
def set (_ : Clock) (reading : Instant) : Clock := ⟨reading⟩

end Clock

end RoomRelay
