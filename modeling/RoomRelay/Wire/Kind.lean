import RoomRelay.Wire.Format

/-!
# Message kinds and statuses

Every datagram opens with a one-byte tag that names its kind. A response carries the kind of the
request that it answers, and a status that says whether the request was carried out.
-/

namespace RoomRelay.Wire

/-- What a datagram asks for, or answers. -/
inductive Kind
  | ping | login | logout | create | join | leave
  | unreliable | reliable | relied
  deriving DecidableEq, Repr

namespace Kind

/-- The first byte of a datagram of this kind. -/
def tag : Kind → UInt8
  | ping => 1
  | login => 2
  | logout => 3
  | create => 4
  | join => 5
  | leave => 6
  | unreliable => 10
  | reliable => 11
  | relied => 12

/-- The kind that a tag names. -/
def ofTag? (byte : UInt8) : Except Error Kind :=
  if byte = 1 then .ok ping
  else if byte = 2 then .ok login
  else if byte = 3 then .ok logout
  else if byte = 4 then .ok create
  else if byte = 5 then .ok join
  else if byte = 6 then .ok leave
  else if byte = 10 then .ok unreliable
  else if byte = 11 then .ok reliable
  else if byte = 12 then .ok relied
  else .error (.unknownKind byte)

theorem ofTag?_eq_ok_iff (byte : UInt8) (kind : Kind) :
    ofTag? byte = .ok kind ↔ kind.tag = byte := by
  constructor
  · intro h
    unfold ofTag? at h
    repeat' split at h
    all_goals first | (cases h; simp [tag, *]) | cases h
  · rintro rfl
    cases kind <;> rfl

/-- The kind of a datagram, told by its first byte. -/
def peek : List UInt8 → Except Error Kind
  | [] => .error (.truncated 1 0)
  | byte :: _ => ofTag? byte

end Kind

/-- How a request fared. -/
inductive Status
  /-- It was carried out. -/
  | ok
  /-- Its credentials name no live session. -/
  | expired
  /-- No slot or no room was free. -/
  | full
  /-- No room suited it. -/
  | unmatched
  deriving DecidableEq, Repr, Inhabited

namespace Status

/-- The byte of a status. -/
def code : Status → Int8
  | ok => 0
  | expired => 1
  | full => 2
  | unmatched => 3

/-- The status of a byte. -/
def ofCode? (byte : Int8) : Except Error Status :=
  if byte = 0 then .ok ok
  else if byte = 1 then .ok expired
  else if byte = 2 then .ok full
  else if byte = 3 then .ok unmatched
  else .error (.unknownStatus byte)

theorem ofCode?_eq_ok_iff (byte : Int8) (status : Status) :
    ofCode? byte = .ok status ↔ status.code = byte := by
  constructor
  · intro h
    unfold ofCode? at h
    repeat' split at h
    all_goals first | (cases h; simp [code, *]) | cases h
  · rintro rfl
    cases status <;> rfl

/-- A status as one signed byte. -/
def format : Format Status :=
  (Format.field .i8).refine ofCode? code ofCode?_eq_ok_iff

end Status

end RoomRelay.Wire
