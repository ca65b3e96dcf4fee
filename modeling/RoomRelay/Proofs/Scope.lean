import RoomRelay.Proofs.Credentials
import RoomRelay.Proofs.Packet

/-!
# What requests may name

A datagram is no request if its first byte names no kind, or the rest is not of that kind. A request
is out of range if a logout names no slot of the lobby, or a packet for members names a seat or a
target that rooms do not have. Whoever is recognised by the seat that it claims sits there.
-/

namespace RoomRelay

namespace Request

/-- Whether a datagram is no request: it is empty, it opens with a byte that names no kind, or it is
not a record or a packet of the kind that its first byte names. -/
inductive Malformed : List UInt8 → Prop
  | empty : Malformed []
  | unknown {tag : UInt8} {rest : List UInt8} (h : ∀ kind : Wire.Kind, kind.tag ≠ tag) :
      Malformed (tag :: rest)
  | unread {kind : Wire.Kind} {rest : List UInt8}
      (h : ∀ request, decodeAs (kind.tag :: rest) kind ≠ .ok request) :
      Malformed (kind.tag :: rest)

/-- Just the datagrams that are no requests are not decoded. -/
theorem malformed_iff {datagram : List UInt8} :
    Malformed datagram ↔ ∀ request, decode datagram ≠ .ok request := by
  constructor
  · intro h
    cases h with
    | empty =>
        intro request hrequest
        cases hrequest
    | @unknown tag rest h =>
        intro request hrequest
        cases hkind : Wire.Kind.ofTag? tag with
        | ok kind => exact h kind ((Wire.Kind.ofTag?_eq_ok_iff tag kind).mp hkind)
        | error fault =>
            simp only [decode, Wire.Kind.peek, hkind, bind, Except.bind] at hrequest
            cases hrequest
    | @unread kind rest h =>
        rw [decode_of_tag]
        exact h
  · intro h
    cases datagram with
    | nil => exact .empty
    | cons tag rest =>
        by_cases hknown : ∃ kind : Wire.Kind, kind.tag = tag
        · obtain ⟨kind, rfl⟩ := hknown
          rw [decode_of_tag] at h
          exact .unread h
        · exact .unknown fun kind hkind => hknown ⟨kind, hkind⟩

end Request

/-- Whether a number from the wire is the number of one of so many entries. -/
def IsEntry (count : Nat) (number : Int) : Prop := 0 ≤ number ∧ number < count

/-- Whether the seat that credentials claim is one that the server has. -/
def Config.HasSeat (config : Config) (credentials : Wire.Credentials) : Prop :=
  IsEntry config.roomCount credentials.room.toInt ∧
    IsEntry config.roomCapacity credentials.index.toInt

/-- Whether a request names no slot, seat or target that the server does not have. Only a logout and
packets for members are judged by that before their session is sought. -/
def Request.InRange (config : Config) : Request → Prop
  | .logout request => IsEntry config.lobbyCapacity request.credentials.slot.toInt
  | .unreliable header => config.HasSeat header.credentials
  | .reliable header =>
    config.HasSeat header.credentials ∧ IsEntry config.roomCapacity header.target.toInt
  | .relied request =>
    config.HasSeat request.credentials ∧ IsEntry config.roomCapacity request.target.toInt
  | _ => True

/-- How the entries of a table are found by numbers from the wire: a negative number names none, and
every other one the entry at that position. -/
structure NumbersEntries {α : Type} (position : α → Nat) (number : Int) (found : Option α) :
    Prop where
  of_none : found = none → number < 0
  of_some : ∀ entry, found = some entry → (position entry : Int) = number

namespace NumbersEntries

variable {α : Type} {position : α → Nat}

theorem isEntry_iff {number : Int} {found : Option α} (h : NumbersEntries position number found)
    {count : Nat} :
    IsEntry count number ↔ ∃ entry, found = some entry ∧ position entry < count := by
  unfold IsEntry
  cases hfound : found with
  | none =>
      have hneg := h.of_none hfound
      simp only [reduceCtorEq, false_and, exists_false, iff_false]
      omega
  | some entry =>
      have hposition := h.of_some entry hfound
      simp only [Option.some.injEq, exists_eq_left']
      omega

/-- A signed number that is not negative is the unsigned one with the same bits. -/
theorem ofSigned {number : Int} {unsigned span : Nat} {entry : α} {negative : Prop}
    [Decidable negative] (hnegative : negative ↔ number < 0)
    (hnumber : number = if 2 * unsigned < span then (unsigned : Int) else unsigned - span)
    (hlt : unsigned < span) (hposition : position entry = unsigned) :
    NumbersEntries position number (if negative then none else some entry) := by
  constructor
  · intro hnone
    split at hnone
    · next h => exact hnegative.mp h
    · cases hnone
  · intro found hfound
    split at hfound
    · cases hfound
    · next h =>
      cases hfound
      rw [hnegative] at h
      rw [hposition]
      omega

theorem slot (raw : Int16) : NumbersEntries SlotId.position raw.toInt (SlotId.ofWire? raw) :=
  ofSigned Int16.lt_iff_toInt_lt (BitVec.toInt_eq_toNat_cond _) raw.toUInt16.toNat_lt rfl

theorem room (raw : Int16) : NumbersEntries RoomId.position raw.toInt (RoomId.ofWire? raw) :=
  ofSigned Int16.lt_iff_toInt_lt (BitVec.toInt_eq_toNat_cond _) raw.toUInt16.toNat_lt rfl

theorem index (raw : Int8) : NumbersEntries SeatIndex.position raw.toInt (SeatIndex.ofWire? raw) :=
  ofSigned Int8.lt_iff_toInt_lt (BitVec.toInt_eq_toNat_cond _) raw.toUInt8.toNat_lt rfl

end NumbersEntries

namespace Config

variable {config : Config} {credentials : Wire.Credentials} {target : Int8}

theorem isEntry_target_iff :
    IsEntry config.roomCapacity target.toInt ↔
      ∃ index, config.targetIndex? target = some index := by
  rw [(NumbersEntries.index target).isEntry_iff]
  simp [targetIndex?, Option.filter_eq_some_iff]

theorem hasSeat_iff :
    config.HasSeat credentials ↔ ∃ seat, config.claimedSeat? credentials = some seat := by
  rw [HasSeat, (NumbersEntries.room _).isEntry_iff, (NumbersEntries.index _).isEntry_iff]
  constructor
  · rintro ⟨⟨room, hroom, hroomlt⟩, ⟨index, hindex, hindexlt⟩⟩
    refine ⟨⟨room, index⟩, ?_⟩
    simp [claimedSeat?, Seat.ofWire?, hroom, hindex, hroomlt, hindexlt]
  · rintro ⟨seat, hseat⟩
    obtain ⟨hwire, hlt⟩ := Option.filter_eq_some_iff.mp hseat
    simp only [Bool.and_eq_true, decide_eq_true_eq] at hlt
    simp only [Seat.ofWire?, bind, Option.bind_eq_some_iff] at hwire
    obtain ⟨room, hroom, index, hindex, hmade⟩ := hwire
    cases hmade
    exact ⟨⟨room, hroom, hlt.1⟩, ⟨index, hindex, hlt.2⟩⟩

theorem claimedSeat?_eq_none (h : ¬ config.HasSeat credentials) :
    config.claimedSeat? credentials = none := by
  apply Option.eq_none_iff_forall_ne_some.mpr
  intro seat hseat
  exact h (hasSeat_iff.mpr ⟨seat, hseat⟩)

theorem targetIndex?_eq_none (h : ¬ IsEntry config.roomCapacity target.toInt) :
    config.targetIndex? target = none := by
  apply Option.eq_none_iff_forall_ne_some.mpr
  intro index hindex
  exact h (isEntry_target_iff.mpr ⟨index, hindex⟩)

/-- The wire number of an index that may be targeted is what named it. -/
theorem of_targetIndex? {index : SeatIndex} (h : config.targetIndex? target = some index) :
    target = index.toWire ∧ index.position < config.roomCapacity := by
  obtain ⟨hwire, hlt⟩ := Option.filter_eq_some_iff.mp h
  refine ⟨?_, of_decide_eq_true hlt⟩
  rw [SeatIndex.ofWire?] at hwire
  split at hwire
  · cases hwire
  · cases hwire
    exact (Int8.toInt8_toUInt8 target).symm

end Config

/-- Whoever is recognised by a seat that it claims sits there. -/
theorem World.Consistent.seat_of_claimedSeat? {config : Config} {world : World}
    {credentials : Wire.Credentials} {session : Session} {seat : Seat}
    (h : world.Consistent config) (hconfig : config.Bounded)
    (hfound : world.lobby.findByCredentials credentials = some session)
    (hclaimed : config.claimedSeat? credentials = some seat) : session.seat = some seat := by
  cases hseat : session.seat with
  | none =>
      obtain ⟨-, -, -, hwire⟩ := Lobby.of_findByCredentials h.lobby hfound
      rw [hseat] at hwire
      obtain ⟨hroom, -⟩ := Prod.mk.inj hwire
      simp only [Config.claimedSeat?, Seat.ofWire?, ← hroom] at hclaimed
      cases hclaimed
  | some own =>
      rw [← hclaimed]
      exact (h.claimedSeat?_of_findByCredentials hconfig hfound hseat).symm

end RoomRelay
