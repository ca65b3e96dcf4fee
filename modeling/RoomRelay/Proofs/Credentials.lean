import RoomRelay.Proofs.Membership.World
import RoomRelay.Proofs.Recognition
import RoomRelay.Proofs.Settings

/-!
# What sessions are called

On the wire a session goes by its token, its slot and its seat. With settings that pass the checks
these numbers fit their signed fields. So a live session is recognised by its own credentials, and
the seat that recognised credentials claim is the seat of their session.
-/

namespace RoomRelay

theorem not_toInt16_neg {number : UInt16} (h : number.toNat ≤ maxWireNumber) :
    ¬ number.toInt16 < 0 := by
  have hvalue : number.toInt16.toInt = number.toNat :=
    BitVec.toInt_eq_toNat_of_lt (x := number.toBitVec) (by
      change 2 * number.toNat < 65536
      simp only [maxWireNumber] at h
      omega)
  rw [Int16.lt_iff_toInt_lt, hvalue]
  exact Int.not_lt.mpr (Int.natCast_nonneg _)

theorem not_toInt8_neg {number : UInt8} (h : number.toNat < maxRoomCapacity) :
    ¬ number.toInt8 < 0 := by
  have hvalue : number.toInt8.toInt = number.toNat :=
    BitVec.toInt_eq_toNat_of_lt (x := number.toBitVec) (by
      change 2 * number.toNat < 256
      simp only [maxRoomCapacity] at h
      omega)
  rw [Int8.lt_iff_toInt_lt, hvalue]
  exact Int.not_lt.mpr (Int.natCast_nonneg _)

theorem SlotId.ofWire?_toWire {slot : SlotId} (h : slot.position ≤ maxWireNumber) :
    SlotId.ofWire? slot.toWire = some slot := by
  rw [ofWire?, toWire, if_neg (not_toInt16_neg h), UInt16.toUInt16_toInt16]

theorem RoomId.ofWire?_toWire {room : RoomId} (h : room.position ≤ maxWireNumber) :
    RoomId.ofWire? room.toWire = some room := by
  rw [ofWire?, toWire, if_neg (not_toInt16_neg h), UInt16.toUInt16_toInt16]

theorem SeatIndex.ofWire?_toWire {index : SeatIndex} (h : index.position < maxRoomCapacity) :
    SeatIndex.ofWire? index.toWire = some index := by
  rw [ofWire?, toWire, if_neg (not_toInt8_neg h), UInt8.toUInt8_toInt8]

/-- An index that rooms have may be targeted. -/
theorem Config.Bounded.targetIndex?_toWire {config : Config} (h : config.Bounded)
    {index : SeatIndex} (hlt : index.position < config.roomCapacity) :
    config.targetIndex? index.toWire = some index := by
  have hfits := SeatIndex.ofWire?_toWire (Nat.lt_of_lt_of_le hlt h.roomCapacity_le)
  rw [Config.targetIndex?, hfits, Option.filter_some, if_pos (decide_eq_true hlt)]

/-- The wire numbers of a seat that the server has name it. -/
theorem Config.Bounded.ofWire?_of_toWire {config : Config} (h : config.Bounded)
    {credentials : Wire.Credentials} {seat : Seat}
    (hwire : Seat.toWire (some seat) = (credentials.room, credentials.index))
    (hroom : seat.room.position < config.roomCount)
    (hindex : seat.index.position < config.roomCapacity) :
    Seat.ofWire? credentials.room credentials.index = some seat := by
  have hroom' : credentials.room = seat.room.toWire := (congrArg Prod.fst hwire).symm
  have hindex' : credentials.index = seat.index.toWire := (congrArg Prod.snd hwire).symm
  have hfits := h.roomCount_le
  rw [Seat.ofWire?, hroom', hindex', RoomId.ofWire?_toWire (by omega),
    SeatIndex.ofWire?_toWire (Nat.lt_of_lt_of_le hindex h.roomCapacity_le)]
  rfl

/-- A seat that the server has may be claimed. -/
theorem Config.Bounded.claimedSeat?_of_toWire {config : Config} (h : config.Bounded)
    {credentials : Wire.Credentials} {seat : Seat}
    (hwire : Seat.toWire (some seat) = (credentials.room, credentials.index))
    (hroom : seat.room.position < config.roomCount)
    (hindex : seat.index.position < config.roomCapacity) :
    config.claimedSeat? credentials = some seat := by
  rw [Config.claimedSeat?, h.ofWire?_of_toWire hwire hroom hindex, Option.filter_some,
    if_pos (by simp [hroom, hindex])]

namespace World.Consistent

variable {config : Config} {world : World} {credentials : Wire.Credentials} {session : Session}
variable {slot : SlotId} {seat : Seat}

theorem room_lt (h : world.Consistent config) (hseat : world.lobby.seat? slot = some seat) :
    seat.room.position < config.roomCount := by
  obtain ⟨room, hroom⟩ := h.seated hseat
  obtain ⟨hlt, -⟩ := Array.getElem?_eq_some_iff.mp hroom
  have hsize : world.rooms.rooms.size = min config.roomCount 65536 := h.size_eq
  omega

theorem room_le (h : world.Consistent config) (hconfig : config.Bounded)
    (hseat : world.lobby.seat? slot = some seat) : seat.room.position ≤ maxWireNumber :=
  Nat.le_of_lt (Nat.lt_of_lt_of_le (h.room_lt hseat) hconfig.roomCount_le)

theorem index_lt (h : world.Consistent config) (hseat : world.lobby.seat? slot = some seat) :
    seat.index.position < config.roomCapacity := by
  obtain ⟨room, hroom⟩ := h.seated hseat
  have hcell := Room.member?_eq_some_iff.mp ((h.member?_iff hroom).mpr hseat)
  obtain ⟨hlt, -⟩ := Array.getElem?_eq_some_iff.mp hcell
  rw [← (h.room hroom).capacity_eq]
  exact hlt

/-- Credentials that are recognised claim the seat of their session. -/
theorem claimedSeat?_of_findByCredentials (h : world.Consistent config) (hconfig : config.Bounded)
    (hfound : world.lobby.findByCredentials credentials = some session)
    (hseat : session.seat = some seat) : config.claimedSeat? credentials = some seat := by
  obtain ⟨-, hget, -, hwire⟩ := Lobby.of_findByCredentials h.lobby hfound
  have hseated : world.lobby.seat? session.slot = some seat := by
    rw [Lobby.seat?_of_get? hget, hseat]
  rw [hseat] at hwire
  exact hconfig.claimedSeat?_of_toWire hwire (h.room_lt hseated) (h.index_lt hseated)

/-- A live session is recognised by its own credentials. -/
theorem findByCredentials_credentials (h : world.Consistent config) (hconfig : config.Bounded)
    (hget : world.lobby.get? session.slot = some session) :
    world.lobby.findByCredentials session.credentials = some session := by
  have hlt := h.lobby.position_lt hget
  have hslot : SlotId.ofWire? session.slot.toWire = some session.slot :=
    SlotId.ofWire?_toWire (Nat.le_of_lt (Nat.lt_of_lt_of_le hlt hconfig.lobbyCapacity_le))
  refine Lobby.findByCredentials_eq_some_iff.mpr ⟨?_, rfl⟩
  exact Lobby.findByToken_eq_some_iff.mpr ⟨session.slot, hslot, hget, rfl⟩

/-- Credentials find a session just in case it is live and they are its own. -/
theorem findByCredentials_iff (h : world.Consistent config) (hconfig : config.Bounded) :
    world.lobby.findByCredentials credentials = some session ↔
      (∃ slot, world.lobby.get? slot = some session) ∧ session.credentials = credentials := by
  constructor
  · intro hfound
    obtain ⟨hslot, hget, htoken, hseat⟩ := Lobby.of_findByCredentials h.lobby hfound
    refine ⟨⟨session.slot, hget⟩, ?_⟩
    rw [Session.credentials, hseat, htoken, SlotId.toWire_of_ofWire? hslot]
  · rintro ⟨⟨slot, hget⟩, rfl⟩
    obtain rfl := h.lobby.slot_eq hget
    exact h.findByCredentials_credentials hconfig hget

end World.Consistent

end RoomRelay
