import RoomRelay.Session.Basic

/-!
# Activity and marks

Recording activity of a session changes where and when it was last heard of. Marking a session
changes one bit of its flags: only the last mark counts, a session that is marked as it should be
stays as it is, and nothing but the flags is affected.
-/

namespace RoomRelay.Session

section Touch

variable (session : Session) (peer : SocketAddress) (now : Instant)

@[simp] theorem slot_touch : (session.touch peer now).slot = session.slot := rfl

@[simp] theorem token_touch : (session.touch peer now).token = session.token := rfl

@[simp] theorem peer_touch : (session.touch peer now).peer = peer := rfl

@[simp] theorem lastActive_touch : (session.touch peer now).lastActive = now := rfl

end Touch

/-- A session that is heard of at this moment is not idle. -/
theorem idle_of_lastActive {session : Session} {now : Instant} (h : session.lastActive = now) :
    session.idle now = 0 := by
  rw [idle, h, Instant.since, Nat.sub_self]

theorem isMaster_setMaster (session : Session) (master : Bool) :
    (session.setMaster master).isMaster = master := by
  have marked : ∀ bits : BitVec 8, (bits ||| 1#8) &&& 1#8 ≠ 0#8 := by decide
  have cleared : ∀ bits : BitVec 8, bits &&& ~~~1#8 &&& 1#8 = 0#8 := by decide
  cases master with
  | false =>
      have h : session.flags &&& ~~~1 &&& 1 = 0 :=
        UInt8.toBitVec_inj.mp (cleared session.flags.toBitVec)
      simp [isMaster, setMaster, Wire.masterFlag, h]
  | true =>
      have h : (session.flags ||| 1) &&& 1 ≠ 0 := fun h =>
        marked session.flags.toBitVec (congrArg UInt8.toBitVec h)
      simpa [isMaster, setMaster, Wire.masterFlag] using h

/-- Marking a session as it is marked already changes nothing. -/
theorem setMaster_isMaster (session : Session) : session.setMaster session.isMaster = session := by
  have marked : ∀ bits : BitVec 8, bits &&& 1#8 ≠ 0#8 → bits ||| 1#8 = bits := by decide
  have cleared : ∀ bits : BitVec 8, bits &&& 1#8 = 0#8 → bits &&& ~~~1#8 = bits := by decide
  obtain ⟨slot, device, token, peer, lastActive, seat, flags⟩ := session
  by_cases h : flags &&& 1 = 0
  · have hflags : flags &&& ~~~1 = flags :=
      UInt8.toBitVec_inj.mp (cleared flags.toBitVec (congrArg UInt8.toBitVec h))
    simp [isMaster, setMaster, Wire.masterFlag, h, hflags]
  · have hflags : flags ||| 1 = flags :=
      UInt8.toBitVec_inj.mp (marked flags.toBitVec fun hbits => h (UInt8.toBitVec_inj.mp hbits))
    simp [isMaster, setMaster, Wire.masterFlag, h, hflags]

theorem setMaster_of_isMaster_eq {session : Session} {master : Bool}
    (h : session.isMaster = master) : session.setMaster master = session := by
  rw [← h, setMaster_isMaster]

/-- Of two marks the later one counts. -/
theorem setMaster_setMaster (session : Session) (first second : Bool) :
    (session.setMaster first).setMaster second = session.setMaster second := by
  have remarked : ∀ bits : BitVec 8, bits &&& ~~~1#8 ||| 1#8 = bits ||| 1#8 := by decide
  have unmarked : ∀ bits : BitVec 8, (bits ||| 1#8) &&& ~~~1#8 = bits &&& ~~~1#8 := by decide
  have h₁ : session.flags &&& ~~~1 ||| 1 = session.flags ||| 1 :=
    UInt8.toBitVec_inj.mp (remarked session.flags.toBitVec)
  have h₂ : (session.flags ||| 1) &&& ~~~1 = session.flags &&& ~~~1 :=
    UInt8.toBitVec_inj.mp (unmarked session.flags.toBitVec)
  cases first <;> cases second <;> simp [setMaster, Wire.masterFlag, h₁, h₂, UInt8.or_assoc,
    UInt8.and_assoc]

variable (session : Session) (master : Bool)

@[simp] theorem slot_setMaster : (session.setMaster master).slot = session.slot := by
  cases master <;> rfl

@[simp] theorem device_setMaster : (session.setMaster master).device = session.device := by
  cases master <;> rfl

@[simp] theorem token_setMaster : (session.setMaster master).token = session.token := by
  cases master <;> rfl

@[simp] theorem seat_setMaster : (session.setMaster master).seat = session.seat := by
  cases master <;> rfl

@[simp] theorem lastActive_setMaster :
    (session.setMaster master).lastActive = session.lastActive := by
  cases master <;> rfl

@[simp] theorem peer_setMaster : (session.setMaster master).peer = session.peer := by
  cases master <;> rfl

@[simp] theorem idle_setMaster (now : Instant) :
    (session.setMaster master).idle now = session.idle now := by
  rw [idle, idle, lastActive_setMaster]

end RoomRelay.Session
