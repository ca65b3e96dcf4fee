import RoomRelay.Proofs.Answer
import RoomRelay.Proofs.Identity
import RoomRelay.Proofs.Service
import RoomRelay.Wire.Exact

/-!
# What is replied

A record in reply is made from the world that the request leaves behind. A login is answered with
the credentials that the session of the device has then, or refused where there is none and no slot
is free. A request for a seat is answered with the seat that the session has then and with its
flags, or refused while the session has no seat.
-/

namespace RoomRelay

/-- A record that fits a datagram is sent whole. -/
theorem Scratch.snd_write_record {α : Type} (scratch : Scratch) (peer : SocketAddress)
    {record : Wire.Record α} (h : record.size ≤ Wire.maxDatagram) (message : α) :
    (scratch.write peer (record.encode message)).2 = [⟨peer, record.bytes message⟩] := by
  obtain ⟨written, hencode, hcontents⟩ := record.encode_eq_bytes message scratch.writer h
  simp only [write, hencode, hcontents]

/-- The answer to a login of a session with some credentials. -/
def Wire.LoginResponse.ofCredentials (c : Wire.Credentials) : Wire.LoginResponse :=
  { status := .ok, token := c.token, slot := c.slot, room := c.room, index := c.index }

namespace World

variable {config : Config} {world : World} {now : Instant} {peer : SocketAddress}
variable {session : Session}

theorem get?_touch_of_get? (hget : world.lobby.get? session.slot = some session)
    (peer : SocketAddress) (now : Instant) :
    (world.touch session.slot peer now).lobby.get? session.slot =
      some (session.touch peer now) := by
  simp [hget]

/-- How a login is answered: a new device is refused while no slot is free, and every other one is
told the credentials of its session. -/
inductive Welcomed (world : World) (peer : SocketAddress) (device : Wire.Device) :
    World × Answer → Prop
  | refused (hunknown : world.lobby.findByDevice device = none)
      (hfull : world.lobby.isFull = true) : Welcomed world peer device (world, .status .full)
  | welcomed {after : World} {session : Session}
      (hplace : world.lobby.findByDevice device ≠ none ∨ world.lobby.isFull = false)
      (hget : after.lobby.get? session.slot = some session) (hdevice : session.device = device)
      (hpeer : session.peer = peer) :
      Welcomed world peer device
        (after, .loggedIn (Wire.LoginResponse.ofCredentials session.credentials))

theorem welcome_of_get? {lobby : Lobby} {slot : SlotId} (h : lobby.get? slot = some session) :
    welcome lobby slot =
      .loggedIn (Wire.LoginResponse.ofCredentials session.credentials) := by
  simp only [welcome, h]
  rfl

theorem welcomed_serveLogin (now : Instant) (peer : SocketAddress) (hconfig : config.Bounded)
    (h : world.Consistent config) (login : Wire.Login) :
    Welcomed world peer login.device (world.serveLogin now peer login) := by
  cases hfound : world.lobby.findByDevice login.device with
  | some slot =>
      obtain ⟨session, hget, hdevice⟩ := Lobby.of_findByDevice h.lobby hfound
      obtain rfl := h.lobby.slot_eq hget
      have htouched := get?_touch_of_get? hget peer now
      have hwelcome : welcome (world.lobby.touch session.slot peer now) session.slot = _ :=
        welcome_of_get? htouched
      rw [serveLogin_of_findByDevice hfound, hwelcome]
      exact .welcomed (.inl (by rw [hfound]; exact nofun)) htouched hdevice rfl
  | none =>
      cases hfull : world.lobby.isFull with
      | true =>
          rw [serveLogin_of_isFull hfound hfull]
          exact .refused hfound hfull
      | false =>
          obtain ⟨slot, hslot⟩ := h.exists_openSession hconfig hfull login.device peer now
          obtain ⟨hworld, hanswer⟩ := serveLogin_of_openSession hfound hfull
          have hopened : (world.openSession login.device peer now).1.lobby.get? slot =
              some (Session.fresh slot login.device world.issueToken.2 peer now) := by
            rw [get?_openSession hslot, if_pos rfl]
          have hserve : world.serveLogin now peer login =
              ((world.openSession login.device peer now).1,
                .loggedIn (Wire.LoginResponse.ofCredentials (Session.fresh slot login.device
                  world.issueToken.2 peer now).credentials)) := by
            rw [← welcome_of_get? hopened, ← hanswer slot hslot, ← hworld]
          rw [hserve]
          exact .welcomed (.inr hfull) hopened rfl rfl

/-- How a request for a seat is answered: it is refused without effect, since no seat was found for
a session that has none, or answered from the session, its seat and its room as they are then. -/
inductive Placed (world : World) (session : Session) (refusal : Wire.Status)
    (answer : Seat → Room → UInt8 → Answer) : World × Answer → Prop
  | refused (hseat : session.seat = none) :
      Placed world session refusal answer (world, .status refusal)
  | placed {after : World} {session' : Session} {seat : Seat} {room : Room}
      (hget : after.lobby.get? session.slot = some session')
      (htoken : session'.token = session.token) (hseat : session'.seat = some seat)
      (hroom : after.rooms.room? seat.room = some room) :
      Placed world session refusal answer (after, answer seat room session'.flags)

/-- Whoever has a seat before the election in its room is answered from that seat. -/
theorem placed_of_seat? {seated : World} {seat : Seat} {room : Room} {refusal : Wire.Status}
    {answer : Seat → Room → UInt8 → Answer}
    (hget : world.lobby.get? session.slot = some session)
    (hseated : seated.lobby.seat? session.slot = some seat)
    (hroom : seated.rooms.room? seat.room = some room)
    (hshrinks : Shrinks world (seated.elect room now config.masterTimeout).1) :
    let elected := (seated.elect room now config.masterTimeout).1
    Placed world session refusal answer
      (elected, answer seat room (elected.lobby.flags session.slot)) := by
  intro elected
  obtain ⟨session', hget', hseat', hflags⟩ :=
    exists_get?_elect hseated room now config.masterTimeout
  obtain ⟨old, hold, -, -, htoken⟩ := hshrinks.get? hget'
  obtain rfl := Option.some.inj (hget.symm.trans hold)
  rw [show elected.lobby.flags session.slot = session'.flags from hflags]
  exact .placed hget' htoken hseat' hroom

theorem placed_settle (session : Session) (h : world.Consistent config)
    (hget : world.lobby.get? session.slot = some session) {attempt : World → World × Bool}
    (hattempt : world.Attempts session.slot (attempt world))
    (hmoves : Moves world (attempt world).1) (refusal : Wire.Status)
    (answer : Seat → Room → UInt8 → Answer) :
    Placed world session refusal answer
      (world.settle config now session.slot attempt refusal answer) := by
  have hshrinks := Shrinks.moves
    (moves_settle world config now session.slot attempt hmoves refusal answer)
  have hseat? := Lobby.seat?_of_get? hget
  cases hseat : session.seat with
  | some seat =>
      rw [hseat] at hseat?
      obtain ⟨room, hroom⟩ := h.seated hseat?
      rw [settle_of_seat? hseat? hroom] at hshrinks ⊢
      exact placed_of_seat? hget hseat? hroom hshrinks
  | none =>
      have hlive : (world.lobby.get? session.slot).isSome := by simp [hget]
      rcases settle_cases now refusal answer h hlive hattempt with
        hrefused | ⟨seat, seated, room, -, -, hseated, hroom, hsettled⟩
      · rw [hrefused]
        exact .refused hseat
      · rw [hsettled] at hshrinks ⊢
        exact placed_of_seat? hget hseated hroom hshrinks

/-- The answer to the creation of a room. -/
def createAnswer (seat : Seat) (_ : Room) (flags : UInt8) : Answer :=
  .created { status := .ok, room := seat.room.toWire, index := seat.index.toWire, flags }

/-- The answer to a request for a seat in any room that suits. -/
def joinAnswer (seat : Seat) (room : Room) (flags : UInt8) : Answer :=
  .joined
    { status := .ok, room := seat.room.toWire, index := seat.index.toWire, flags
      properties := room.terms.properties }

/-- How a request for a seat that names a token and a slot is answered. -/
inductive Sought (world : World) (now : Instant) (peer : SocketAddress) (token : UInt32)
    (raw : Int16) (refusal : Wire.Status) (answer : Seat → Room → UInt8 → Answer) :
    World × Answer → Prop
  | expired (hnone : world.lobby.findByToken token raw = none) :
      Sought world now peer token raw refusal answer (world, .status .expired)
  | found {session : Session} {served : World × Answer}
      (hfound : world.lobby.findByToken token raw = some session)
      (hplaced : Placed (world.touch session.slot peer now) (session.touch peer now) refusal answer
        served) : Sought world now peer token raw refusal answer served

/-- Whoever is found is refused, having no seat, or answered from the seat that it has then. -/
theorem Sought.of_findByToken {token : UInt32} {raw : Int16} {refusal : Wire.Status}
    {answer : Seat → Room → UInt8 → Answer} {after : World} {given : Answer}
    (h : Sought world now peer token raw refusal answer (after, given))
    (hfound : world.lobby.findByToken token raw = some session) :
    session.seat = none ∧ given = .status refusal ∨
      ∃ session' seat room, after.lobby.get? session.slot = some session' ∧
        session'.token = session.token ∧ session'.seat = some seat ∧
        after.rooms.room? seat.room = some room ∧ given = answer seat room session'.flags := by
  cases h with
  | expired hnone =>
      rw [hnone] at hfound
      cases hfound
  | found hother hplaced =>
      obtain rfl := Option.some.inj (hother.symm.trans hfound)
      cases hplaced with
      | refused hseat => exact .inl ⟨hseat, rfl⟩
      | placed hget htoken hseat hroom => exact .inr ⟨_, _, _, hget, htoken, hseat, hroom, rfl⟩

theorem sought_serveCreate (now : Instant) (peer : SocketAddress) (hconfig : config.Bounded)
    (h : world.Consistent config) (create : Wire.Create) :
    Sought world now peer create.token create.slot .full createAnswer
      (world.serveCreate config now peer create) := by
  cases hfound : world.lobby.findByToken create.token create.slot with
  | none =>
      rw [serveCreate_of_eq_none hfound]
      exact .expired hfound
  | some session =>
      obtain ⟨-, hget, -⟩ := Lobby.of_findByToken h.lobby hfound
      have touched := h.touch session.slot peer now
      rw [serveCreate_of_eq_some hfound]
      apply Sought.found hfound
      exact placed_settle (session.touch peer now) touched (get?_touch_of_get? hget peer now)
        (attempts_create hconfig touched now create.terms)
        (.single (.create _ session.slot now create.terms)) .full createAnswer

theorem sought_serveJoin (now : Instant) (peer : SocketAddress) (h : world.Consistent config)
    (join : Wire.Join) :
    Sought world now peer join.token join.slot .unmatched joinAnswer
      (world.serveJoin config now peer join) := by
  cases hfound : world.lobby.findByToken join.token join.slot with
  | none =>
      rw [serveJoin_of_eq_none hfound]
      exact .expired hfound
  | some session =>
      obtain ⟨-, hget, -⟩ := Lobby.of_findByToken h.lobby hfound
      have touched := h.touch session.slot peer now
      rw [serveJoin_of_eq_some hfound]
      apply Sought.found hfound
      exact placed_settle (session.touch peer now) touched (get?_touch_of_get? hget peer now)
        (attempts_matchmake join.ranges now)
        (moves_matchmake _ now session.slot join.ranges) .unmatched joinAnswer

end World

end RoomRelay
