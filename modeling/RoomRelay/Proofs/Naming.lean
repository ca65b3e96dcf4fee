import RoomRelay.Proofs.Credentials
import RoomRelay.Proofs.History
import RoomRelay.Proofs.Reply

/-!
# Credentials and sessions

Live sessions and the credentials that are recognised correspond one to one: credentials find a
session just in case it is live and they are its own. What the server reads off them is then what
the session is. A session keeps its slot and its token while it lives, so credentials that were once
handed out go on finding it as long as it has the seat that they name.
-/

namespace RoomRelay

/-- Whether the numbers of some credentials, read as the server reads them, are those of a session.
Two negative numbers stand for the lack of a seat, and only for that. -/
structure Config.Reads (config : Config) (credentials : Wire.Credentials) (session : Session) :
    Prop where
  slot : SlotId.ofWire? credentials.slot = some session.slot
  seat : Seat.ofWire? credentials.room credentials.index = session.seat
  unseated : session.seat = none ↔ credentials.room = -1 ∧ credentials.index = -1
  claimed : ∀ seat, session.seat = some seat → config.claimedSeat? credentials = some seat

/-- The credentials that a client takes from an answer to its request: those that a login is
answered with, or its own with the seat that it is told. -/
def Request.credentialsFrom? (request : Request) (answer : List UInt8) : Option Wire.Credentials :=
  match request with
  | .login _ =>
    (Wire.LoginResponse.record.decode answer).toOption.map fun response =>
      { token := response.token, slot := response.slot
        room := response.room, index := response.index }
  | .create request =>
    (Wire.CreateResponse.record.decode answer).toOption.map fun response =>
      { token := request.token, slot := request.slot
        room := response.room, index := response.index }
  | .join request =>
    (Wire.JoinResponse.record.decode answer).toOption.map fun response =>
      { token := request.token, slot := request.slot
        room := response.room, index := response.index }
  | _ => none

/-- A bare status is too short to be read as a record. -/
theorem Wire.Record.toOption_decode_status {α : Type} {record : Wire.Record α}
    (h : Wire.StatusResponse.size < record.size) (response : Wire.StatusResponse) :
    (record.decode response.bytes).toOption = none := by
  have hshort : response.bytes.length < record.size := h
  rw [decode, if_pos hshort]
  rfl

namespace World

variable {config : Config} {world : World} {credentials : Wire.Credentials} {session : Session}

namespace Consistent

theorem reads_of_findByCredentials (h : world.Consistent config) (hconfig : config.Bounded)
    (hfound : world.lobby.findByCredentials credentials = some session) :
    config.Reads credentials session := by
  obtain ⟨hslot, hget, -, hwire⟩ := Lobby.of_findByCredentials h.lobby hfound
  have hseated := Lobby.seat?_of_get? hget
  have hclaimed : ∀ seat, session.seat = some seat → config.claimedSeat? credentials = some seat :=
    fun seat => h.claimedSeat?_of_findByCredentials hconfig hfound
  cases hseat : session.seat with
  | none =>
      rw [hseat] at hwire
      obtain ⟨hroom, hindex⟩ := Prod.mk.inj hwire
      have hnowhere : Seat.ofWire? credentials.room credentials.index = none := by
        rw [← hroom]
        rfl
      exact ⟨hslot, hnowhere.trans hseat.symm,
        ⟨fun _ => ⟨hroom.symm, hindex.symm⟩, fun _ => hseat⟩, hclaimed⟩
  | some seat =>
      rw [hseat] at hwire hseated
      have hsomewhere := hconfig.ofWire?_of_toWire hwire (h.room_lt hseated) (h.index_lt hseated)
      have hwritten : ¬ (credentials.room = -1 ∧ credentials.index = -1) := by
        rintro ⟨hroom, hindex⟩
        rw [hroom, hindex] at hwire
        exact Seat.toWire_some_ne (h.room_le hconfig hseated) hwire
      exact ⟨hslot, hsomewhere.trans hseat.symm,
        iff_of_false (by rw [hseat]; exact Option.some_ne_none seat) hwritten, hclaimed⟩

end Consistent

/-- Whether a session is still the same one later on, wherever it sits then. -/
structure StillLives (later : World) (session session' : Session) : Prop where
  get? : later.lobby.get? session.slot = some session'
  token_eq : session'.token = session.token
  device_eq : session'.device = session.device

theorem StillLives.trans {mid later : World} {session session' session'' : Session}
    (first : mid.StillLives session session') (second : later.StillLives session' session'')
    (hslot : session'.slot = session.slot) : later.StillLives session session'' where
  get? := by rw [← hslot, second.get?]
  token_eq := second.token_eq.trans first.token_eq
  device_eq := second.device_eq.trans first.device_eq

/-- A session whose slot is not free after an event is still there. -/
theorem stillLives_handle (hconfig : config.Bounded) (h : world.Consistent config)
    (event : Event) (hget : world.lobby.get? session.slot = some session)
    (htaken : ((world.handle config event).lobby.get? session.slot).isSome) :
    ∃ session', (world.handle config event).StillLives session session' := by
  obtain ⟨session', hget'⟩ := Option.isSome_iff_exists.mp htaken
  rcases shrinks_or_opens hconfig h event with hshrinks | ⟨fresh, hopens⟩
  · obtain ⟨old, hold, -, hdevice, htoken⟩ := hshrinks.get? hget'
    obtain rfl := Option.some.inj (hget.symm.trans hold)
    exact ⟨session', hget', htoken, hdevice⟩
  · have hother : fresh.slot ≠ session.slot := by
      intro heq
      have hfree := hopens.free
      rw [heq, hget] at hfree
      cases hfree
    have hkept : (world.handle config event).lobby.get? session.slot = some session := by
      rw [hopens.get?, if_neg hother, hget]
    exact ⟨session, hkept, rfl, rfl⟩

/-- A session whose slot is never free in a run is still there at its end. -/
theorem stillLives_run (hconfig : config.Bounded) (h : world.Consistent config)
    (hget : world.lobby.get? session.slot = some session) {events : List Event}
    (htaken : ∀ early, early <+: events →
      ((world.run config early).lobby.get? session.slot).isSome) :
    ∃ session', (world.run config events).StillLives session session' := by
  induction events generalizing world session with
  | nil => exact ⟨session, hget, rfl, rfl⟩
  | cons event rest ih =>
      have hafter := h.handle event
      obtain ⟨mid, hmid⟩ := stillLives_handle hconfig h event hget
        (htaken [event] (List.cons_prefix_cons.mpr ⟨rfl, List.nil_prefix⟩))
      have hslot := hafter.lobby.slot_eq hmid.get?
      have hrest : ∀ early, early <+: rest →
          (((world.handle config event).run config early).lobby.get? mid.slot).isSome := by
        intro early hearly
        rw [hslot]
        exact htaken (event :: early) (List.cons_prefix_cons.mpr ⟨rfl, hearly⟩)
      obtain ⟨session', hlast⟩ := ih hafter (by rw [hslot, hmid.get?]) hrest
      exact ⟨session', hmid.trans hlast hslot⟩

/-- Whether credentials go on finding a session: after any run in which its slot is never free, the
session is still there, and they find it just in case it has the seat that it had. -/
def KeepsFinding (config : Config) (world : World) (credentials : Wire.Credentials)
    (session : Session) : Prop :=
  ∀ events, (∀ early, early <+: events →
      ((world.run config early).lobby.get? session.slot).isSome) →
    ∃ session', (world.run config events).StillLives session session' ∧
      ((world.run config events).lobby.findByCredentials credentials = some session' ↔
        session'.seat = session.seat)

theorem keepsFinding_of_findByCredentials (hconfig : config.Bounded)
    (h : world.Consistent config)
    (hfound : world.lobby.findByCredentials credentials = some session) :
    KeepsFinding config world credentials session := by
  intro events htaken
  obtain ⟨-, hget, -, -⟩ := Lobby.of_findByCredentials h.lobby hfound
  obtain ⟨session', hlives⟩ := stillLives_run hconfig h hget htaken
  have later := h.run events
  refine ⟨session', hlives, fun hagain => ?_, fun hseat => ?_⟩
  · have before := h.reads_of_findByCredentials hconfig hfound
    have after := later.reads_of_findByCredentials hconfig hagain
    exact after.seat.symm.trans before.seat
  · exact Lobby.findByCredentials_of_get? h.lobby hfound hlives.get? hlives.token_eq hseat

section HandedOut

variable {now : Instant} {peer : SocketAddress} {scratch : Scratch} {frame : RoomRelay.Frame}

/-- A record that was sent is read as the message that was sent. -/
theorem toOption_decode_of_mem {α : Type} {record : Wire.Record α} {message : α}
    (hsize : record.size ≤ Wire.maxDatagram)
    (h : frame ∈ (scratch.write peer (record.encode message)).2) :
    (record.decode frame.bytes).toOption = some message := by
  rw [scratch.snd_write_record peer hsize, List.mem_singleton] at h
  rw [h, record.decode_bytes]
  rfl

/-- Nothing is handed out with a bare status. -/
theorem credentialsFrom?_of_status {status : Wire.Status} {kind : Wire.Kind} (request : Request)
    (h : frame ∈ ((Answer.status status).frames scratch kind peer).2) :
    request.credentialsFrom? frame.bytes = none := by
  rw [Answer.frames_status, List.mem_singleton] at h
  subst h
  cases request with
  | login _ => rw [Request.credentialsFrom?, Wire.Record.toOption_decode_status (by decide)]; rfl
  | create _ => rw [Request.credentialsFrom?, Wire.Record.toOption_decode_status (by decide)]; rfl
  | join _ => rw [Request.credentialsFrom?, Wire.Record.toOption_decode_status (by decide)]; rfl
  | _ => rfl

/-- What a client takes from the answer to its login finds a session. -/
theorem Welcomed.exists_findByCredentials {login : Wire.Login} {served : World × Answer}
    (h : Welcomed world peer login.device served) (hconfig : config.Bounded)
    (hafter : served.1.Consistent config)
    (hframe : frame ∈ (served.2.frames scratch .login peer).2)
    (hcredentials : (Request.login login).credentialsFrom? frame.bytes = some credentials) :
    ∃ session, served.1.lobby.findByCredentials credentials = some session := by
  cases h with
  | refused _ _ =>
      rw [credentialsFrom?_of_status _ hframe] at hcredentials
      cases hcredentials
  | @welcomed after session _ hget _ _ =>
      rw [Request.credentialsFrom?, toOption_decode_of_mem (by decide) hframe] at hcredentials
      cases hcredentials
      exact ⟨session, hafter.findByCredentials_credentials hconfig hget⟩

/-- What a client takes from the answer to its request for a seat finds its session. -/
theorem Sought.exists_findByCredentials {request : Request} {served : World × Answer}
    {refusal : Wire.Status} {answer : Seat → Room → UInt8 → Answer} {token : UInt32} {raw : Int16}
    (h : Sought world now peer token raw refusal answer served) (hconfig : config.Bounded)
    (hworld : world.Consistent config) (hafter : served.1.Consistent config)
    (hanswer : ∀ seat room flags, ∀ frame ∈ ((answer seat room flags).frames scratch request.kind
      peer).2, request.credentialsFrom? frame.bytes =
        some { token, slot := raw, room := seat.room.toWire, index := seat.index.toWire })
    (hframe : frame ∈ (served.2.frames scratch request.kind peer).2)
    (hcredentials : request.credentialsFrom? frame.bytes = some credentials) :
    ∃ session, served.1.lobby.findByCredentials credentials = some session := by
  cases h with
  | expired _ =>
      rw [credentialsFrom?_of_status _ hframe] at hcredentials
      cases hcredentials
  | @found session served hfound hplaced =>
      cases hplaced with
      | refused _ =>
          rw [credentialsFrom?_of_status _ hframe] at hcredentials
          cases hcredentials
      | @placed after session' seat room hget htoken hseat _ =>
          rw [hanswer seat room session'.flags frame hframe] at hcredentials
          cases hcredentials
          obtain ⟨hslot, -, hword⟩ := Lobby.of_findByToken hworld.lobby hfound
          refine ⟨session', (hafter.findByCredentials_iff hconfig).mpr ⟨⟨_, hget⟩, ?_⟩⟩
          rw [Session.credentials, hseat, htoken, hafter.lobby.slot_eq hget]
          exact congrArg₂ (fun token slot => (⟨token, slot, _, _⟩ : Wire.Credentials)) hword
            (SlotId.toWire_of_ofWire? hslot)

/-- What a client takes from an answer finds a session. -/
theorem exists_findByCredentials_of_answer (hconfig : config.Bounded)
    (h : world.Consistent config) {request : Request}
    (hdecode : Request.decode scratch.datagram = .ok request)
    (hframe : frame ∈ (world.dispatch config now scratch peer).frames)
    (hcredentials : request.credentialsFrom? frame.bytes = some credentials) :
    ∃ session,
      (world.dispatch config now scratch peer).world.lobby.findByCredentials credentials =
        some session := by
  have hafter : (world.dispatch config now scratch peer).world.Consistent config :=
    h.handle (.datagram now peer scratch)
  rw [world_dispatch, receive_of_decode _ _ _ _ hdecode] at hafter ⊢
  rw [frames_dispatch, hdecode] at hframe
  cases request with
  | login login =>
      have welcomed := welcomed_serveLogin now peer hconfig h login
      exact welcomed.exists_findByCredentials hconfig hafter hframe hcredentials
  | create create =>
      have sought := sought_serveCreate now peer hconfig h create
      refine sought.exists_findByCredentials hconfig h hafter ?_ hframe hcredentials
      intro seat room flags frame hmem
      rw [Request.credentialsFrom?, toOption_decode_of_mem (by decide) hmem]
      rfl
  | join join =>
      have sought := sought_serveJoin now peer h join
      refine sought.exists_findByCredentials hconfig h hafter ?_ hframe hcredentials
      intro seat room flags frame hmem
      rw [Request.credentialsFrom?, toOption_decode_of_mem (by decide) hmem]
      rfl
  | _ => cases hcredentials

end HandedOut

/-- Credentials find a session just in case it is live and they are its own, and the server reads
off them where it is. They go on finding it as long as it lives on its seat, and so do credentials
that a client takes from an answer. -/
theorem credentials_correspond (hconfig : config.validate = .ok ()) (h : Reachable config world) :
    (∀ credentials session, world.lobby.findByCredentials credentials = some session ↔
      (∃ slot, world.lobby.get? slot = some session) ∧ session.credentials = credentials) ∧
    (∀ credentials session, world.lobby.findByCredentials credentials = some session →
      world.lobby.get? session.slot = some session ∧ config.Reads credentials session ∧
        KeepsFinding config world credentials session) ∧
    ∀ now peer scratch request frame credentials,
      Request.decode scratch.datagram = .ok request →
      frame ∈ (world.dispatch config now scratch peer).frames →
      request.credentialsFrom? frame.bytes = some credentials →
      let after := (world.dispatch config now scratch peer).world
      ∃ session, after.lobby.findByCredentials credentials = some session ∧
        KeepsFinding config after credentials session := by
  have bounded := Config.bounded_of_validate hconfig
  have consistent := Consistent.of_reachable h
  refine ⟨?_, ?_, ?_⟩
  · intro credentials session
    exact consistent.findByCredentials_iff bounded
  · intro credentials session hfound
    obtain ⟨-, hget, -, -⟩ := Lobby.of_findByCredentials consistent.lobby hfound
    exact ⟨hget, consistent.reads_of_findByCredentials bounded hfound,
      keepsFinding_of_findByCredentials bounded consistent hfound⟩
  · intro now peer scratch request frame credentials hdecode hframe hcredentials after
    have consistent' : after.Consistent config := consistent.handle (.datagram now peer scratch)
    obtain ⟨session, hfound⟩ :=
      exists_findByCredentials_of_answer bounded consistent hdecode hframe hcredentials
    exact ⟨session, hfound, keepsFinding_of_findByCredentials bounded consistent' hfound⟩

/-- The first of two devices in a room logs in anew, and what it is told finds its session also
after the second device has left. -/
theorem credentials_of_pair :
    let world := (ofConfig .small).run .small smallPair
    let login : Wire.Login := ⟨Vector.replicate _ 7⟩
    let scratch : Scratch := ⟨.empty, Wire.Login.record.bytes login⟩
    let own : Wire.Credentials := ⟨654988, 0, 0, 0⟩
    let leave : Event :=
      .datagram 4 smallPeer ⟨.empty, Wire.Leave.record.bytes ⟨⟨654989, 1, 0, 1⟩⟩⟩
    let after := (world.dispatch .small 3 scratch (.anyV4 40001)).world
    Config.validate .small = .ok () ∧ Reachable .small world ∧
      Config.claimedSeat? .small own = some ⟨⟨0⟩, ⟨0⟩⟩ ∧
      ∃ frame ∈ (world.dispatch .small 3 scratch (.anyV4 40001)).frames,
        (Request.login login).credentialsFrom? frame.bytes = some own ∧
        ∃ session session', after.lobby.findByCredentials own = some session ∧
          (after.run .small [leave]).StillLives session session' ∧
          (after.run .small [leave]).lobby.findByCredentials own = some session' := by
  intro world login scratch own leave after
  have hconfig : Config.validate .small = .ok () := rfl
  have hreachable : Reachable .small world := ⟨_, rfl⟩
  have hdecode : Request.decode scratch.datagram = .ok (.login login) := by decide +kernel
  let answer : RoomRelay.Frame := ⟨.anyV4 40001,
    Wire.LoginResponse.record.bytes (Wire.LoginResponse.ofCredentials own)⟩
  have hframe : answer ∈ (world.dispatch .small 3 scratch (.anyV4 40001)).frames := by
    decide +kernel
  have htold : (Request.login login).credentialsFrom? answer.bytes = some own := by decide +kernel
  let first : Session :=
    { slot := ⟨0⟩, device := Vector.replicate _ 7, token := ⟨654988, by decide⟩
      peer := .anyV4 40001, lastActive := 3, seat := some ⟨⟨0⟩, ⟨0⟩⟩, flags := Wire.masterFlag }
  have hfirst : after.lobby.findByCredentials own = some first := by decide +kernel
  have hstays : ∀ n < 2, (after.run .small ([leave].take n)).lobby.get? ⟨0⟩ = some first := by
    decide +kernel
  have hbegins : ∀ early, early <+: [leave] →
      ((after.run .small early).lobby.get? ⟨0⟩).isSome := by
    intro early hearly
    rw [List.prefix_iff_eq_take.mp hearly, hstays _ (Nat.lt_succ_of_le hearly.length_le)]
    rfl
  obtain ⟨-, -, hhanded⟩ := credentials_correspond hconfig hreachable
  obtain ⟨session, hfound, hkeeps⟩ :=
    hhanded 3 (.anyV4 40001) scratch (.login login) answer own hdecode hframe htold
  obtain rfl := Option.some.inj (hfirst.symm.trans hfound)
  obtain ⟨session', hlives, hagain⟩ := hkeeps [leave] hbegins
  obtain rfl := Option.some.inj ((hstays 1 (by decide)).symm.trans hlives.get?)
  exact ⟨hconfig, hreachable, by decide, answer, hframe, htold, first, first, hfound, hlives,
    hagain.mpr rfl⟩

end World

end RoomRelay
