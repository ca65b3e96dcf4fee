import Mathlib.Data.List.Nodup
import RoomRelay.Proofs.Identity
import RoomRelay.Proofs.Reply

/-!
# Who is let in

A device that logs in resumes its session if it has one, is given one if a slot is free, and is
refused otherwise. The server goes through the sessions to find the device, through the slots to
find a free one, and looks at a count to tell whether there is one. In every world that it comes to
these agree, and no device has two sessions: a device that is new to the sessions is new to the
lobby, and a login is refused only where every slot is taken.
-/

namespace RoomRelay

namespace World

/-- Whether every device has one live session at most. -/
def DistinctDevices (world : World) : Prop :=
  ∀ slot slot' session session', world.lobby.get? slot = some session →
    world.lobby.get? slot' = some session' → session.device = session'.device → slot = slot'

namespace DistinctDevices

variable {config : Config} {world : World}

theorem ofConfig (config : Config) : (World.ofConfig config).DistinctDevices := by
  intro slot slot' session session' hget
  simp only [World.ofConfig, Lobby.ofCapacity, Lobby.get?, Array.getElem?_replicate] at hget
  split at hget <;> cases hget

/-- Closing sessions gives nobody a second one. -/
theorem shrinks (h : world.DistinctDevices) {after : World} (hshrinks : Shrinks world after) :
    after.DistinctDevices := by
  intro slot slot' session session' hget hget' hdevice
  obtain ⟨old, hold, -, hsame, -⟩ := hshrinks.get? hget
  obtain ⟨old', hold', -, hsame', -⟩ := hshrinks.get? hget'
  exact h slot slot' old old' hold hold' (hsame.symm.trans (hdevice.trans hsame'))

/-- A session is opened for a device that has none. -/
theorem openSession (h : world.DistinctDevices) {device : Wire.Device}
    (hunknown : world.lobby.findByDevice device = none) (peer : SocketAddress) (now : Instant) :
    (world.openSession device peer now).1.DistinctDevices := by
  have hnew : ∀ {slot session}, world.lobby.get? slot = some session → session.device ≠ device :=
    fun hget heq => Lobby.findByDevice_ne_none hget (heq ▸ hunknown)
  cases hslot : (world.openSession device peer now).2 with
  | none =>
      have hlobby : (world.openSession device peer now).1.lobby = world.lobby :=
        Lobby.fst_allocate_of_eq_none hslot
      rw [DistinctDevices, hlobby]
      exact h
  | some opened =>
      intro slot slot' session session' hget hget' hdevice
      rw [get?_openSession hslot] at hget hget'
      split at hget
      · next heq =>
        cases hget
        split at hget'
        · next heq' => exact heq.symm.trans heq'
        · exact absurd hdevice.symm (hnew hget')
      · split at hget'
        · cases hget'
          exact absurd hdevice (hnew hget)
        · exact h slot slot' session session' hget hget' hdevice

theorem handle (h : world.DistinctDevices) (event : Event) :
    (world.handle config event).DistinctDevices := by
  rcases world.moves_handle config event with made | ⟨device, peer, now, hunknown, -, hopened⟩
  · exact h.shrinks (.moves made)
  · rw [hopened]
    exact h.openSession hunknown peer now

theorem of_reachable (h : Reachable config world) : world.DistinctDevices :=
  h.invariant (.ofConfig config) fun _ event before => before.handle event

/-- The session that a device has is the one that is found. -/
theorem findByDevice_eq (h : world.DistinctDevices) (consistent : world.Consistent config)
    {session : Session} (hget : world.lobby.get? session.slot = some session) :
    world.lobby.findByDevice session.device = some session.slot := by
  obtain ⟨slot, hfound⟩ := Option.ne_none_iff_exists'.mp (Lobby.findByDevice_ne_none hget)
  obtain ⟨session', hget', hdevice⟩ := Lobby.of_findByDevice consistent.lobby hfound
  rw [hfound, h slot session.slot session' session hget' hget hdevice]

/-- No device is met twice among the live sessions. -/
theorem nodup_devices (h : world.DistinctDevices) (consistent : world.Consistent config) :
    (world.lobby.sessions.map Session.device).Nodup := by
  refine List.Nodup.map_on ?_ consistent.lobby.nodup_sessions
  intro session hmem session' hmem' hdevice
  have hget := consistent.lobby.mem_sessions.mp hmem
  have hget' := consistent.lobby.mem_sessions.mp hmem'
  rw [h _ _ _ _ hget hget' hdevice, hget'] at hget
  exact (Option.some.inj hget).symm

end DistinctDevices

/-- What a login of a device makes of a world, and what is sent. -/
structure Admission (config : Config) (world : World) (now : Instant) (peer : SocketAddress)
    (device : Wire.Device) (after : World) (sent : List RoomRelay.Frame) : Prop where
  /-- A device that has a session is told its credentials, and its activity is recorded. -/
  resumed : ∀ session ∈ world.lobby.sessions, session.device = device →
    after = (world.modifySession session.slot fun session =>
        { session with peer, lastActive := now }) ∧
      sent = [⟨peer, Wire.LoginResponse.record.bytes
        { status := .ok, token := session.token.word, slot := session.slot.toWire
          room := (Seat.toWire session.seat).1, index := (Seat.toWire session.seat).2 }⟩]
  /-- A new device is given a session in the first free slot, with the next token. -/
  opened : (∀ session ∈ world.lobby.sessions, session.device ≠ device) →
    none ∈ world.lobby.slots →
      ∃ slot : SlotId, world.lobby.slots[slot.position]? = some none ∧
        (∀ position < slot.position, world.lobby.slots[position]? ≠ some none) ∧
        after =
          { tokens := world.tokens.issue.2
            lobby :=
              { slots := world.lobby.slots.setIfInBounds slot.position (some
                  { slot, device, token := world.tokens.issue.1, peer, lastActive := now
                    seat := none, flags := 0 })
                live := world.lobby.live + 1 }
            rooms := world.rooms } ∧
        sent = [⟨peer, Wire.LoginResponse.record.bytes
          { status := .ok, token := world.tokens.issue.1.word, slot := slot.toWire
            room := -1, index := -1 }⟩]
  /-- Where no slot is free, a new device is refused. -/
  refused : (∀ session ∈ world.lobby.sessions, session.device ≠ device) →
    none ∉ world.lobby.slots → after = world ∧ sent = [⟨peer, [2, 2]⟩]
  /-- Nobody is refused for any other reason. -/
  full : sent = [⟨peer, [2, 2]⟩] → ∀ position < config.lobbyCapacity,
    ∃ session, world.lobby.slots[position]? = some (some session)

/-- Who is let in is sent more than a status. -/
theorem loggedIn_ne_refused (response : Wire.LoginResponse) :
    Wire.LoginResponse.record.bytes response ≠ [2, 2] := by
  intro heq
  have hlength : Wire.LoginResponse.record.size = [(2 : UInt8), 2].length := by
    rw [← heq, Wire.Record.length_bytes]
  exact absurd hlength (by decide)

variable {config : Config} {world : World} {now : Instant} {peer : SocketAddress}
variable {scratch : Scratch} {login : Wire.Login}

/-- Where a device has a session, that one is resumed. -/
theorem Consistent.dispatch_of_resumed (h : world.Consistent config)
    (hdistinct : world.DistinctDevices)
    (hdecode : Request.decode scratch.datagram = .ok (.login login)) {session : Session}
    (hmem : session ∈ world.lobby.sessions) (hdevice : session.device = login.device) :
    let dispatched := world.dispatch config now scratch peer
    dispatched.world = world.touch session.slot peer now ∧
      dispatched.frames = [⟨peer, Wire.LoginResponse.record.bytes
        (.ofCredentials session.credentials)⟩] := by
  have hget := h.lobby.mem_sessions.mp hmem
  have hfound := hdistinct.findByDevice_eq h hget
  rw [hdevice] at hfound
  have hwelcome : welcome (world.lobby.touch session.slot peer now) session.slot = _ :=
    welcome_of_get? (get?_touch_of_get? hget peer now)
  have hserve : world.serve config now peer (.login login) = _ :=
    serveLogin_of_findByDevice hfound
  rw [hwelcome] at hserve
  obtain ⟨hworld, hframes⟩ := dispatch_of_serve hdecode hserve
  exact ⟨hworld, hframes.trans (scratch.snd_write_record peer (by decide) _)⟩

/-- A new device is given a session where a slot is free. -/
theorem Consistent.dispatch_of_opened (hconfig : config.Bounded) (h : world.Consistent config)
    (hdecode : Request.decode scratch.datagram = .ok (.login login))
    (hunknown : world.lobby.findByDevice login.device = none)
    (hfull : world.lobby.isFull = false) :
    let dispatched := world.dispatch config now scratch peer
    ∃ slot : SlotId, world.lobby.slots.findIdx? Option.isNone = some slot.position ∧
      dispatched.world =
        { tokens := world.tokens.issue.2
          lobby :=
            { slots := world.lobby.slots.setIfInBounds slot.position
                (some (.fresh slot login.device world.tokens.issue.1 peer now))
              live := world.lobby.live + 1 }
          rooms := world.rooms } ∧
      dispatched.frames = [⟨peer, Wire.LoginResponse.record.bytes (.ofCredentials
        (Session.fresh slot login.device world.tokens.issue.1 peer now).credentials)⟩] := by
  obtain ⟨slot, hslot⟩ := h.exists_openSession hconfig hfull login.device peer now
  obtain ⟨hfind, hlobby⟩ := Lobby.of_allocate hslot
  obtain ⟨hworld, hanswer⟩ := serveLogin_of_openSession hunknown hfull
  have hopened := (get?_openSession hslot slot).trans (if_pos rfl)
  have hserve : world.serve config now peer (.login login) = (_, _) :=
    Prod.ext hworld ((hanswer slot hslot).trans (welcome_of_get? hopened))
  obtain ⟨hafter, hframes⟩ := dispatch_of_serve hdecode hserve
  refine ⟨slot, hfind, hafter.trans ?_, hframes.trans (scratch.snd_write_record peer (by decide) _)⟩
  exact congrArg (fun lobby => (⟨world.tokens.issue.2, lobby, world.rooms⟩ : World)) hlobby

/-- A new device is refused where no slot is free. -/
theorem dispatch_of_refused (hdecode : Request.decode scratch.datagram = .ok (.login login))
    (hunknown : world.lobby.findByDevice login.device = none)
    (hfull : world.lobby.isFull = true) :
    let dispatched := world.dispatch config now scratch peer
    dispatched.world = world ∧ dispatched.frames = [⟨peer, [2, 2]⟩] := by
  have hserve : world.serve config now peer (.login login) = _ :=
    serveLogin_of_isFull hunknown hfull
  obtain ⟨hworld, hframes⟩ := dispatch_of_serve hdecode hserve
  exact ⟨hworld, hframes.trans (Answer.frames_status ..)⟩

/-- A login is served as it should be where no device has two sessions. -/
theorem Consistent.admission (hconfig : config.Bounded) (h : world.Consistent config)
    (hdistinct : world.DistinctDevices)
    (hdecode : Request.decode scratch.datagram = .ok (.login login)) :
    let dispatched := world.dispatch config now scratch peer
    Admission config world now peer login.device dispatched.world dispatched.frames := by
  intro dispatched
  have hunknown : (∀ session ∈ world.lobby.sessions, session.device ≠ login.device) →
      world.lobby.findByDevice login.device = none := by
    intro hnew
    refine (Lobby.findByDevice_eq_none_iff h.lobby).mpr fun slot session hget => ?_
    obtain rfl := h.lobby.slot_eq hget
    exact hnew session (h.lobby.mem_sessions.mpr hget)
  have hroom : none ∈ world.lobby.slots → world.lobby.isFull = false :=
    fun hfree => Bool.eq_false_iff.mpr fun hfull => h.lobby.isFull_iff.mp hfull hfree
  constructor
  case resumed =>
    exact fun session hmem hdevice => h.dispatch_of_resumed hdistinct hdecode hmem hdevice
  case opened =>
    intro hnew hfree
    obtain ⟨slot, hfind, hworld, hframes⟩ :=
      h.dispatch_of_opened hconfig hdecode (hunknown hnew) (hroom hfree)
    obtain ⟨hslot, hlower⟩ := findIdx?_isNone_eq_some_iff.mp hfind
    exact ⟨slot, hslot, hlower, hworld, hframes⟩
  case refused =>
    exact fun hnew htaken =>
      dispatch_of_refused hdecode (hunknown hnew) (h.lobby.isFull_iff.mpr htaken)
  case full =>
    intro hrefused position hlt
    have hsize : position < world.lobby.slots.size :=
      Nat.lt_of_lt_of_eq hlt h.lobby.capacity_eq.symm
    have hsent : ∀ {response}, dispatched.frames ≠
        [⟨peer, Wire.LoginResponse.record.bytes response⟩] := fun {response} hframes =>
      loggedIn_ne_refused response
        (congrArg RoomRelay.Frame.bytes (List.singleton_inj.mp (hframes.symm.trans hrefused)))
    have hnew : ∀ session ∈ world.lobby.sessions, session.device ≠ login.device :=
      fun session hmem hdevice =>
        hsent (h.dispatch_of_resumed hdistinct hdecode hmem hdevice).2
    have htaken : none ∉ world.lobby.slots := by
      intro hfree
      obtain ⟨slot, -, -, hframes⟩ :=
        h.dispatch_of_opened hconfig hdecode (hunknown hnew) (hroom hfree)
      exact hsent hframes
    cases hcell : world.lobby.slots[position] with
    | none => exact absurd (hcell ▸ Array.getElem_mem hsize) htaken
    | some session => exact ⟨session, by rw [Array.getElem?_eq_getElem hsize, hcell]⟩

/-- Logins end to end. In every world that a server with valid settings comes to no two live
sessions are of one device, and every datagram that is a login is served as it should be, from
whatever peer and at whatever reading of the clock. -/
theorem admission_of_dispatch (hconfig : config.validate = .ok ()) (h : Reachable config world) :
    (world.lobby.sessions.map Session.device).Nodup ∧
      ∀ (now : Instant) (peer : SocketAddress) (scratch : Scratch) (login : Wire.Login),
        Request.decode scratch.datagram = .ok (.login login) →
          let dispatched := world.dispatch config now scratch peer
          Admission config world now peer login.device dispatched.world dispatched.frames := by
  have consistent := Consistent.of_reachable h
  have hdistinct := DistinctDevices.of_reachable h
  exact ⟨hdistinct.nodup_devices consistent, fun _ _ _ _ hdecode =>
    consistent.admission (Config.bounded_of_validate hconfig) hdistinct hdecode⟩

/-- A third device finds both slots taken, and the second one comes back from another address. -/
theorem admission_of_third :
    let world := (ofConfig .small).run .small smallPair
    let third : Wire.Login := ⟨Vector.replicate _ 9⟩
    let second : Wire.Login := ⟨Vector.replicate _ 8⟩
    let dispatched (login : Wire.Login) :=
      world.dispatch .small 10 ⟨.empty, Wire.Login.record.bytes login⟩ (.anyV4 40001)
    Config.validate .small = .ok () ∧ Reachable .small world ∧
      (world.lobby.sessions.map Session.device).Nodup ∧
      Admission .small world 10 (.anyV4 40001) third.device (dispatched third).world
        (dispatched third).frames ∧
      (dispatched third).frames = [⟨.anyV4 40001, [2, 2]⟩] ∧
      Admission .small world 10 (.anyV4 40001) second.device (dispatched second).world
        (dispatched second).frames ∧
      (dispatched second).frames = [⟨.anyV4 40001, Wire.LoginResponse.record.bytes
        { status := .ok, token := 654989, slot := 1, room := 0, index := 1 }⟩] := by
  intro world third second dispatched
  have hconfig : Config.validate .small = .ok () := rfl
  have hreachable : Reachable .small world := ⟨smallPair, rfl⟩
  obtain ⟨hdevices, hlogin⟩ := admission_of_dispatch hconfig hreachable
  have hdecode : ∀ login ∈ [third, second],
      Request.decode (Wire.Login.record.bytes login) = .ok (.login login) := by
    decide +kernel
  refine ⟨hconfig, hreachable, hdevices, ?_, by decide +kernel, ?_, by decide +kernel⟩
  · exact hlogin 10 (.anyV4 40001) ⟨.empty, _⟩ third (hdecode third (by simp))
  · exact hlogin 10 (.anyV4 40001) ⟨.empty, _⟩ second (hdecode second (by simp))

end World

end RoomRelay
