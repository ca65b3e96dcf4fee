import RoomRelay.Proofs.Placement
import RoomRelay.Proofs.Recognition

/-!
# What requests do

A request that is not a login is rejected, or it is recognised. If it is rejected it changes
nothing. If it is recognised, what it does to the world is one of four things: activity of the
session is recorded and no more, or the session leaves its seat, or it is closed, or it sits
somewhere and its room elects a master.
-/

namespace RoomRelay

theorem Config.claimedSeat?_lt {config : Config} {credentials : Wire.Credentials} {seat : Seat}
    (h : config.claimedSeat? credentials = some seat) :
    seat.room.position < config.roomCount := by
  obtain ⟨-, h⟩ := Option.filter_eq_some_iff.mp h
  simp only [Bool.and_eq_true, decide_eq_true_eq] at h
  exact h.1

namespace World

variable {config : Config} {world : World} {now : Instant} {peer : SocketAddress}

theorem Consistent.exists_room? (h : world.Consistent config) {id : RoomId}
    (hlt : id.position < config.roomCount) : ∃ room, world.rooms.room? id = some room := by
  have hsize : id.position < world.rooms.rooms.size := by
    have hsmall : id.position < 65536 := id.number.toNat_lt
    have hcount : world.rooms.rooms.size = min config.roomCount 65536 := h.size_eq
    omega
  exact ⟨_, Array.getElem?_eq_getElem hsize⟩

/-- What serving a request that is not a login can come to. -/
inductive Served (config : Config) (now : Instant) (peer : SocketAddress) (world : World)
    (request : Request) : World × Answer → Prop
  | rejected {answer : Answer} (hanswer : answer.IsRejection) :
      Served config now peer world request (world, answer)
  | noted {session : Session} {answer : Answer}
      (hfound : request.recognise? world.lobby = some session) (hkind : request.kind ≠ .logout)
      (hanswer : ¬ answer.IsRejection) :
      Served config now peer world request (world.touch session.slot peer now, answer)
  | left {session : Session} {seat : Seat}
      (hfound : request.recognise? world.lobby = some session) (hkind : request.kind = .leave)
      (hseat : session.seat = some seat) :
      Served config now peer world request
        ((world.touch session.slot peer now).leave session.slot, .status .ok)
  | closed {session : Session} (hfound : request.recognise? world.lobby = some session)
      (hkind : request.kind = .logout) :
      Served config now peer world request ((world.remove session.slot).1, .status .ok)
  | settled {session : Session} {seat : Seat} {seated : World} {room : Room} {answer : Answer}
      (hfound : request.recognise? world.lobby = some session)
      (hkind : request.kind = .create ∨ request.kind = .join)
      (hseated : seated = world.touch session.slot peer now ∨
        SitsDown session.slot seat (world.touch session.slot peer now) seated)
      (hconsistent : seated.Consistent config)
      (hseat : seated.lobby.seat? session.slot = some seat)
      (hroom : seated.rooms.room? seat.room = some room) (hanswer : ¬ answer.IsRejection) :
      Served config now peer world request
        ((seated.elect room now config.masterTimeout).1, answer)

variable {request : Request}

@[simp] theorem get?_touch_self (slot : SlotId) (peer : SocketAddress) (now : Instant) :
    (world.touch slot peer now).lobby.get? slot =
      (world.lobby.get? slot).map (·.touch peer now) :=
  world.lobby.get?_touch_self slot peer now

theorem touch_touch (world : World) (slot : SlotId) (peer : SocketAddress) (now : Instant) :
    (world.touch slot peer now).touch slot peer now = world.touch slot peer now :=
  congrArg (fun lobby => (⟨world.tokens, lobby, world.rooms⟩ : World))
    (world.lobby.touch_touch slot peer now)

theorem isSome_get?_touch (h : world.lobby.get? session.slot = some session) :
    ((world.touch session.slot peer now).lobby.get? session.slot).isSome := by
  simp [h]

/-- A request for a seat ends in a refusal or on a seat. -/
theorem served_settle (h : world.Consistent config)
    (hfound : request.recognise? world.lobby = some session)
    (hkind : request.kind = .create ∨ request.kind = .join) {attempt : World → World × Bool}
    (hattempt : (world.touch session.slot peer now).Attempts session.slot
      (attempt (world.touch session.slot peer now)))
    {refusal : Wire.Status} (hrefusal : refusal ≠ .expired)
    {answer : Seat → Room → UInt8 → Answer}
    (hanswer : ∀ seat room flags, ¬ (answer seat room flags).IsRejection) :
    Served config now peer world request
      ((world.touch session.slot peer now).settle config now session.slot attempt refusal
        answer) := by
  have hlive := (Request.of_recognise? h.lobby hfound).1
  rcases settle_cases now refusal answer (h.touch session.slot peer now)
    (isSome_get?_touch hlive) hattempt with
    hrefused | ⟨seat, seated, room, hseated, hconsistent, hseat, hroom, hsettled⟩
  · rw [hrefused]
    refine .noted hfound ?_ ?_
    · rcases hkind with hkind | hkind <;> simp [hkind]
    · simpa [Answer.IsRejection] using hrefusal
  · rw [hsettled]
    exact .settled hfound hkind hseated hconsistent hseat hroom (hanswer _ _ _)

/-- A packet for members is rejected, or recorded as activity of the sender. -/
theorem ForMembers.served (h : world.Consistent config) {credentials : Wire.Credentials}
    {serve : World → World × Answer} (members : ForMembers config now peer credentials serve)
    (hrecognise : request.recognise? world.lobby = world.lobby.findByCredentials credentials)
    (hkind : request.kind ≠ .logout) : Served config now peer world request (serve world) := by
  cases members with
  | dropped => exact .rejected (.inl rfl)
  | @answered seat answer hseat hanswer =>
      change Served config now peer world request
        (world.answerMember now peer credentials seat answer)
      cases hfound : world.lobby.findByCredentials credentials with
      | none =>
          rw [answerMember_of_eq_none hfound]
          exact .rejected (.inr rfl)
      | some session =>
          obtain ⟨room, hroom⟩ := h.exists_room? (Config.claimedSeat?_lt hseat)
          rw [answerMember_of_eq_some hfound, hroom]
          exact .noted (hrecognise.trans hfound) hkind (hanswer _ _)

theorem served_servePing (ping : Wire.Ping) :
    Served config now peer world (.ping ping) (world.servePing now peer ping) := by
  cases hfound : world.lobby.findByCredentials ping.credentials with
  | none =>
      rw [servePing_of_eq_none hfound]
      exact .rejected (.inr rfl)
  | some session =>
      rw [servePing_of_eq_some hfound]
      have hrecognised : (Request.ping ping).recognise? world.lobby = some session := hfound
      exact .noted hrecognised nofun (by simp [Answer.IsRejection])

theorem served_serveCreate (hconfig : config.Bounded) (h : world.Consistent config)
    (create : Wire.Create) :
    Served config now peer world (.create create) (world.serveCreate config now peer create) := by
  cases hfound : world.lobby.findByToken create.token create.slot with
  | none =>
      rw [serveCreate_of_eq_none hfound]
      exact .rejected (.inr rfl)
  | some session =>
      rw [serveCreate_of_eq_some hfound]
      have hrecognised : (Request.create create).recognise? world.lobby = some session := hfound
      refine served_settle h hrecognised (.inl rfl) ?_ (by decide) fun _ _ _ => ?_
      · exact attempts_create hconfig (h.touch session.slot peer now) now create.terms
      · simp [Answer.IsRejection]

theorem served_serveJoin (h : world.Consistent config) (join : Wire.Join) :
    Served config now peer world (.join join) (world.serveJoin config now peer join) := by
  cases hfound : world.lobby.findByToken join.token join.slot with
  | none =>
      rw [serveJoin_of_eq_none hfound]
      exact .rejected (.inr rfl)
  | some session =>
      rw [serveJoin_of_eq_some hfound]
      have hrecognised : (Request.join join).recognise? world.lobby = some session := hfound
      refine served_settle h hrecognised (.inr rfl) ?_ (by decide) fun _ _ _ => ?_
      · exact attempts_matchmake join.ranges now
      · simp [Answer.IsRejection]

theorem served_serveLeave (h : world.Consistent config) (leave : Wire.Leave) :
    Served config now peer world (.leave leave) (world.serveLeave now peer leave) := by
  cases hfound : world.lobby.findByCredentials leave.credentials with
  | none =>
      rw [serveLeave_of_eq_none hfound]
      exact .rejected (.inr rfl)
  | some session =>
      rw [serveLeave_of_eq_some hfound]
      have hrecognised : (Request.leave leave).recognise? world.lobby = some session := hfound
      cases hseat : session.seat with
      | none =>
          have hget := (Request.of_recognise? h.lobby hrecognised).1
          have hunseated := (seat?_touch_of_get? hget peer now).trans hseat
          rw [leave_eq_self _ _ hunseated]
          exact .noted hrecognised nofun (by simp [Answer.IsRejection])
      | some seat => exact .left hrecognised rfl hseat

theorem served_serveLogout (logout : Wire.Logout) :
    Served config now peer world (.logout logout) (world.serveLogout config logout) := by
  rcases world.serveLogout_cases config logout with h | h | ⟨session, hfound, h⟩
  · rw [h]
    exact .rejected (.inl rfl)
  · rw [h]
    exact .rejected (.inr rfl)
  · rw [h]
    have hrecognised : (Request.logout logout).recognise? world.lobby = some session := hfound
    exact .closed hrecognised rfl

/-- Every request that is not a login is served in one of these ways. -/
theorem served_serve (now : Instant) (peer : SocketAddress) (hconfig : config.Bounded)
    (h : world.Consistent config) (hlogin : request.kind ≠ .login) :
    Served config now peer world request (world.serve config now peer request) := by
  cases request with
  | login _ => exact absurd rfl hlogin
  | ping ping => exact served_servePing ping
  | create create => exact served_serveCreate hconfig h create
  | join join => exact served_serveJoin h join
  | leave leave => exact served_serveLeave h leave
  | logout logout => exact served_serveLogout logout
  | unreliable header =>
      exact (forMembers_serveUnreliable config now peer header).served h rfl nofun
  | reliable header => exact (forMembers_serveReliable config now peer header).served h rfl nofun
  | relied relied => exact (forMembers_serveRelied config now peer relied).served h rfl nofun

/-- A request that no session recognises is rejected. -/
theorem serve_of_recognise?_eq_none (now : Instant) (peer : SocketAddress)
    (hconfig : config.Bounded) (h : world.Consistent config) (hlogin : request.kind ≠ .login)
    (hnone : request.recognise? world.lobby = none) :
    (world.serve config now peer request).1 = world ∧
      (world.serve config now peer request).2.IsRejection := by
  have served := served_serve now peer hconfig h hlogin
  generalize world.serve config now peer request = result at served ⊢
  cases served with
  | rejected hanswer => exact ⟨rfl, hanswer⟩
  | noted hfound _ _ | left hfound _ _ | closed hfound _ | settled hfound _ _ _ _ _ _ =>
      rw [hnone] at hfound
      cases hfound

end World

end RoomRelay
