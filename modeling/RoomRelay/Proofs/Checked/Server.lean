import RoomRelay.Proofs.Checked.Frames
import RoomRelay.Proofs.Checked.World

/-!
# A server that checks everything

Requests are served, datagrams dispatched and sweeps held with every step checked that touches a
table, a byte string or a count. The checked server starts as any other does. It never fails,
whatever settings it has, whatever is done to it and whatever it receives, and it does and sends
what the server does and sends: so that one stays within bounds as well.
-/

namespace RoomRelay

namespace World

/-- Resumes the session of a device that has one, and otherwise opens one with a new token if a
slot is free. -/
def serveLoginChecked (world : World) (now : Instant) (peer : SocketAddress) (login : Wire.Login) :
    Checked (World × Answer) :=
  match world.lobby.findByDevice login.device with
  | some slot =>
    let lobby := world.lobby.touch slot peer now
    return ({ world with lobby }, welcome lobby slot)
  | none =>
    if world.lobby.isFull then return (world, .status .full)
    else do
      let (world, token) := world.issueToken
      match ← world.allocateChecked login.device peer token now with
      | (world, none) => return (world, .status .full)
      | (world, some slot) => return (world, welcome world.lobby slot)

/-- Closes the session. A slot that the lobby does not have is not even refused. -/
def serveLogoutChecked (world : World) (config : Config) (logout : Wire.Logout) :
    Checked (World × Answer) :=
  match SlotId.ofWire? logout.credentials.slot with
  | none => return (world, .drop)
  | some claimed =>
    if claimed.position < config.lobbyCapacity then
      match world.lobby.findByCredentials logout.credentials with
      | none => return (world, .status .expired)
      | some session => do
        let (world, _) ← world.removeChecked session.slot
        return (world, .status .ok)
    else return (world, .drop)

/-- Seats a session that has no seat by an attempt, and answers from the seat it has then. -/
def settleChecked (world : World) (config : Config) (now : Instant) (slot : SlotId)
    (attempt : World → Checked (World × Bool)) (refusal : Wire.Status)
    (answer : Seat → Room → UInt8 → Answer) : Checked (World × Answer) :=
  if (world.lobby.seat? slot).isSome then
    return world.answerSeated config now slot refusal answer
  else do
    let (world, _) ← attempt world
    return world.answerSeated config now slot refusal answer

/-- Opens a room for a session that has no seat. One that has a seat is told where it sits. -/
def serveCreateChecked (world : World) (config : Config) (now : Instant) (peer : SocketAddress)
    (create : Wire.Create) : Checked (World × Answer) :=
  match world.lobby.authenticateToken create.token create.slot peer now with
  | none => return (world, .status .expired)
  | some (lobby, slot) =>
    ({ world with lobby } : World).settleChecked config now slot
      (fun world => do
        let openTimeout ← Checked.mul create.openSeconds.toNat 1000
        world.createChecked slot now
          { openTimeout, properties := create.properties, params := create.params })
      .full fun seat _ flags =>
        .created { status := .ok, room := seat.room.toWire, index := seat.index.toWire, flags }

/-- Finds a seat for a session that has none. One that has a seat is told where it sits. -/
def serveJoinChecked (world : World) (config : Config) (now : Instant) (peer : SocketAddress)
    (join : Wire.Join) : Checked (World × Answer) :=
  match world.lobby.authenticateToken join.token join.slot peer now with
  | none => return (world, .status .expired)
  | some (lobby, slot) =>
    ({ world with lobby } : World).settleChecked config now slot
      (fun world => world.matchmakeChecked slot join.ranges now) .unmatched
      fun seat room flags =>
        .joined
          { status := .ok, room := seat.room.toWire, index := seat.index.toWire, flags
            properties := room.terms.properties }

/-- Gives up the session's seat, if it has one. -/
def serveLeaveChecked (world : World) (now : Instant) (peer : SocketAddress)
    (leave : Wire.Leave) : Checked (World × Answer) :=
  match world.lobby.authenticate leave.credentials peer now with
  | none => return (world, .status .expired)
  | some (lobby, slot) => do
    let world ← ({ world with lobby } : World).leaveChecked slot
    return (world, .status .ok)

/-- Passes an unreliable packet on to the members that it targets. -/
def serveUnreliableChecked (world : World) (config : Config) (now : Instant)
    (peer : SocketAddress) (header : Wire.UnreliableHeader) : Checked (World × Answer) :=
  match config.claimedSeat? header.credentials with
  | none => return (world, .drop)
  | some seat =>
    match world.lobby.authenticate header.credentials peer now with
    | none => return (world, .status .expired)
    | some (lobby, _) =>
      match world.rooms.room? seat.room with
      | none => return ({ world with lobby }, .drop)
      | some room => do
        let recipients ← room.unreliableRecipientsChecked lobby seat.index header.target
        if recipients.count = 0 then return ({ world with lobby }, .silent)
        else do
          let listed ← recipients.listed
          return ({ world with lobby }, .relayUnreliable header listed)

/-- Carries out a request from a peer at a clock reading. Only those requests are named that touch
a table or a count. -/
def serveChecked (world : World) (config : Config) (now : Instant) (peer : SocketAddress) :
    Request → Checked (World × Answer)
  | .login login => world.serveLoginChecked now peer login
  | .logout logout => world.serveLogoutChecked config logout
  | .create create => world.serveCreateChecked config now peer create
  | .join join => world.serveJoinChecked config now peer join
  | .leave leave => world.serveLeaveChecked now peer leave
  | .unreliable header => world.serveUnreliableChecked config now peer header
  | request => return world.serve config now peer request

namespace Consistent

variable {config : Config} {world : World}

theorem serveLoginChecked_eq (h : world.Consistent config) (now : Instant) (peer : SocketAddress)
    (login : Wire.Login) :
    world.serveLoginChecked now peer login = .ok (world.serveLogin now peer login) := by
  rw [serveLoginChecked, serveLogin]
  cases world.lobby.findByDevice login.device with
  | some slot => rfl
  | none =>
      dsimp only
      split
      · rfl
      · have hissued : world.issueToken.1.Consistent config := h.reissue _
        rw [hissued.allocateChecked_eq, Checked.ok_bind]
        rcases world.issueToken.1.allocate login.device peer world.issueToken.2 now with
          ⟨after, _ | slot⟩ <;> rfl

theorem serveLogoutChecked_eq (h : world.Consistent config) (logout : Wire.Logout) :
    world.serveLogoutChecked config logout = .ok (world.serveLogout config logout) := by
  rw [serveLogoutChecked, serveLogout]
  cases SlotId.ofWire? logout.credentials.slot with
  | none => rfl
  | some claimed =>
      dsimp only
      split
      · cases world.lobby.findByCredentials logout.credentials with
        | none => rfl
        | some session =>
            dsimp only
            rw [h.removeChecked_eq, Checked.ok_bind]
            rfl
      · rfl

/-- A session seeks a seat without a fault if the attempt at one meets none. -/
theorem settleChecked_eq {slot : SlotId} {checked : World → Checked (World × Bool)}
    {attempt : World → World × Bool} (h : checked world = .ok (attempt world)) (config : Config)
    (now : Instant) (refusal : Wire.Status) (answer : Seat → Room → UInt8 → Answer) :
    world.settleChecked config now slot checked refusal answer =
      .ok (world.settle config now slot attempt refusal answer) := by
  rw [settleChecked, settle]
  split
  · rfl
  · rw [h, Checked.ok_bind]
    rfl

theorem serveCreateChecked_eq (h : world.Consistent config) (now : Instant)
    (peer : SocketAddress) (create : Wire.Create) :
    world.serveCreateChecked config now peer create =
      .ok (world.serveCreate config now peer create) := by
  cases hfound : world.lobby.findByToken create.token create.slot with
  | none =>
      rw [serveCreate_of_eq_none hfound, serveCreateChecked,
        Lobby.authenticateToken_of_eq_none hfound]
      rfl
  | some session =>
      have hseconds : create.openSeconds.toNat * 1000 ≤ maxSize := by
        have := create.openSeconds.toNat_lt
        simp only [maxSize, UInt64.size]
        omega
      rw [serveCreate_of_eq_some hfound, serveCreateChecked,
        Lobby.authenticateToken_of_eq_some hfound]
      refine settleChecked_eq ?_ config now .full _
      rw [Checked.mul_of_le hseconds, Checked.ok_bind]
      exact (h.touch session.slot peer now).createChecked_eq session.slot now create.terms

theorem serveJoinChecked_eq (h : world.Consistent config) (now : Instant) (peer : SocketAddress)
    (join : Wire.Join) :
    world.serveJoinChecked config now peer join = .ok (world.serveJoin config now peer join) := by
  cases hfound : world.lobby.findByToken join.token join.slot with
  | none =>
      rw [serveJoin_of_eq_none hfound, serveJoinChecked,
        Lobby.authenticateToken_of_eq_none hfound]
      rfl
  | some session =>
      rw [serveJoin_of_eq_some hfound, serveJoinChecked,
        Lobby.authenticateToken_of_eq_some hfound]
      refine settleChecked_eq ?_ config now .unmatched _
      exact (h.touch session.slot peer now).matchmakeChecked_eq session.slot join.ranges now

theorem serveLeaveChecked_eq (h : world.Consistent config) (now : Instant) (peer : SocketAddress)
    (leave : Wire.Leave) :
    world.serveLeaveChecked now peer leave = .ok (world.serveLeave now peer leave) := by
  cases hfound : world.lobby.findByCredentials leave.credentials with
  | none =>
      rw [serveLeave_of_eq_none hfound, serveLeaveChecked, Lobby.authenticate_of_eq_none hfound]
      rfl
  | some session =>
      have hleft := (h.touch session.slot peer now).leaveChecked_eq session.slot
      rw [serveLeave_of_eq_some hfound, serveLeaveChecked, Lobby.authenticate_of_eq_some hfound]
      show ((world.touch session.slot peer now).leaveChecked session.slot >>= fun world =>
        Except.ok (world, Answer.status .ok)) = _
      rw [hleft, Checked.ok_bind]

theorem serveUnreliableChecked_eq (world : World) (config : Config) (now : Instant)
    (peer : SocketAddress) (header : Wire.UnreliableHeader) :
    world.serveUnreliableChecked config now peer header =
      .ok (world.serveUnreliable config now peer header) := by
  rw [serveUnreliableChecked, serveUnreliable]
  cases config.claimedSeat? header.credentials with
  | none => rfl
  | some seat =>
      dsimp only
      rw [answerMember]
      cases world.lobby.authenticate header.credentials peer now with
      | none => rfl
      | some found =>
          obtain ⟨lobby, slot⟩ := found
          dsimp only
          cases world.rooms.room? seat.room with
          | none => rfl
          | some room =>
              obtain ⟨recipients, hcollected, holds⟩ :=
                room.unreliableRecipientsChecked_holds lobby seat.index header.target
              dsimp only
              rw [hcollected, Checked.ok_bind, holds.listed_eq, holds.count_eq]
              cases room.unreliableRecipients lobby seat.index header.target <;> rfl

theorem serveChecked_eq (h : world.Consistent config) (now : Instant) (peer : SocketAddress)
    (request : Request) :
    world.serveChecked config now peer request = .ok (world.serve config now peer request) := by
  cases request with
  | login login => exact h.serveLoginChecked_eq now peer login
  | logout logout => exact h.serveLogoutChecked_eq logout
  | create create => exact h.serveCreateChecked_eq now peer create
  | join join => exact h.serveJoinChecked_eq now peer join
  | leave leave => exact h.serveLeaveChecked_eq now peer leave
  | unreliable header => exact serveUnreliableChecked_eq world config now peer header
  | ping _ | reliable _ | relied _ => rfl

end Consistent

section Fits

variable {datagram : List UInt8} {request : Request}

theorem fits_answerSeated (world : World) (config : Config) (now : Instant) (slot : SlotId)
    (refusal : Wire.Status) {answer : Seat → Room → UInt8 → Answer}
    (h : ∀ seat room flags, (answer seat room flags).Fits datagram) :
    (world.answerSeated config now slot refusal answer).2.Fits datagram := by
  rw [answerSeated]
  split
  · trivial
  · split
    · trivial
    · split
      · trivial
      · exact h _ _ _

theorem fits_answerMember (world : World) (now : Instant) (peer : SocketAddress)
    (credentials : Wire.Credentials) (seat : Seat) {answer : Lobby → Room → Answer}
    (h : ∀ lobby room, (answer lobby room).Fits datagram) :
    (world.answerMember now peer credentials seat answer).2.Fits datagram := by
  rw [answerMember]
  split
  · trivial
  · split
    · trivial
    · exact h _ _

theorem fits_welcome (lobby : Lobby) (slot : SlotId) : (welcome lobby slot).Fits datagram := by
  rw [welcome]
  split <;> trivial

/-- What answers a datagram can be cut from it. -/
theorem fits_serve (world : World) (config : Config) (now : Instant) (peer : SocketAddress)
    (h : Request.decode datagram = .ok request) :
    (world.serve config now peer request).2.Fits datagram := by
  have hack := Request.ackFrameSize_le_of_decode h
  cases request with
  | ping ping =>
      simp only [serve, servePing]
      split <;> trivial
  | login login =>
      simp only [serve, serveLogin]
      split
      · exact fits_welcome _ _
      · split
        · trivial
        · split
          · trivial
          · exact fits_welcome _ _
  | logout logout =>
      rcases world.serveLogout_cases config logout with hserve | hserve | ⟨session, -, hserve⟩ <;>
        rw [serve, hserve] <;> trivial
  | create create =>
      simp only [serve, serveCreate]
      split
      · trivial
      · exact fits_answerSeated _ _ _ _ _ fun _ _ _ => trivial
  | join join =>
      simp only [serve, serveJoin]
      split
      · trivial
      · exact fits_answerSeated _ _ _ _ _ fun _ _ _ => trivial
  | leave leave =>
      simp only [serve, serveLeave]
      split <;> trivial
  | unreliable header =>
      simp only [serve, serveUnreliable]
      split
      · trivial
      · refine fits_answerMember _ _ _ _ _ fun lobby room => ?_
        split
        · trivial
        · exact Request.decode_eq_unreliable_iff.mp h
  | reliable header =>
      simp only [serve, serveReliable]
      split
      · refine fits_answerMember _ _ _ _ _ fun lobby room => ?_
        split
        · exact Request.decode_eq_reliable_iff.mp h
        · exact hack
      · trivial
  | relied relied =>
      simp only [serve, serveRelied]
      split
      · refine fits_answerMember _ _ _ _ _ fun lobby room => ?_
        split
        · exact hack
        · trivial
      · trivial

end Fits

/-- Dispatches a datagram from a peer at a clock reading. What does not decode is dropped. -/
def dispatchChecked (world : World) (config : Config) (now : Instant) (scratch : Scratch)
    (peer : SocketAddress) : Checked Dispatched := do
  match ← (Request.decodeChecked scratch.datagram).run with
  | .error _ => return ⟨world, scratch, []⟩
  | .ok request => do
    let (world, answer) ← world.serveChecked config now peer request
    let (scratch, frames) ← answer.framesChecked scratch request.kind peer
    return ⟨world, scratch, frames⟩

variable {config : Config} {world : World}

theorem Consistent.dispatchChecked_eq (h : world.Consistent config) (now : Instant)
    (scratch : Scratch) (peer : SocketAddress) :
    world.dispatchChecked config now scratch peer =
      .ok (world.dispatch config now scratch peer) := by
  rw [dispatchChecked, dispatch, Request.decodeChecked_eq, Wire.Parse.run_done, Checked.ok_bind]
  cases hdecode : Request.decode scratch.datagram with
  | error e => rfl
  | ok request =>
      have fits := fits_serve world config now peer hdecode
      dsimp only
      rw [h.serveChecked_eq, Checked.ok_bind]
      rw [Answer.framesChecked_eq fits, Checked.ok_bind]
      rfl

end World

/-- Sweeps once. -/
def Sweeper.tickChecked (sweeper : Sweeper) (config : Config) (world : World) (now : Instant) :
    Checked Sweep := do
  let (world, expired) ← world.expireIdleChecked now config.sessionTimeout
  if sweeper.isElectionDue config now then do
    let (world, electedRooms) ← world.electAllChecked now config.masterTimeout
    return ⟨⟨some now⟩, world, ⟨expired, electedRooms⟩⟩
  else return ⟨sweeper, world, ⟨expired, 0⟩⟩

namespace World

variable {config : Config} {world : World}

/-- The world after an action. -/
def actChecked (world : World) (config : Config) : Action → Checked World
  | .event (.datagram now peer scratch) =>
    Dispatched.world <$> world.dispatchChecked config now scratch peer
  | .event (.sweep now sweeper) => Sweep.world <$> sweeper.tickChecked config world now
  | .allocate device peer token now =>
    Prod.fst <$> world.allocateChecked device peer token now
  | .touch slot peer now => return world.touch slot peer now
  | .create slot now terms => Prod.fst <$> world.createChecked slot now terms
  | .join slot room => Prod.fst <$> world.joinChecked slot room
  | .matchmake slot ranges now => Prod.fst <$> world.matchmakeChecked slot ranges now
  | .leave slot => world.leaveChecked slot
  | .remove slot => Prod.fst <$> world.removeChecked slot
  | .expireIdle now timeout => Prod.fst <$> world.expireIdleChecked now timeout
  | .elect id now timeout =>
    match world.rooms.room? id with
    | none => return world
    | some room => return (world.elect room now timeout).1
  | .electAll now timeout => Prod.fst <$> world.electAllChecked now timeout

/-- The world after a series of actions. -/
def performChecked (world : World) (config : Config) : List Action → Checked World
  | [] => return world
  | action :: rest => do
    let world ← world.actChecked config action
    world.performChecked config rest

/-- A world in which nothing that is done next fails. Whatever is done has the same result as
without the checks. -/
structure Faultless (config : Config) (world : World) : Prop where
  dispatch : ∀ now scratch peer, world.dispatchChecked config now scratch peer =
    .ok (world.dispatch config now scratch peer)
  tick : ∀ now sweeper, Sweeper.tickChecked sweeper config world now =
    .ok (sweeper.tick config world now)
  allocate : ∀ device peer token now, world.allocateChecked device peer token now =
    .ok (world.allocate device peer token now)
  create : ∀ slot now terms, world.createChecked slot now terms =
    .ok (world.create slot now terms)
  join : ∀ slot room, world.joinChecked slot room = .ok (world.join slot room)
  matchmake : ∀ slot ranges now, world.matchmakeChecked slot ranges now =
    .ok (world.matchmake slot ranges now)
  leave : ∀ slot, world.leaveChecked slot = .ok (world.leave slot)
  remove : ∀ slot, world.removeChecked slot = .ok (world.remove slot)
  expireIdle : ∀ now timeout, world.expireIdleChecked now timeout =
    .ok (world.expireIdle now timeout)
  electAll : ∀ now timeout, world.electAllChecked now timeout =
    .ok (world.electAll now timeout)

theorem Consistent.tickChecked_eq (h : world.Consistent config) (now : Instant)
    (sweeper : Sweeper) :
    sweeper.tickChecked config world now = .ok (sweeper.tick config world now) := by
  have hafter : (world.expireIdle now config.sessionTimeout).1.Consistent config :=
    h.act (.expireIdle now config.sessionTimeout)
  rw [Sweeper.tickChecked, Sweeper.tick, h.expireIdleChecked_eq, Checked.ok_bind]
  dsimp only
  split
  · rw [hafter.electAllChecked_eq, Checked.ok_bind]
    rfl
  · rfl

theorem Consistent.faultless (h : world.Consistent config) : world.Faultless config where
  dispatch now scratch peer := h.dispatchChecked_eq now scratch peer
  tick now sweeper := h.tickChecked_eq now sweeper
  allocate device peer token now := h.allocateChecked_eq device peer token now
  create slot now terms := h.createChecked_eq slot now terms
  join slot room := h.joinChecked_eq slot room
  matchmake slot ranges now := h.matchmakeChecked_eq slot ranges now
  leave slot := h.leaveChecked_eq slot
  remove slot := h.removeChecked_eq slot
  expireIdle now timeout := h.expireIdleChecked_eq now timeout
  electAll now timeout := h.electAllChecked_eq now timeout

namespace Faultless

theorem actChecked_eq (h : world.Faultless config) (action : Action) :
    world.actChecked config action = .ok (world.act config action) := by
  cases action with
  | event event =>
      cases event with
      | datagram now peer scratch =>
          exact Checked.map_of_eq_ok Dispatched.world (h.dispatch now scratch peer)
      | sweep now sweeper =>
          exact Checked.map_of_eq_ok Sweep.world (h.tick now sweeper)
  | allocate device peer token now =>
      exact Checked.map_of_eq_ok Prod.fst (h.allocate device peer token now)
  | touch slot peer now => rfl
  | create slot now terms => exact Checked.map_of_eq_ok Prod.fst (h.create slot now terms)
  | join slot room => exact Checked.map_of_eq_ok Prod.fst (h.join slot room)
  | matchmake slot ranges now => exact Checked.map_of_eq_ok Prod.fst (h.matchmake slot ranges now)
  | leave slot => exact h.leave slot
  | remove slot => exact Checked.map_of_eq_ok Prod.fst (h.remove slot)
  | expireIdle now timeout => exact Checked.map_of_eq_ok Prod.fst (h.expireIdle now timeout)
  | elect id now timeout =>
      rw [actChecked, act]
      cases world.rooms.room? id <;> rfl
  | electAll now timeout => exact Checked.map_of_eq_ok Prod.fst (h.electAll now timeout)

end Faultless

theorem Consistent.performChecked_eq (h : world.Consistent config) (actions : List Action) :
    world.performChecked config actions = .ok (world.perform config actions) := by
  induction actions generalizing world with
  | nil => rfl
  | cons action rest ih =>
      rw [performChecked, h.faultless.actChecked_eq, Checked.ok_bind, ih (h.act action)]
      rfl

/-- Whatever is done to a server with whatever settings, nothing that is checked fails: not on the
way, and not in what is done next. -/
theorem faultless_of_perform (config : Config) (actions : List Action) :
    let world := (ofConfig config).perform config actions
    (ofConfig config).performChecked config actions = .ok world ∧ world.Faultless config :=
  ⟨(Consistent.ofConfig config).performChecked_eq actions,
    ((Consistent.ofConfig config).perform actions).faultless⟩

end World

end RoomRelay
