import RoomRelay.Proofs.Authority
import RoomRelay.Proofs.Independence
import RoomRelay.Proofs.Latest

/-!
# What becomes of a session at an event

A login of its device, or a request of its own that is in range, is heard of a session: its address
and the time are recorded. Such a request may also give the session a seat, take it from its seat,
or close it, and a sweep closes it when it is overdue. Whatever else happens changes its flags at
most.
-/

namespace RoomRelay

/-- The seat that an answer gives a session, in wire numbers. -/
def Answer.place? : Answer → Option (Int16 × Int8)
  | .created response => some (response.room, response.index)
  | .joined response => some (response.room, response.index)
  | _ => none

namespace World

section Kinds

variable (config : Config) (slot : SlotId) (world : World) (event : Event)

/-- Whether an event is a login that opens a session, which is told what it has been given. -/
inductive Opened : Event → Session → Prop
  | intro {now : Instant} {peer : SocketAddress} {scratch : Scratch} {login : Wire.Login}
      {slot : SlotId} {token : Token} (hdecode : Request.decode scratch.datagram = .ok (.login login))
      (hunknown : world.lobby.findByDevice login.device = none)
      (hfree : world.lobby.get? slot = none) (htoken : token = world.issueToken.2)
      (hget : (world.dispatch config now scratch peer).world.lobby.get? slot =
        some (Session.fresh slot login.device token peer now))
      (hframes : (world.dispatch config now scratch peer).frames =
        [⟨peer, Wire.LoginResponse.record.bytes (.ofCredentials
          (Session.fresh slot login.device token peer now).credentials)⟩]) :
      Opened (.datagram now peer scratch) (Session.fresh slot login.device token peer now)

/-- Whether an event brings a request that the session in a slot recognises as its own, and that
names nothing which the server does not have. -/
def Asks (request : Request) : Prop :=
  event.request? = some request ∧ request.InRange config ∧
    ∃ session, request.recognise? world.lobby = some session ∧ session.slot = slot

/-- Whether an event is heard of the session in a slot: the login that opens it, a later login of
its device, or a request of its own that does not close it. -/
inductive Hears : Prop
  | opened {session : Session} (h : Opened config world event session)
      (hslot : session.slot = slot)
  | resumed {login : Wire.Login} (hrequest : event.request? = some (.login login))
      (hfound : world.lobby.findByDevice login.device = some slot)
  | asked {request : Request} (h : Asks config slot world event request)
      (hkind : request.kind ≠ .logout)

/-- Whether an event is a request for a seat by which the session in a slot, which had none, is
given one. -/
def Seats (seat : Seat) : Prop :=
  ∃ request, Asks config slot world event request ∧
    (request.kind = .create ∨ request.kind = .join) ∧ world.lobby.seat? slot = none ∧
    (world.answer config event).place? = some (Seat.toWire (some seat))

/-- Whether an event is a request by which the session in a slot leaves its seat. -/
def Leaves : Prop := ∃ request, Asks config slot world event request ∧ request.kind = .leave

/-- Whether an event is a request by which the session in a slot is closed. -/
def Closes : Prop := ∃ request, Asks config slot world event request ∧ request.kind = .logout

/-- Whether an event gives the session in a slot a seat or takes it from one. -/
def Places : Prop := Leaves config slot world event ∨ ∃ seat, Seats config slot world event seat

end Kinds

/-- What an event makes of a live session. -/
inductive Fate (config : Config) (world : World) (event : Event) (session : Session) :
    Option Session → Prop
  | spared {flags : UInt8} (hears : ¬ Hears config session.slot world event) :
      Fate config world event session (some { session with flags })
  | heard {peer : SocketAddress} {flags : UInt8} (hears : Hears config session.slot world event)
      (hpeer : event.peer? = some peer) (places : ¬ Places config session.slot world event) :
      Fate config world event session
        (some { session with peer, lastActive := event.now, flags })
  | seated {peer : SocketAddress} {flags : UInt8} {seat : Seat}
      (seats : Seats config session.slot world event seat) (hpeer : event.peer? = some peer) :
      Fate config world event session
        (some { session with peer, lastActive := event.now, seat := some seat, flags })
  | left {peer : SocketAddress} {flags : UInt8} (leaves : Leaves config session.slot world event)
      (hpeer : event.peer? = some peer) :
      Fate config world event session
        (some { session with peer, lastActive := event.now, seat := none, flags })
  | closed (closes : Closes config session.slot world event) : Fate config world event session none
  | expired {now : Instant} {sweeper : Sweeper} (hevent : event = .sweep now sweeper)
      (hidle : session.lastActive.toNat + config.sessionTimeout < now.toNat) :
      Fate config world event session none

variable {config : Config} {world : World} {event : Event} {session : Session}
variable {request : Request} {slot : SlotId}

theorem Asks.unique {other : Request} (h : Asks config slot world event request)
    (h' : event.request? = some other) : request = other :=
  Option.some.inj (h.1.symm.trans h')

theorem Leaves.hears (h : Leaves config slot world event) : Hears config slot world event := by
  obtain ⟨request, hasks, hkind⟩ := h
  exact .asked hasks (by simp [hkind])

theorem Seats.hears {seat : Seat} (h : Seats config slot world event seat) :
    Hears config slot world event := by
  obtain ⟨request, hasks, hkind, -⟩ := h
  refine .asked hasks ?_
  cases hkind with
  | inl hkind => simp [hkind]
  | inr hkind => simp [hkind]

theorem Places.hears (h : Places config slot world event) : Hears config slot world event := by
  cases h with
  | inl hleaves => exact hleaves.hears
  | inr hseats =>
      obtain ⟨seat, hseats⟩ := hseats
      exact hseats.hears

/-- A slot that is taken is not opened. -/
theorem Opened.get?_eq_none (h : Opened config world event session) :
    world.lobby.get? session.slot = none := by
  cases h with
  | intro _ _ hfree _ _ _ => exact hfree

/-- While a session is live, nothing is heard of it but a login of its device and its own
requests. -/
theorem not_hears (hget : world.lobby.get? slot = some session)
    (hlogin : ∀ {login}, event.request? = some (.login login) →
      world.lobby.findByDevice login.device ≠ some slot)
    (hasks : ∀ {request}, request.kind ≠ .logout → ¬ Asks config slot world event request) :
    ¬ Hears config slot world event := by
  intro hears
  cases hears with
  | opened hopened hslot =>
      have hfree := hopened.get?_eq_none
      rw [hslot, hget] at hfree
      cases hfree
  | resumed hrequest hfound => exact hlogin hrequest hfound
  | asked hown hkind => exact hasks hkind hown

/-- What a request of another kind does is not placing. -/
theorem not_places (hrequest : event.request? = some request) (hleave : request.kind ≠ .leave)
    (hseats : ∀ seat, ¬ Seats config slot world event seat) :
    ¬ Places config slot world event := by
  rintro (⟨other, hasks, hkind⟩ | ⟨seat, hseated⟩)
  · rw [hasks.unique hrequest] at hkind
    exact hleave hkind
  · exact hseats seat hseated

theorem setMaster_eq_flags (session : Session) (master : Bool) :
    session.setMaster master = { session with flags := (session.setMaster master).flags } := by
  cases master <;> rfl

/-- An election changes flags at most. -/
theorem exists_flags_elect (room : Room) (now : Instant) (timeout : Nat)
    (hget : world.lobby.get? slot = some session) :
    ∃ flags, (world.elect room now timeout).1.lobby.get? slot = some { session with flags } := by
  obtain ⟨master, helected⟩ := world.lobby.exists_get?_elect room now timeout slot
  refine ⟨(session.setMaster master).flags, ?_⟩
  rw [← setMaster_eq_flags]
  exact helected.trans (by rw [hget]; rfl)

/-- Whoever leaves its seat has none, and is otherwise as before but for the flags. -/
theorem exists_flags_leave (hget : world.lobby.get? slot = some session) :
    ∃ flags, (world.leave slot).lobby.get? slot = some { session with seat := none, flags } := by
  obtain ⟨flags, hleft⟩ :
      ∃ flags, (world.rooms.leave session).2 = { session with seat := none, flags } := by
    obtain ⟨slot, device, token, peer, lastActive, seat, flags⟩ := session
    cases seat with
    | none => exact ⟨flags, rfl⟩
    | some seat => exact ⟨_, setMaster_eq_flags _ false⟩
  refine ⟨flags, ?_⟩
  rw [leave_of_get? hget, Lobby.get?_modify_self, hget, Option.map_some, hleft]

/-- A session that asks for a seat is given one if it had none and is not refused, and is otherwise
as before but for the flags. -/
theorem get?_settle (h : world.Consistent config) (hget : world.lobby.get? slot = some session)
    (now : Instant) {attempt : World → World × Bool}
    (hattempt : world.Attempts slot (attempt world)) (refusal : Wire.Status)
    (answer : Seat → Room → UInt8 → Answer) :
    let result := world.settle config now slot attempt refusal answer
    (∃ flags, result.1.lobby.get? slot = some { session with flags } ∧
        (session.seat ≠ none ∨ result.2 = .status refusal)) ∨
      session.seat = none ∧ ∃ seat room flags flags',
        result.1.lobby.get? slot = some { session with seat := some seat, flags } ∧
          result.2 = answer seat room flags' := by
  intro result
  have hlive : (world.lobby.get? slot).isSome := by simp [hget]
  rcases settle_cases now refusal answer h hlive hattempt with
    hrefused | ⟨seat, seated, room, hseated, -, hseat, -, hsettled⟩
  · refine .inl ⟨session.flags, ?_, .inr (by rw [show result = _ from hrefused])⟩
    rw [show result = _ from hrefused]
    exact hget
  · rw [show result = _ from hsettled]
    dsimp only
    cases hseated with
    | inl hsame =>
        subst hsame
        obtain ⟨flags, helected⟩ := exists_flags_elect room now config.masterTimeout hget
        refine .inl ⟨flags, helected, .inl ?_⟩
        rw [← Lobby.seat?_of_get? hget, hseat]
        exact Option.some_ne_none seat
    | inr hsits =>
        obtain ⟨before, hbefore, hunseated, hafter⟩ := hsits.get?
        obtain rfl := Option.some.inj (hget.symm.trans hbefore)
        obtain ⟨flags, helected⟩ := exists_flags_elect room now config.masterTimeout hafter
        exact .inr ⟨hunseated, seat, room, flags, _, helected, rfl⟩

/-- A request for a seat gives its session one, or is only heard of it. -/
theorem Fate.of_settle {now : Instant} {peer : SocketAddress} (h : world.Consistent config)
    (hget : world.lobby.get? session.slot = some session)
    (hasks : Asks config session.slot world event request) (hpeer : event.peer? = some peer)
    (hkind : request.kind = .create ∨ request.kind = .join) (hnow : event.now = now)
    {attempt : World → World × Bool}
    (hattempt : (world.touch session.slot peer now).Attempts session.slot
      (attempt (world.touch session.slot peer now)))
    {refusal : Wire.Status} {answer : Seat → Room → UInt8 → Answer}
    (hplace : ∀ seat room flags,
      (answer seat room flags).place? = some (Seat.toWire (some seat)))
    (hserve : world.serve config now peer request =
      (world.touch session.slot peer now).settle config now session.slot attempt refusal answer) :
    Fate config world event session
      ((world.serve config now peer request).1.lobby.get? session.slot) := by
  subst hnow
  have htouched := get?_touch_of_get? hget peer event.now
  have hanswer := (handle_of_request? world config hasks.1 hpeer).2
  have hseat? := Lobby.seat?_of_get? hget
  have hleave : request.kind ≠ .leave ∧ request.kind ≠ .logout := by
    rcases hkind with hkind | hkind <;> simp [hkind]
  rw [hserve] at hanswer ⊢
  obtain ⟨flags, hafter, hrefused⟩ | ⟨hunseated, seat, room, flags, flags', hafter, hgiven⟩ :=
    get?_settle (h.touch session.slot peer event.now) htouched event.now hattempt refusal answer
  · have hseats : ∀ seat, ¬ Seats config session.slot world event seat := by
      rintro seat ⟨_, -, -, hunseated, hgiven⟩
      cases hrefused with
      | inl hseated => exact hseated (hseat?.symm.trans hunseated)
      | inr hrefused =>
          rw [hanswer, hrefused] at hgiven
          cases hgiven
    rw [hafter]
    exact .heard (.asked hasks hleave.2) hpeer (not_places hasks.1 hleave.1 hseats)
  · have hseats : Seats config session.slot world event seat := by
      refine ⟨request, hasks, hkind, hseat?.trans hunseated, ?_⟩
      rw [hanswer, show _ = answer seat room flags' from hgiven]
      exact hplace seat room flags'
    rw [hafter]
    exact .seated hseats hpeer

/-- A request of another session, or one that is rejected, leaves the session alone but for the
flags. -/
theorem get?_serve_of_not_asks (hconfig : config.Bounded) (h : world.Consistent config)
    (hget : world.lobby.get? session.slot = some session) (hrequest : event.request? = some request)
    (hlogin : request.kind ≠ .login) (hasks : ¬ Asks config session.slot world event request)
    (now : Instant) (peer : SocketAddress) :
    ∃ flags, (world.serve config now peer request).1.lobby.get? session.slot =
      some { session with flags } := by
  by_cases hrange : request.InRange config
  · rcases (served_serve now peer hconfig h hlogin).frame h with
      ⟨hsame, -⟩ | ⟨other, hfound, -, hframe⟩
    · rw [hsame]
      exact ⟨session.flags, hget⟩
    · have hne : session.slot ≠ other.slot := fun heq =>
        hasks ⟨hrequest, hrange, other, hfound, heq.symm⟩
      rcases hframe.others session.slot hne with hsame | ⟨old, -, master, hold, -, -, hafter⟩
      · rw [hsame]
        exact ⟨session.flags, hget⟩
      · obtain rfl := Option.some.inj (hget.symm.trans hold)
        rw [hafter]
        exact ⟨_, congrArg some (setMaster_eq_flags session master)⟩
  · rw [serve_of_not_inRange now peer hrange]
    exact ⟨session.flags, hget⟩

/-- A request of its own that is in range is carried out. -/
theorem Fate.of_asks (hconfig : config.Bounded) (h : world.Consistent config)
    (hget : world.lobby.get? session.slot = some session)
    (hasks : Asks config session.slot world event request) {peer : SocketAddress}
    (hpeer : event.peer? = some peer) :
    Fate config world event session
      ((world.serve config event.now peer request).1.lobby.get? session.slot) := by
  obtain ⟨hrequest, hrange, found, hfound, hslot⟩ := id hasks
  have hsame : found = session := by
    have hlive := (Request.of_recognise? h.lobby hfound).1
    rw [hslot, hget] at hlive
    exact (Option.some.inj hlive).symm
  subst hsame
  have htouched := get?_touch_of_get? hget peer event.now
  have quiet : request.kind ∈ Wire.Kind.quiet → _ := fun hquiet =>
    (serve_of_recognised h event.now peer hquiet hrange hfound).1
  have noted : request.kind ∈ Wire.Kind.quiet → request.kind ≠ .leave → request.kind ≠ .logout →
      request.effect found.slot peer event.now world = world.touch found.slot peer event.now →
      Fate config world event found
        ((world.serve config event.now peer request).1.lobby.get? found.slot) := by
    intro hquiet hleave hlogout heffect
    have hseats : ∀ seat, ¬ Seats config found.slot world event seat := by
      rintro seat ⟨other, hother, hkind, -⟩
      rw [hother.unique hrequest] at hkind
      rcases hkind with hkind | hkind <;> simp [hkind, Wire.Kind.quiet] at hquiet
    rw [quiet hquiet, heffect, htouched]
    exact .heard (.asked hasks hlogout) hpeer (not_places hrequest hleave hseats)
  cases request with
  | login _ => cases hfound
  | create create =>
      refine .of_settle h hget hasks hpeer (.inl rfl) rfl ?_ (fun _ _ _ => rfl)
        (serveCreate_of_eq_some hfound)
      exact attempts_create hconfig (h.touch found.slot peer event.now) event.now create.terms
  | join join =>
      refine .of_settle h hget hasks hpeer (.inr rfl) rfl ?_ (fun _ _ _ => rfl)
        (serveJoin_of_eq_some hfound)
      exact attempts_matchmake join.ranges event.now
  | leave leave =>
      obtain ⟨flags, hafter⟩ := exists_flags_leave htouched
      rw [quiet (by simp [Wire.Kind.quiet, Request.kind])]
      show Fate config world event found
        (((world.touch found.slot peer event.now).leave found.slot).lobby.get? found.slot)
      rw [hafter]
      exact .left ⟨_, hasks, rfl⟩ hpeer
  | logout logout =>
      rw [quiet (by simp [Wire.Kind.quiet, Request.kind])]
      show Fate config world event found ((world.remove found.slot).1.lobby.get? found.slot)
      rw [get?_remove, if_pos rfl]
      exact .closed ⟨_, hasks, rfl⟩
  | ping _ | unreliable _ | reliable _ | relied _ =>
      exact noted (by simp [Wire.Kind.quiet, Request.kind]) (by simp [Request.kind])
        (by simp [Request.kind]) rfl

/-- A session that is opened takes no slot from another one. -/
theorem get?_openSession_of_get? (hget : world.lobby.get? slot = some session)
    (device : Wire.Device) (peer : SocketAddress) (now : Instant) :
    (world.openSession device peer now).1.lobby.get? slot = some session := by
  cases hslot : (world.openSession device peer now).2 with
  | none => exact (congrArg (·.get? slot) (Lobby.fst_allocate_of_eq_none hslot)).trans hget
  | some opened =>
      have hfree : world.lobby.get? opened = none := Lobby.get?_of_allocate hslot
      rw [get?_openSession hslot, if_neg, hget]
      rintro rfl
      rw [hget] at hfree
      cases hfree

/-- A login is heard of the session of its device and of no other. -/
theorem Fate.of_login {login : Wire.Login} {peer : SocketAddress}
    (hget : world.lobby.get? session.slot = some session)
    (hrequest : event.request? = some (.login login)) (hpeer : event.peer? = some peer) :
    Fate config world event session
      ((world.serveLogin event.now peer login).1.lobby.get? session.slot) := by
  have hasks : ∀ {request}, ¬ Asks config session.slot world event request := by
    rintro request ⟨hother, -, found, hfound, -⟩
    obtain rfl := Option.some.inj (hrequest.symm.trans hother)
    cases hfound
  have spared : world.lobby.findByDevice login.device ≠ some session.slot →
      Fate config world event session (some session) := by
    intro hfound
    refine .spared (not_hears hget ?_ fun _ => hasks)
    rintro other hother
    obtain ⟨⟩ := Option.some.inj (hrequest.symm.trans hother)
    exact hfound
  obtain ⟨slot, hfound, hafter⟩ | ⟨hunknown, -, hafter⟩ | ⟨hunknown, hafter⟩ :=
    serveLogin_cases world event.now peer login
  · rw [hafter]
    by_cases heq : slot = session.slot
    · rw [heq, get?_touch_of_get? hget]
      refine .heard (.resumed hrequest (heq ▸ hfound)) hpeer (not_places hrequest nofun ?_)
      rintro seat ⟨request, hown, -⟩
      exact hasks hown
    · rw [show (world.touch slot peer event.now).lobby.get? session.slot = some session from
        (Lobby.get?_modify_of_ne _ _ heq).trans hget]
      exact spared fun h => heq (Option.some.inj (hfound.symm.trans h))
  · rw [hafter, get?_openSession_of_get? hget]
    exact spared (by rw [hunknown]; exact nofun)
  · rw [hafter, hget]
    exact spared (by rw [hunknown]; exact nofun)

/-- A sweep closes overdue sessions and no others. -/
theorem get?_expireSlots (hget : world.lobby.get? slot = some session) (now : Instant)
    (timeout : Nat) (slots : List SlotId) :
    (world.expireSlots now timeout slots).1.lobby.get? slot = some session ∨
      (world.expireSlots now timeout slots).1.lobby.get? slot = none ∧
        timeout < session.idle now := by
  induction slots generalizing world with
  | nil => exact .inl hget
  | cons first rest ih =>
      rw [expireSlots]
      split
      · next hoverdue =>
        by_cases heq : first = slot
        · right
          have hidle : timeout < session.idle now := by
            simpa [Lobby.isOverdue, heq, hget] using hoverdue
          refine ⟨Option.eq_none_iff_forall_ne_some.mpr fun found hfound => ?_, hidle⟩
          have kept := Shrinks.moves (moves_expireSlots (world.remove first).1 now timeout rest)
          obtain ⟨old, hold, -⟩ := kept.get? hfound
          rw [get?_remove, if_pos heq] at hold
          cases hold
        · exact ih (by rw [get?_remove, if_neg heq, hget])
      · exact ih hget

/-- Elections change flags at most. -/
theorem exists_flags_electEach (hget : world.lobby.get? slot = some session) (rooms : List Room)
    (now : Instant) (timeout : Nat) :
    ∃ flags, (world.lobby.electEach rooms now timeout).get? slot =
      some { session with flags } := by
  induction rooms generalizing world session with
  | nil => exact ⟨session.flags, hget⟩
  | cons room rest ih =>
      obtain ⟨flags, helected⟩ := exists_flags_elect room now timeout hget
      obtain ⟨flags', hrest⟩ := ih helected
      exact ⟨flags', hrest⟩

/-- A sweep closes a session that is overdue, or leaves it alone but for the flags. -/
theorem Fate.of_sweep (hget : world.lobby.get? session.slot = some session) (now : Instant)
    (sweeper : Sweeper) :
    Fate config world (.sweep now sweeper) session
      ((sweeper.tick config world now).world.lobby.get? session.slot) := by
  have spared : ∀ flags, Fate config world (.sweep now sweeper) session
      (some { session with flags }) := by
    intro flags
    refine .spared (not_hears hget nofun ?_)
    rintro request - ⟨hrequest, -⟩
    cases hrequest
  obtain hkept | ⟨hgone, hidle⟩ := get?_expireSlots hget now config.sessionTimeout
    ((List.range world.lobby.capacity).filterMap SlotId.ofPosition?)
  · rw [Sweeper.tick]
    dsimp only
    split
    · obtain ⟨flags, helected⟩ := exists_flags_electEach hkept
        (world.expireIdle now config.sessionTimeout).1.rooms.active now config.masterTimeout
      rw [show ((world.expireIdle now config.sessionTimeout).1.electAll now
        config.masterTimeout).1.lobby.get? session.slot = _ from helected]
      exact spared flags
    · rw [show (world.expireIdle now config.sessionTimeout).1.lobby.get? session.slot = _ from
        hkept]
      exact spared session.flags
  · have hexpired : (sweeper.tick config world now).world.lobby.get? session.slot = none := by
      rw [Sweeper.tick]
      dsimp only
      split
      · refine Option.eq_none_iff_forall_ne_some.mpr fun found hfound => ?_
        have kept := Shrinks.moves
          (moves_electAll (world.expireIdle now config.sessionTimeout).1 now config.masterTimeout)
        obtain ⟨old, hold, -⟩ := kept.get? hfound
        rw [show (world.expireIdle now config.sessionTimeout).1.lobby.get? _ = none from hgone]
          at hold
        cases hold
      · exact hgone
    rw [hexpired]
    rw [Session.idle, Instant.since] at hidle
    exact .expired rfl (by omega)

/-- What becomes of a live session at an event is one of these things. -/
theorem fate_of_handle (hconfig : config.Bounded) (h : world.Consistent config)
    (hget : world.lobby.get? session.slot = some session) (event : Event) :
    Fate config world event session ((world.handle config event).lobby.get? session.slot) := by
  cases event with
  | sweep now sweeper => exact .of_sweep hget now sweeper
  | datagram now peer scratch =>
      have hpeer : (Event.datagram now peer scratch).peer? = some peer := rfl
      cases hrequest : (Event.datagram now peer scratch).request? with
      | none =>
          rw [handle_of_request?_eq_none world config hrequest hpeer, hget]
          refine .spared (not_hears hget (by rw [hrequest]; nofun) ?_)
          rintro request - ⟨hsome, -⟩
          rw [hrequest] at hsome
          cases hsome
      | some request =>
          rw [(handle_of_request? world config hrequest hpeer).1]
          by_cases hkind : request.kind = .login
          · cases request with
            | login login => exact .of_login hget hrequest hpeer
            | _ => cases hkind
          · by_cases hasks : Asks config session.slot world (.datagram now peer scratch) request
            · exact .of_asks hconfig h hget hasks hpeer
            · obtain ⟨flags, hafter⟩ := get?_serve_of_not_asks hconfig h hget hrequest hkind hasks
                now peer
              rw [show (Event.datagram now peer scratch).now = now from rfl, hafter]
              refine .spared (not_hears hget ?_ ?_)
              · intro login hlogin
                obtain rfl := Option.some.inj (hrequest.symm.trans hlogin)
                exact absurd rfl hkind
              · rintro other - hother
                rw [hother.unique hrequest] at hother
                exact hasks hother

/-- A login that opens a session tells it what it has been given. -/
theorem opened_of_openSession {now : Instant} {peer : SocketAddress} {scratch : Scratch}
    {login : Wire.Login} (hdecode : Request.decode scratch.datagram = .ok (.login login))
    (hunknown : world.lobby.findByDevice login.device = none)
    (hfull : world.lobby.isFull = false)
    (hslot : (world.openSession login.device peer now).2 = some slot) :
    Opened config world (.datagram now peer scratch)
      (Session.fresh slot login.device world.issueToken.2 peer now) := by
  obtain ⟨hworld, hanswer⟩ := serveLogin_of_openSession hunknown hfull
  have hget : (world.serveLogin now peer login).1.lobby.get? slot =
      some (Session.fresh slot login.device world.issueToken.2 peer now) := by
    rw [hworld, get?_openSession hslot, if_pos rfl]
  have hwelcome := (hanswer slot hslot).trans (welcome_of_get? (hworld ▸ hget))
  have hserve : world.serve config now peer (.login login) = (_, _) := Prod.ext hworld hwelcome
  obtain ⟨hafter, hframes⟩ := dispatch_of_serve hdecode hserve
  rw [hworld] at hget
  exact .intro hdecode hunknown (Lobby.get?_of_allocate hslot) rfl
    ((congrArg (·.lobby.get? slot) hafter).trans hget)
    (hframes.trans (Scratch.snd_write_record _ _ (by decide) _))

/-- A session in a slot that was free before an event was opened by the event, and knows its
slot. -/
theorem opened_of_handle (hconfig : config.Bounded) (h : world.Consistent config)
    (hfree : world.lobby.get? slot = none) (event : Event)
    (hget : (world.handle config event).lobby.get? slot = some session) :
    Opened config world event session ∧ session.slot = slot := by
  have moved : ¬ Moves world (world.handle config event) := by
    intro moves
    obtain ⟨old, hold, -⟩ := (Shrinks.moves moves).get? hget
    rw [hfree] at hold
    cases hold
  cases event with
  | sweep now sweeper => exact absurd (moves_tick world config now sweeper) moved
  | datagram now peer scratch =>
      rw [handle, world_dispatch] at hget moved
      obtain made | ⟨login, hdecode, hunknown, hfull, hopened⟩ :=
        moves_receive world config now peer scratch.datagram
      · exact absurd made moved
      · obtain ⟨fresh, hslot⟩ := h.exists_openSession hconfig hfull login.device peer now
        rw [hopened, get?_openSession hslot] at hget
        split at hget
        · next heq =>
          obtain rfl := Option.some.inj hget
          exact ⟨opened_of_openSession hdecode hunknown hfull hslot, heq⟩
        · rw [hfree] at hget
          cases hget

end World

end RoomRelay
