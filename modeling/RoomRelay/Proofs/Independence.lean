import Mathlib.Logic.Function.Conjugate
import RoomRelay.Proofs.Accounting

/-!
# Requests of different sessions

A request that neither opens a session nor seeks a seat changes the world through the slot that it
names: it records activity of the session there, takes it from its seat, or frees the slot. Whether
it is recognised, and which of these it does, is told by the record in that slot alone. Changes
through different slots commute, even where two sessions leave the same room, so it makes no
difference which of two such requests is served first.
-/

namespace RoomRelay

/-- Two cells can be changed in either order, and one cell can if the changes commute. -/
theorem modify_modify_comm {α : Type} (cells : Array α) {i j : Nat} {f g : α → α}
    (h : i = j → ∀ cell, g (f cell) = f (g cell)) :
    (cells.modify i f).modify j g = (cells.modify j g).modify i f := by
  apply Array.ext_getElem?
  intro k
  simp only [Array.getElem?_modify]
  by_cases hi : i = k
  · by_cases hj : j = k
    · have commute := h (hi.trans hj.symm)
      simp only [hi, hj, if_true, Option.map_map]
      cases cells[k]? with
      | none => rfl
      | some cell => exact congrArg some (commute cell)
    · simp [hi, hj]
  · simp [hi]

namespace Lobby

variable {a b : SlotId}

theorem modify_comm (hne : a ≠ b) (lobby : Lobby) (f g : Session → Session) :
    (lobby.modify a f).modify b g = (lobby.modify b g).modify a f := by
  simp only [modify, mk.injEq, and_true]
  apply modify_modify_comm
  intro hposition
  exact absurd (SlotId.position_inj.mp hposition) hne

theorem release_modify (hne : a ≠ b) (lobby : Lobby) (change : Session → Session) :
    ((lobby.modify b change).release a).1 = (lobby.release a).1.modify b change := by
  have hposition : a.position ≠ b.position := fun h => hne (SlotId.position_inj.mp h)
  rw [release, release, get?_modify_of_ne _ _ hne.symm]
  cases lobby.get? a with
  | none => rfl
  | some session =>
      simp only [modify, mk.injEq, and_true]
      apply Array.ext_getElem?
      intro i
      simp only [Array.getElem?_modify, Array.getElem?_setIfInBounds, Array.size_modify]
      by_cases hb : b.position = i
      · have ha : a.position ≠ i := by omega
        simp [hb, ha]
      · simp [hb]

theorem release_comm (hne : a ≠ b) (lobby : Lobby) :
    ((lobby.release a).1.release b).1 = ((lobby.release b).1.release a).1 := by
  have hposition : a.position ≠ b.position := fun h => hne (SlotId.position_inj.mp h)
  have hb : (lobby.release a).1.get? b = lobby.get? b := by rw [get?_release, if_neg hne]
  have ha : (lobby.release b).1.get? a = lobby.get? a := by rw [get?_release, if_neg hne.symm]
  rw [release, hb, release.eq_1 (lobby.release b).1, ha, release, release.eq_1 lobby b]
  cases lobby.get? a with
  | none => cases lobby.get? b <;> rfl
  | some session =>
      cases lobby.get? b with
      | none => rfl
      | some other =>
          simp only [mk.injEq, and_true]
          exact Array.setIfInBounds_comm none none hposition

end Lobby

/-- Two members can be taken from their cells in either order. -/
theorem Room.vacate_comm (room : Room) (i j : SeatIndex) (a b : SlotId) :
    (room.vacate i a).vacate j b = (room.vacate j b).vacate i a := by
  by_cases hsame : i = j
  · subst hsame
    by_cases hslot : a = b
    · rw [hslot]
    · -- at most one of the two is in the cell, and the other is not there afterwards either
      by_cases ha : room.member? i = some a
      · have hb : room.member? i ≠ some b := by rw [ha]; simpa using hslot
        have hgone : (room.vacate i a).member? i ≠ some b := by simp [member?_vacate, ha]
        rw [vacate.eq_1 (room.vacate i a), if_neg hgone, vacate.eq_1 room i b, if_neg hb]
      · have hgone : (room.vacate i b).member? i ≠ some a := by
          rw [member?_vacate]
          split <;> simp [ha]
        rw [vacate.eq_1 (room.vacate i b), if_neg hgone, vacate.eq_1 room i a, if_neg ha]
  · have hposition : i.position ≠ j.position := fun h => hsame (SeatIndex.position_inj.mp h)
    have hj : (room.vacate i a).member? j = room.member? j := by
      rw [member?_vacate, if_neg fun h => hsame h.1]
    have hi : (room.vacate j b).member? i = room.member? i := by
      rw [member?_vacate, if_neg fun h => hsame h.1.symm]
    rw [vacate.eq_1 (room.vacate i a), hj, vacate.eq_1 (room.vacate j b), hi, vacate, vacate]
    split
    · split
      · simp only [mk.injEq, true_and, and_true]
        exact Array.setIfInBounds_comm none none hposition
      · rfl
    · rfl

namespace RoomTable

/-- Two sessions can leave their seats in either order. -/
theorem leave_comm (table : RoomTable) (first second : Session) :
    ((table.leave first).1.leave second).1 = ((table.leave second).1.leave first).1 := by
  simp only [leave]
  cases first.seat with
  | none => cases second.seat <;> rfl
  | some seat =>
      cases second.seat with
      | none => rfl
      | some other =>
          simp only [modify, mk.injEq]
          apply modify_modify_comm
          intro _ room
          exact room.vacate_comm _ _ _ _

/-- What becomes of the session that leaves is not told by the rooms. -/
theorem snd_leave (first second : RoomTable) (session : Session) :
    (first.leave session).2 = (second.leave session).2 := by
  simp only [leave]
  cases session.seat <;> rfl

end RoomTable

namespace World

variable {a b : SlotId}

theorem leave_of_get? {world : World} {slot : SlotId} {session : Session}
    (h : world.lobby.get? slot = some session) :
    world.leave slot =
      { world with
        lobby := world.lobby.modify slot fun _ => (world.rooms.leave session).2
        rooms := (world.rooms.leave session).1 } := by
  rw [leave, h]

theorem leave_of_get?_eq_none {world : World} {slot : SlotId}
    (h : world.lobby.get? slot = none) : world.leave slot = world := by
  rw [leave, h]

/-- A change of the lobby through another slot commutes with leaving. -/
theorem lobby_leave_comm (change : Lobby → Lobby)
    (hget : ∀ lobby : Lobby, (change lobby).get? b = lobby.get? b)
    (hcomm : ∀ (lobby : Lobby) (replace : Session → Session),
      change (lobby.modify b replace) = (change lobby).modify b replace) :
    Function.Commute (fun world : World => { world with lobby := change world.lobby })
      fun world => world.leave b := by
  intro world
  dsimp only
  cases hfound : world.lobby.get? b with
  | none =>
      rw [leave_of_get?_eq_none hfound, leave_of_get?_eq_none]
      exact (hget world.lobby).trans hfound
  | some session =>
      rw [leave_of_get? hfound, leave_of_get? ((hget world.lobby).trans hfound), hcomm]

theorem touch_touch_comm (hne : a ≠ b) (peer peer' : SocketAddress) (now now' : Instant) :
    Function.Commute (fun world : World => world.touch a peer now)
      fun world => world.touch b peer' now' := fun world =>
  congrArg (fun lobby => ({ world with lobby } : World)) (world.lobby.modify_comm hne.symm _ _)

theorem touch_leave_comm (hne : a ≠ b) (peer : SocketAddress) (now : Instant) :
    Function.Commute (fun world : World => world.touch a peer now) fun world => world.leave b :=
  lobby_leave_comm (fun lobby => lobby.touch a peer now)
    (fun _ => Lobby.get?_modify_of_ne _ _ hne) fun lobby _ => lobby.modify_comm hne.symm _ _

theorem release_touch_comm (hne : a ≠ b) (peer : SocketAddress) (now : Instant) :
    Function.Commute (fun world : World => (world.release a).1)
      fun world => world.touch b peer now := fun world =>
  congrArg (fun lobby => ({ world with lobby } : World)) (world.lobby.release_modify hne _)

theorem release_leave_comm (hne : a ≠ b) :
    Function.Commute (fun world : World => (world.release a).1) fun world => world.leave b :=
  lobby_leave_comm (fun lobby => (lobby.release a).1)
    (fun lobby => by rw [Lobby.get?_release, if_neg hne]) fun lobby _ => lobby.release_modify hne _

theorem release_release_comm (hne : a ≠ b) :
    Function.Commute (fun world : World => (world.release a).1)
      fun world => (world.release b).1 := fun world =>
  congrArg (fun lobby => ({ world with lobby } : World)) (world.lobby.release_comm hne.symm)

theorem leave_leave_comm (hne : a ≠ b) :
    Function.Commute (fun world : World => world.leave a) fun world => world.leave b := by
  intro world
  have ha : (world.leave b).lobby.get? a = world.lobby.get? a :=
    world.get?_leave_of_ne hne.symm
  have hb : (world.leave a).lobby.get? b = world.lobby.get? b := world.get?_leave_of_ne hne
  show (world.leave b).leave a = (world.leave a).leave b
  cases hfirst : world.lobby.get? a with
  | none => rw [leave_of_get?_eq_none (ha.trans hfirst), leave_of_get?_eq_none hfirst]
  | some first =>
      cases hsecond : world.lobby.get? b with
      | none => rw [leave_of_get?_eq_none hsecond, leave_of_get?_eq_none (hb.trans hsecond)]
      | some second =>
          rw [leave_of_get? (ha.trans hfirst), leave_of_get? (hb.trans hsecond),
            leave_of_get? hfirst, leave_of_get? hsecond]
          simp only [Lobby.modify_comm hne, world.rooms.leave_comm first second,
            RoomTable.snd_leave _ world.rooms]

/-- A change made of steps that concern the session in the slot that a wire number names. -/
inductive Through (raw : Int16) : (World → World) → Prop
  | refl : Through raw id
  | touch {slot : SlotId} (hslot : SlotId.ofWire? raw = some slot) (peer : SocketAddress)
      (now : Instant) : Through raw fun world => world.touch slot peer now
  | leave {slot : SlotId} (hslot : SlotId.ofWire? raw = some slot) :
      Through raw fun world => world.leave slot
  | release {slot : SlotId} (hslot : SlotId.ofWire? raw = some slot) :
      Through raw fun world => (world.release slot).1
  | comp {first second : World → World} (hfirst : Through raw first)
      (hsecond : Through raw second) : Through raw (second ∘ first)

namespace Through

variable {raw other : Int16} {change change' : World → World}

theorem slot_ne (hne : raw ≠ other) (ha : SlotId.ofWire? raw = some a)
    (hb : SlotId.ofWire? other = some b) : a ≠ b := by
  rintro rfl
  exact hne ((SlotId.toWire_of_ofWire? ha).symm.trans (SlotId.toWire_of_ofWire? hb))

/-- A change through one slot leaves the sessions in other slots alone. -/
theorem get?_of_ne (h : Through raw change) (hne : raw ≠ other)
    (hb : SlotId.ofWire? other = some b) (world : World) :
    (change world).lobby.get? b = world.lobby.get? b := by
  induction h generalizing world with
  | refl => rfl
  | touch ha peer now => exact Lobby.get?_modify_of_ne _ _ (slot_ne hne ha hb)
  | leave ha => exact world.get?_leave_of_ne (slot_ne hne ha hb)
  | release ha =>
      show (world.lobby.release _).1.get? b = _
      rw [Lobby.get?_release, if_neg (slot_ne hne ha hb)]
  | comp _ _ ihfirst ihsecond => exact (ihsecond _).trans (ihfirst world)

/-- What commutes with every step through a slot commutes with every change through it. -/
theorem commute_of_steps (h : Through raw change)
    (touch : ∀ {slot}, SlotId.ofWire? raw = some slot → ∀ peer now,
      Function.Commute change' fun world => world.touch slot peer now)
    (leave : ∀ {slot}, SlotId.ofWire? raw = some slot →
      Function.Commute change' fun world => world.leave slot)
    (release : ∀ {slot}, SlotId.ofWire? raw = some slot →
      Function.Commute change' fun world => (world.release slot).1) :
    Function.Commute change' change := by
  induction h with
  | refl => exact Function.Commute.id_right
  | touch hslot peer now => exact touch hslot peer now
  | leave hslot => exact leave hslot
  | release hslot => exact release hslot
  | comp _ _ ihfirst ihsecond => exact ihsecond.comp_right ihfirst

/-- Changes through different slots commute. -/
theorem commute (h : Through raw change) (h' : Through other change') (hne : raw ≠ other) :
    Function.Commute change change' := by
  have ne : ∀ {a b}, SlotId.ofWire? raw = some a → SlotId.ofWire? other = some b → a ≠ b :=
    slot_ne hne
  refine h'.commute_of_steps ?_ ?_ ?_
  · intro b hb peer now
    apply Function.Commute.symm
    apply h.commute_of_steps
    · exact fun ha peer' now' => (touch_touch_comm (ne ha hb) peer' peer now' now).symm
    · exact fun ha => touch_leave_comm (ne ha hb).symm peer now
    · exact fun ha => (release_touch_comm (ne ha hb) peer now).symm
  · intro b hb
    apply Function.Commute.symm
    apply h.commute_of_steps
    · exact fun ha peer now => (touch_leave_comm (ne ha hb) peer now).symm
    · exact fun ha => leave_leave_comm (ne ha hb).symm
    · exact fun ha => (release_leave_comm (ne ha hb)).symm
  · intro b hb
    apply Function.Commute.symm
    apply h.commute_of_steps
    · exact fun ha peer now => release_touch_comm (ne ha hb).symm peer now
    · exact fun ha => release_leave_comm (ne ha hb).symm
    · exact fun ha => release_release_comm (ne ha hb).symm

end Through

end World

/-- The kinds of requests that neither open a session nor seek a seat. -/
def Wire.Kind.quiet : List Wire.Kind :=
  [.ping, .logout, .leave, .unreliable, .reliable, .relied]

/-- The kinds of requests that are answered from the record of their session alone. -/
def Wire.Kind.solitary : List Wire.Kind := [.ping, .logout, .leave]

namespace Request

/-- The wire number of the slot that a request names. -/
def slot? (request : Request) : Option Int16 := request.claim?.map Prod.snd

/-- What a quiet request does in the name of the session in a slot. -/
def effect (request : Request) (slot : SlotId) (peer : SocketAddress) (now : Instant) :
    World → World :=
  match request.kind with
  | .leave => fun world => (world.touch slot peer now).leave slot
  | .logout => fun world => (world.remove slot).1
  | _ => fun world => world.touch slot peer now

/-- What a solitary request of a session with some flags is answered. -/
def reply (request : Request) (now : Instant) (flags : UInt8) : Answer :=
  match request with
  | .ping asked =>
    .pinged { status := .ok, clientTime := asked.clientTime, serverTime := now, flags }
  | _ => .status .ok

variable {request : Request} {lobby lobby' : Lobby} {raw : Int16}

/-- Whether a request is recognised is told by the record in the slot that it names. -/
theorem recognise?_congr (hraw : request.slot? = some raw)
    (h : ∀ {slot}, SlotId.ofWire? raw = some slot → lobby.get? slot = lobby'.get? slot) :
    request.recognise? lobby = request.recognise? lobby' := by
  have named : ∀ token, lobby.findByToken token raw = lobby'.findByToken token raw := by
    intro token
    simp only [Lobby.findByToken]
    cases hslot : SlotId.ofWire? raw with
    | none => rfl
    | some slot => simp only [bind, Option.bind_some, h hslot]
  have shown : ∀ credentials : Wire.Credentials, credentials.slot = raw →
      lobby.findByCredentials credentials = lobby'.findByCredentials credentials := by
    rintro credentials rfl
    simp only [Lobby.findByCredentials, named]
  cases request with
  | login _ => rfl
  | create request =>
      obtain rfl : request.slot = raw := Option.some.inj hraw
      exact named request.token
  | join request =>
      obtain rfl : request.slot = raw := Option.some.inj hraw
      exact named request.token
  | ping request => exact shown _ (Option.some.inj hraw)
  | logout request => exact shown _ (Option.some.inj hraw)
  | leave request => exact shown _ (Option.some.inj hraw)
  | unreliable header => exact shown _ (Option.some.inj hraw)
  | reliable header => exact shown _ (Option.some.inj hraw)
  | relied request => exact shown _ (Option.some.inj hraw)

/-- A recognised request does what it does through the slot that it names. -/
theorem through_effect {capacity : Nat} {session : Session} (hsound : lobby.Sound capacity)
    (hraw : request.slot? = some raw) (hfound : request.recognise? lobby = some session)
    (peer : SocketAddress) (now : Instant) :
    World.Through raw (request.effect session.slot peer now) := by
  obtain ⟨token, raw', hclaim, hnamed⟩ := findByToken_of_recognise? hfound
  obtain ⟨hslot, -, -⟩ := Lobby.of_findByToken hsound hnamed
  obtain rfl : raw' = raw := by simpa [slot?, hclaim] using hraw
  rw [effect]
  split
  · exact (World.Through.touch hslot peer now).comp (.leave hslot)
  · exact (World.Through.leave hslot).comp (.release hslot)
  · exact .touch hslot peer now

end Request

namespace World

variable {config : Config} {world : World} {request : Request} {session : Session}
variable {now : Instant} {peer : SocketAddress}

/-- A quiet request in range that is recognised has its effect, and is answered accordingly. -/
theorem serve_of_recognised (h : world.Consistent config) (now : Instant) (peer : SocketAddress)
    (hquiet : request.kind ∈ Wire.Kind.quiet) (hrange : request.InRange config)
    (hfound : request.recognise? world.lobby = some session) :
    (world.serve config now peer request).1 = request.effect session.slot peer now world ∧
      (request.kind ∈ Wire.Kind.solitary →
        (world.serve config now peer request).2 = request.reply now session.flags) := by
  obtain ⟨hget, -⟩ := Request.of_recognise? h.lobby hfound
  cases request with
  | login _ => cases hfound
  | create _ | join _ => simp [Wire.Kind.quiet, Request.kind] at hquiet
  | ping ping =>
      simp only [serve, servePing_of_eq_some hfound, flags_touch hget]
      exact ⟨rfl, fun _ => rfl⟩
  | leave leave =>
      simp only [serve, serveLeave_of_eq_some hfound]
      exact ⟨rfl, fun _ => rfl⟩
  | logout logout =>
      obtain ⟨slot, hslot, hlt⟩ := (NumbersEntries.slot _).isEntry_iff.mp hrange
      have hshown : world.lobby.findByCredentials logout.credentials = some session := hfound
      simp only [serve, serveLogout_of_position_lt hslot hlt, hshown]
      exact ⟨rfl, fun _ => rfl⟩
  | unreliable header =>
      obtain ⟨seat, hseat⟩ := Config.hasSeat_iff.mp hrange
      simp only [serve, serveUnreliable, hseat]
      rw [answerMember_of_eq_some hfound]
      exact ⟨rfl, by simp [Wire.Kind.solitary, Request.kind]⟩
  | reliable header =>
      obtain ⟨seat, hseat⟩ := Config.hasSeat_iff.mp hrange.1
      obtain ⟨target, htarget⟩ := Config.isEntry_target_iff.mp hrange.2
      simp only [serve, serveReliable, hseat, htarget]
      rw [answerMember_of_eq_some hfound]
      exact ⟨rfl, by simp [Wire.Kind.solitary, Request.kind]⟩
  | relied relied =>
      obtain ⟨seat, hseat⟩ := Config.hasSeat_iff.mp hrange.1
      obtain ⟨target, htarget⟩ := Config.isEntry_target_iff.mp hrange.2
      simp only [serve, serveRelied, hseat, htarget]
      rw [answerMember_of_eq_some hfound]
      exact ⟨rfl, by simp [Wire.Kind.solitary, Request.kind]⟩

/-- In worlds that have the same record in the slot that it names, a quiet request makes the same
change, through that slot, and a solitary one is answered alike. -/
theorem serve_through (h : world.Consistent config) (now : Instant) (peer : SocketAddress)
    {raw : Int16} (hquiet : request.kind ∈ Wire.Kind.quiet) (hraw : request.slot? = some raw) :
    ∃ change answer, Through raw change ∧
      ∀ other : World, other.Consistent config →
        (∀ {slot}, SlotId.ofWire? raw = some slot →
          other.lobby.get? slot = world.lobby.get? slot) →
        (other.serve config now peer request).1 = change other ∧
          (request.kind ∈ Wire.Kind.solitary →
            (other.serve config now peer request).2 = answer) := by
  by_cases hrange : request.InRange config
  · have hlogin : request.kind ≠ .login := by
      intro hkind
      simp [hkind, Wire.Kind.quiet] at hquiet
    cases hfound : request.recognise? world.lobby with
    | none =>
        refine ⟨id, .status .expired, .refl, fun other _ hsame => ?_⟩
        have hnone := (Request.recognise?_congr hraw hsame).trans hfound
        rw [serve_of_unrecognised now peer hrange hlogin hnone]
        exact ⟨rfl, fun _ => rfl⟩
    | some session =>
        refine ⟨request.effect session.slot peer now, request.reply now session.flags,
          Request.through_effect h.lobby hraw hfound peer now, fun other hother hsame => ?_⟩
        have hfound' := (Request.recognise?_congr hraw hsame).trans hfound
        exact serve_of_recognised hother now peer hquiet hrange hfound'
  · refine ⟨id, .drop, .refl, fun other _ _ => ?_⟩
    rw [serve_of_not_inRange now peer hrange]
    exact ⟨rfl, fun _ => rfl⟩

theorem Consistent.serve_quiet (h : world.Consistent config) (now : Instant)
    (peer : SocketAddress) (hquiet : request.kind ∈ Wire.Kind.quiet) :
    (world.serve config now peer request).1.Consistent config := by
  have hlogin : request.kind ≠ .login := by
    intro hkind
    simp [hkind, Wire.Kind.quiet] at hquiet
  exact h.moves (moves_serve world config now peer request hlogin)

/-- Two quiet requests that name different slots can be served in either order. -/
theorem serve_comm (h : world.Consistent config) (now : Instant) (peer peer' : SocketAddress)
    {first second : Request} (hfirst : first.kind ∈ Wire.Kind.quiet)
    (hsecond : second.kind ∈ Wire.Kind.quiet) (hne : first.slot? ≠ second.slot?) :
    let afterFirst := (world.serve config now peer first).1
    let afterSecond := (world.serve config now peer' second).1
    (afterFirst.serve config now peer' second).1 = (afterSecond.serve config now peer first).1 ∧
      (first.kind ∈ Wire.Kind.solitary →
        (afterSecond.serve config now peer first).2 = (world.serve config now peer first).2) ∧
      (second.kind ∈ Wire.Kind.solitary →
        (afterFirst.serve config now peer' second).2 =
          (world.serve config now peer' second).2) := by
  intro afterFirst afterSecond
  have named : ∀ request : Request, request.kind ∈ Wire.Kind.quiet →
      ∃ raw, request.slot? = some raw := by
    intro request hquiet
    cases request with
    | login _ => simp [Wire.Kind.quiet, Request.kind] at hquiet
    | _ => exact ⟨_, rfl⟩
  obtain ⟨raw, hraw⟩ := named first hfirst
  obtain ⟨raw', hraw'⟩ := named second hsecond
  have hne : raw ≠ raw' := by
    rintro rfl
    exact hne (hraw.trans hraw'.symm)
  obtain ⟨change, answer, hchange, hserve⟩ := serve_through h now peer hfirst hraw
  obtain ⟨change', answer', hchange', hserve'⟩ := serve_through h now peer' hsecond hraw'
  obtain ⟨hworld, hanswer⟩ : afterFirst = change world ∧ _ := hserve world h fun _ => rfl
  obtain ⟨hworld', hanswer'⟩ : afterSecond = change' world ∧ _ :=
    hserve' world h fun _ => rfl
  -- either request leaves the slot of the other one alone
  obtain ⟨hlast, hagain⟩ := hserve afterSecond (h.serve_quiet now peer' hsecond) fun hslot => by
    rw [hworld']
    exact hchange'.get?_of_ne hne.symm hslot world
  obtain ⟨hlast', hagain'⟩ := hserve' afterFirst (h.serve_quiet now peer hfirst) fun hslot => by
    rw [hworld]
    exact hchange.get?_of_ne hne hslot world
  refine ⟨?_, ?_, ?_⟩
  · rw [hlast, hlast', hworld, hworld']
    exact (hchange.commute hchange' hne world).symm
  · intro hsolitary
    rw [hagain hsolitary, hanswer hsolitary]
  · intro hsolitary
    rw [hagain' hsolitary, hanswer' hsolitary]

/-- Of two datagrams from whomever, each of a kind that neither opens a session nor seeks a seat, it
makes no difference which is dispatched first, unless both are requests that name the same slot.
The world is the same in the end, whether or not the two sessions share a room, and whatever the
writer holds; and a datagram that is not a packet for members is answered alike. -/
theorem commute_of_dispatch (h : Reachable config world) (now : Instant)
    (peer peer' : SocketAddress) (scratch scratch' : Scratch) (writer writer' : Wire.Writer)
    (hquiet : ∀ request, Request.decode scratch.datagram = .ok request →
      request.kind ∈ Wire.Kind.quiet)
    (hquiet' : ∀ request, Request.decode scratch'.datagram = .ok request →
      request.kind ∈ Wire.Kind.quiet)
    (hslots : ∀ request request', Request.decode scratch.datagram = .ok request →
      Request.decode scratch'.datagram = .ok request' → request.slot? ≠ request'.slot?) :
    let first := world.dispatch config now scratch peer
    let thenSecond := first.world.dispatch config now scratch' peer'
    let second := world.dispatch config now ⟨writer', scratch'.datagram⟩ peer'
    let thenFirst := second.world.dispatch config now ⟨writer, scratch.datagram⟩ peer
    thenSecond.world = thenFirst.world ∧
      ((∀ request, Request.decode scratch.datagram = .ok request →
        request.kind ∈ Wire.Kind.solitary) → thenFirst.frames = first.frames) ∧
      ((∀ request, Request.decode scratch'.datagram = .ok request →
        request.kind ∈ Wire.Kind.solitary) → thenSecond.frames = second.frames) := by
  intro first thenSecond second thenFirst
  simp only [thenSecond, thenFirst, first, second, world_dispatch, frames_dispatch, receive]
  cases hdecode : Request.decode scratch.datagram with
  | error fault =>
      refine ⟨rfl, fun _ => rfl, fun _ => ?_⟩
      cases Request.decode scratch'.datagram with
      | error fault => rfl
      | ok request' => exact Answer.frames_writer _ _ _ _ _ _
  | ok request =>
      cases hdecode' : Request.decode scratch'.datagram with
      | error fault => exact ⟨rfl, fun _ => Answer.frames_writer _ _ _ _ _ _, fun _ => rfl⟩
      | ok request' =>
          obtain ⟨hworld, hfirst, hsecond⟩ := serve_comm (.of_reachable h) now peer peer'
            (hquiet request hdecode) (hquiet' request' hdecode')
            (hslots request request' hdecode hdecode')
          dsimp only at hworld hfirst hsecond ⊢
          refine ⟨hworld, ?_, ?_⟩
          · intro hsolitary
            rw [hfirst (hsolitary request rfl)]
            exact Answer.frames_writer _ _ _ _ _ _
          · intro hsolitary
            rw [hsecond (hsolitary request' rfl)]
            exact Answer.frames_writer _ _ _ _ _ _

/-- The master of a room logs out while the other member leaves: either may be first. -/
theorem commute_of_pair :
    let world := (ofConfig .small).run .small smallPair
    let logout := Wire.Logout.record.bytes ⟨654988, 0, 0, 0⟩
    let leave := Wire.Leave.record.bytes ⟨654989, 1, 0, 1⟩
    let other := SocketAddress.anyV4 40001
    let first := world.dispatch .small 5 ⟨.empty, logout⟩ smallPeer
    let thenSecond := first.world.dispatch .small 5 ⟨.empty, leave⟩ other
    let second := world.dispatch .small 5 ⟨.empty, leave⟩ other
    let thenFirst := second.world.dispatch .small 5 ⟨.empty, logout⟩ smallPeer
    Reachable .small world ∧ thenSecond.world = thenFirst.world ∧
      first.frames = [⟨smallPeer, [3, 0]⟩] ∧ thenFirst.frames = first.frames ∧
      second.frames = [⟨other, [6, 0]⟩] ∧ thenSecond.frames = second.frames := by
  intro world logout leave other first thenSecond second thenFirst
  have hreachable : Reachable .small world := ⟨_, rfl⟩
  have hlogout : ∀ request, Request.decode logout = .ok request →
      request = .logout ⟨654988, 0, 0, 0⟩ := by
    intro request hdecode
    cases hdecode
    rfl
  have hleave : ∀ request, Request.decode leave = .ok request →
      request = .leave ⟨654989, 1, 0, 1⟩ := by
    intro request hdecode
    cases hdecode
    rfl
  obtain ⟨hworld, hfirst, hsecond⟩ := commute_of_dispatch hreachable 5 smallPeer other
    ⟨.empty, logout⟩ ⟨.empty, leave⟩ .empty .empty
    (fun request hdecode => by rw [hlogout request hdecode]; decide)
    (fun request hdecode => by rw [hleave request hdecode]; decide)
    (fun request request' hdecode hdecode' => by
      rw [hlogout request hdecode, hleave request' hdecode']
      decide)
  refine ⟨hreachable, hworld, by decide +kernel, ?_, by decide +kernel, ?_⟩
  · exact hfirst fun request hdecode => by rw [hlogout request hdecode]; decide
  · exact hsecond fun request hdecode => by rw [hleave request hdecode]; decide

end World

end RoomRelay
