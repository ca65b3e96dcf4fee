import RoomRelay.Proofs.Move
import RoomRelay.Proofs.Recognition

/-!
# Exchanging tokens

The tokens of a world can be exchanged for others, those of its sessions and that of the issuer,
and so can the token in a request. Nothing but the recognition of a session looks at a token.
Hence every operation on the tables commutes with the exchange, and so does serving a request, as
long as the exchange does not decide whether the request is recognised. No assumption is made about
the world: lobby and rooms need not agree with each other.
-/

namespace RoomRelay

/-- A session with another token. -/
def Session.withToken (session : Session) (token : Token) : Session := { session with token }

/-- A lobby with other tokens, one for each position. -/
def Lobby.withTokens (lobby : Lobby) (tokens : Nat → Token) : Lobby :=
  { lobby with
    slots := lobby.slots.mapIdx fun position cell => cell.map (·.withToken (tokens position)) }

/-- A world with other tokens. -/
def World.withTokens (world : World) (issuer : TokenIssuer) (tokens : Nat → Token) : World :=
  { tokens := issuer, lobby := world.lobby.withTokens tokens, rooms := world.rooms }

/-- Credentials with another token. -/
def Wire.Credentials.withToken (credentials : Wire.Credentials) (word : UInt32) :
    Wire.Credentials :=
  { credentials with token := word }

/-- A request with another token, if it has one. -/
def Request.withToken (word : UInt32) : Request → Request
  | .login request => .login request
  | .create request => .create { request with token := word }
  | .join request => .join { request with token := word }
  | .ping request => .ping { request with credentials := request.credentials.withToken word }
  | .logout request => .logout { request with credentials := request.credentials.withToken word }
  | .leave request => .leave { request with credentials := request.credentials.withToken word }
  | .unreliable header =>
    .unreliable { header with credentials := header.credentials.withToken word }
  | .reliable header => .reliable { header with credentials := header.credentials.withToken word }
  | .relied request => .relied { request with credentials := request.credentials.withToken word }

/-- An answer to a request with another token. Only those that pass a packet on show its header. -/
def Answer.withToken (word : UInt32) : Answer → Answer
  | .relayUnreliable header recipients =>
    .relayUnreliable { header with credentials := header.credentials.withToken word } recipients
  | .relayReliable header recipient =>
    .relayReliable { header with credentials := header.credentials.withToken word } recipient
  | answer => answer

/-- Whether a word is the token of the session in the slot that a number names. -/
def Lobby.HasToken (lobby : Lobby) (word : UInt32) (raw : Int16) : Prop :=
  ∃ slot session, SlotId.ofWire? raw = some slot ∧ lobby.get? slot = some session ∧
    session.token.word = word

/-- Whether the token of a request is that of the session in the slot that it names. -/
def Request.HasToken (request : Request) (lobby : Lobby) : Prop :=
  ∃ word raw, request.claim? = some (word, raw) ∧ lobby.HasToken word raw

namespace Lobby

variable (lobby : Lobby) (tokens : Nat → Token)

theorem get?_withTokens (slot : SlotId) :
    (lobby.withTokens tokens).get? slot =
      (lobby.get? slot).map (·.withToken (tokens slot.position)) := by
  simp only [get?, withTokens, Array.getElem?_mapIdx]
  rcases lobby.slots[slot.position]? with _ | _ | session <;> rfl

/-- A change that does not look at the token. -/
theorem modify_withTokens (slot : SlotId) {change change' : Session → Session}
    (h : ∀ session : Session, change' (session.withToken (tokens slot.position)) =
      (change session).withToken (tokens slot.position)) :
    (lobby.withTokens tokens).modify slot change' =
      (lobby.modify slot change).withTokens tokens := by
  simp only [modify, withTokens, mk.injEq, and_true]
  apply Array.ext_getElem?
  intro position
  simp only [Array.getElem?_modify, Array.getElem?_mapIdx]
  split
  · next heq =>
    subst heq
    rcases lobby.slots[slot.position]? with _ | _ | session
    · rfl
    · rfl
    · simp [h]
  · rfl

theorem touch_withTokens (slot : SlotId) (peer : SocketAddress) (now : Instant) :
    (lobby.withTokens tokens).touch slot peer now =
      (lobby.touch slot peer now).withTokens tokens :=
  lobby.modify_withTokens tokens slot fun _ => rfl

theorem setMaster_withTokens (slot : SlotId) (master : Bool) :
    (lobby.withTokens tokens).modify slot (·.setMaster master) =
      (lobby.modify slot (·.setMaster master)).withTokens tokens :=
  lobby.modify_withTokens tokens slot fun _ => by cases master <;> rfl

theorem fst_release_withTokens (slot : SlotId) :
    ((lobby.withTokens tokens).release slot).1 = (lobby.release slot).1.withTokens tokens := by
  simp only [release, get?_withTokens]
  cases lobby.get? slot with
  | none => rfl
  | some session =>
      simp only [Option.map_some, withTokens, mk.injEq, and_true]
      apply Array.ext_getElem?
      intro position
      simp only [Array.getElem?_setIfInBounds, Array.getElem?_mapIdx, Array.size_mapIdx]
      split
      · split <;> rfl
      · rfl

theorem flags_withTokens (slot : SlotId) :
    (lobby.withTokens tokens).flags slot = lobby.flags slot := by
  simp only [flags, get?_withTokens]
  cases lobby.get? slot <;> rfl

theorem isMarked_withTokens (slot : SlotId) :
    (lobby.withTokens tokens).isMarked slot = lobby.isMarked slot := by
  simp only [isMarked, get?_withTokens]
  cases lobby.get? slot <;> rfl

theorem isLive_withTokens (now : Instant) (timeout : Nat) :
    (lobby.withTokens tokens).isLive now timeout = lobby.isLive now timeout := by
  funext slot
  simp only [isLive, get?_withTokens]
  cases lobby.get? slot <;> rfl

theorem unmarkOthers_withTokens (found : Option SlotId) (slots : List SlotId) :
    (lobby.withTokens tokens).unmarkOthers found slots =
      Prod.map (·.withTokens tokens) id (lobby.unmarkOthers found slots) := by
  induction slots generalizing lobby found with
  | nil => rfl
  | cons slot rest ih =>
      simp only [unmarkOthers, isMarked_withTokens, setMaster_withTokens]
      split
      · cases found with
        | none => exact ih lobby (some slot)
        | some first => exact ih _ (some first)
      · exact ih lobby found

theorem promote_withTokens (slots : List SlotId) (now : Instant) (timeout : Nat) :
    (lobby.withTokens tokens).promote slots now timeout =
      Prod.map (·.withTokens tokens) id (lobby.promote slots now timeout) := by
  simp only [promote, isLive_withTokens, setMaster_withTokens]
  cases slots.find? (lobby.isLive now timeout) <;> rfl

theorem elect_withTokens (room : Room) (now : Instant) (timeout : Nat) :
    (lobby.withTokens tokens).elect room now timeout =
      Prod.map (·.withTokens tokens) id (lobby.elect room now timeout) := by
  simp only [elect, unmarkOthers_withTokens]
  rcases lobby.unmarkOthers none (room.members.map Prod.snd) with ⟨unmarked, _ | master⟩
  · exact promote_withTokens unmarked tokens _ now timeout
  · simp only [Prod.map, id, isLive_withTokens, setMaster_withTokens, promote_withTokens]
    split <;> rfl

variable {lobby tokens}

theorem hasToken_iff {word : UInt32} {raw : Int16} :
    lobby.HasToken word raw ↔ ∃ session, lobby.findByToken word raw = some session := by
  simp only [HasToken, findByToken_eq_some_iff]
  exact exists_comm

section Token

variable {word word' : UInt32} {raw : Int16}

/-- The exchange decides nothing, so the same session is found with its new token. -/
theorem findByToken_withTokens
    (h : lobby.HasToken word raw ↔ (lobby.withTokens tokens).HasToken word' raw) :
    (lobby.findByToken word raw = none ∧ (lobby.withTokens tokens).findByToken word' raw = none) ∨
      ∃ session token, lobby.findByToken word raw = some session ∧
        (lobby.withTokens tokens).findByToken word' raw = some (session.withToken token) := by
  rw [hasToken_iff, hasToken_iff] at h
  cases hfound : lobby.findByToken word raw with
  | none =>
      left
      refine ⟨rfl, Option.eq_none_iff_forall_ne_some.mpr fun session hsession => ?_⟩
      obtain ⟨found, hfound'⟩ := h.mpr ⟨session, hsession⟩
      rw [hfound] at hfound'
      cases hfound'
  | some session =>
      right
      obtain ⟨session', hfound'⟩ := h.mp ⟨session, hfound⟩
      obtain ⟨slot, hslot, hget, -⟩ := findByToken_eq_some_iff.mp hfound
      obtain ⟨slot', hslot', hget', -⟩ := findByToken_eq_some_iff.mp hfound'
      cases hslot.symm.trans hslot'
      rw [get?_withTokens, hget] at hget'
      exact ⟨session, tokens slot.position, rfl, hfound'.trans hget'.symm⟩

end Token

theorem findByCredentials_withTokens {credentials : Wire.Credentials} {word : UInt32}
    (h : lobby.HasToken credentials.token credentials.slot ↔
      (lobby.withTokens tokens).HasToken word credentials.slot) :
    (lobby.findByCredentials credentials = none ∧
        (lobby.withTokens tokens).findByCredentials (credentials.withToken word) = none) ∨
      ∃ session token, lobby.findByCredentials credentials = some session ∧
        (lobby.withTokens tokens).findByCredentials (credentials.withToken word) =
          some (session.withToken token) := by
  rcases findByToken_withTokens h with ⟨hnone, hnone'⟩ | ⟨session, token, hfound, hfound'⟩
  · left
    simp only [findByCredentials, Wire.Credentials.withToken, hnone, hnone', bind,
      Option.bind_none, and_self]
  · simp only [findByCredentials, Wire.Credentials.withToken, hfound, hfound', bind,
      Option.bind_some, Session.withToken]
    by_cases hseat : Seat.toWire session.seat = (credentials.room, credentials.index)
    · exact .inr ⟨session, token, if_pos hseat, if_pos hseat⟩
    · exact .inl ⟨if_neg hseat, if_neg hseat⟩

end Lobby

namespace RoomTable

variable (table : RoomTable) (session : Session) (token : Token)

theorem join_withToken (room : RoomId) :
    table.join (session.withToken token) room =
      Prod.map id (Option.map (·.withToken token)) (table.join session room) := by
  obtain ⟨slot, device, _, peer, lastActive, seat, flags⟩ := session
  cases seat with
  | none =>
      simp only [join, Session.withToken]
      rcases table.room? room >>= (·.insert? slot) with _ | ⟨index, taken⟩ <;> rfl
  | some seat => rfl

theorem create_withToken (now : Instant) (terms : Terms) :
    table.create (session.withToken token) now terms =
      Prod.map id (Option.map (·.withToken token)) (table.create session now terms) := by
  have hseat : (session.withToken token).seat = session.seat := rfl
  simp only [create, join_withToken, hseat]
  split
  · rfl
  · cases table.findEmpty <;> rfl

theorem matchmake_withToken (ranges : Wire.Ranges) (now : Instant) :
    table.matchmake (session.withToken token) ranges now =
      Prod.map id (Option.map (·.withToken token)) (table.matchmake session ranges now) := by
  simp only [matchmake_eq, join_withToken]
  cases table.findJoinable ranges now <;> rfl

theorem leave_withToken :
    table.leave (session.withToken token) =
      Prod.map id (·.withToken token) (table.leave session) := by
  obtain ⟨slot, device, _, peer, lastActive, seat, flags⟩ := session
  cases seat <;> rfl

end RoomTable

namespace Room

variable (room : Room) (lobby : Lobby) (tokens : Nat → Token)

theorem memberAddress?_withTokens (index : SeatIndex) :
    room.memberAddress? (lobby.withTokens tokens) index = room.memberAddress? lobby index := by
  simp only [memberAddress?, Lobby.get?_withTokens]
  cases room.member? index with
  | none => rfl
  | some slot =>
      simp only [bind, Option.bind_some]
      cases lobby.get? slot <;> rfl

theorem addresses_withTokens (admits : SeatIndex → Bool) :
    room.addresses (lobby.withTokens tokens) admits = room.addresses lobby admits := by
  simp only [addresses, Lobby.get?_withTokens, Option.map_map]
  rfl

theorem unreliableRecipients_withTokens (sender : SeatIndex) (target : Int8) :
    room.unreliableRecipients (lobby.withTokens tokens) sender target =
      room.unreliableRecipients lobby sender target := by
  have haddress : room.memberAddress? (lobby.withTokens tokens) = room.memberAddress? lobby :=
    funext (room.memberAddress?_withTokens lobby tokens)
  simp only [unreliableRecipients, addresses_withTokens, haddress]

end Room

namespace World

variable (world : World) (issuer : TokenIssuer) (tokens : Nat → Token)

theorem withTokens_withTokens (issuer' : TokenIssuer) (tokens' : Nat → Token) :
    (world.withTokens issuer tokens).withTokens issuer' tokens' =
      world.withTokens issuer' tokens' := by
  simp only [withTokens, Lobby.withTokens, mk.injEq, Lobby.mk.injEq, true_and, and_true]
  apply Array.ext_getElem?
  intro position
  simp only [Array.getElem?_mapIdx]
  rcases world.lobby.slots[position]? with _ | _ | session <;> rfl

theorem touch_withTokens (slot : SlotId) (peer : SocketAddress) (now : Instant) :
    (world.withTokens issuer tokens).touch slot peer now =
      (world.touch slot peer now).withTokens issuer tokens :=
  congrArg (World.mk issuer · world.rooms) (world.lobby.touch_withTokens tokens slot peer now)

/-- An attempt to take a seat does not look at the token. -/
theorem seat_withTokens (slot : SlotId) {attempt : RoomTable → Session → RoomTable × Option Session}
    (h : ∀ session token, attempt world.rooms (session.withToken token) =
      Prod.map id (Option.map (·.withToken token)) (attempt world.rooms session)) :
    (world.withTokens issuer tokens).seat slot attempt =
      Prod.map (·.withTokens issuer tokens) id (world.seat slot attempt) := by
  simp only [seat, withTokens, Lobby.get?_withTokens]
  cases world.lobby.get? slot with
  | none => rfl
  | some session =>
      simp only [Option.map_some, h]
      rcases attempt world.rooms session with ⟨rooms, _ | seated⟩
      · rfl
      · exact congrArg (fun lobby => ((⟨issuer, lobby, rooms⟩ : World), true))
          (world.lobby.modify_withTokens tokens slot fun _ => rfl)

theorem create_withTokens (slot : SlotId) (now : Instant) (terms : Terms) :
    (world.withTokens issuer tokens).create slot now terms =
      Prod.map (·.withTokens issuer tokens) id (world.create slot now terms) :=
  world.seat_withTokens issuer tokens slot fun session token =>
    world.rooms.create_withToken session token now terms

theorem matchmake_withTokens (slot : SlotId) (ranges : Wire.Ranges) (now : Instant) :
    (world.withTokens issuer tokens).matchmake slot ranges now =
      Prod.map (·.withTokens issuer tokens) id (world.matchmake slot ranges now) :=
  world.seat_withTokens issuer tokens slot fun session token =>
    world.rooms.matchmake_withToken session token ranges now

theorem leave_withTokens (slot : SlotId) :
    (world.withTokens issuer tokens).leave slot =
      (world.leave slot).withTokens issuer tokens := by
  simp only [leave, withTokens, Lobby.get?_withTokens]
  cases world.lobby.get? slot with
  | none => rfl
  | some session =>
      simp only [Option.map_some, RoomTable.leave_withToken]
      exact congrArg (World.mk issuer · (world.rooms.leave session).1)
        (world.lobby.modify_withTokens tokens slot fun _ => rfl)

theorem fst_remove_withTokens (slot : SlotId) :
    ((world.withTokens issuer tokens).remove slot).1 =
      (world.remove slot).1.withTokens issuer tokens := by
  rw [remove, leave_withTokens]
  exact congrArg (World.mk issuer · (world.leave slot).rooms)
    ((world.leave slot).lobby.fst_release_withTokens tokens slot)

theorem elect_withTokens (room : Room) (now : Instant) (timeout : Nat) :
    (world.withTokens issuer tokens).elect room now timeout =
      Prod.map (·.withTokens issuer tokens) id (world.elect room now timeout) := by
  simp only [elect, withTokens, Lobby.elect_withTokens]
  rfl

variable {config : Config} {now : Instant} {peer : SocketAddress}

theorem answerSeated_withTokens (slot : SlotId) (refusal : Wire.Status)
    {answer : Seat → Room → UInt8 → Answer} {word : UInt32}
    (h : ∀ seat room flags, (answer seat room flags).withToken word = answer seat room flags) :
    (world.withTokens issuer tokens).answerSeated config now slot refusal answer =
      Prod.map (·.withTokens issuer tokens) (·.withToken word)
        (world.answerSeated config now slot refusal answer) := by
  have hget : (world.withTokens issuer tokens).lobby.get? slot =
      (world.lobby.get? slot).map (·.withToken (tokens slot.position)) :=
    world.lobby.get?_withTokens tokens slot
  have hrooms : (world.withTokens issuer tokens).rooms = world.rooms := rfl
  simp only [answerSeated, hget, hrooms, elect_withTokens]
  cases world.lobby.get? slot with
  | none => rfl
  | some session =>
      simp only [Option.map_some, Session.withToken]
      cases session.seat with
      | none => rfl
      | some seat =>
          dsimp only
          cases world.rooms.room? seat.room with
          | none => rfl
          | some room =>
              have hflags := (world.elect room now config.masterTimeout).1.lobby.flags_withTokens
                tokens slot
              simp only [Prod.map, h]
              exact congrArg (fun flags => (_, answer seat room flags)) hflags

theorem settle_withTokens (slot : SlotId) {attempt : World → World × Bool}
    (hattempt : (attempt (world.withTokens issuer tokens)).1 =
      (attempt world).1.withTokens issuer tokens) (refusal : Wire.Status)
    {answer : Seat → Room → UInt8 → Answer} {word : UInt32}
    (h : ∀ seat room flags, (answer seat room flags).withToken word = answer seat room flags) :
    (world.withTokens issuer tokens).settle config now slot attempt refusal answer =
      Prod.map (·.withTokens issuer tokens) (·.withToken word)
        (world.settle config now slot attempt refusal answer) := by
  have hseat : (world.withTokens issuer tokens).lobby.seat? slot = world.lobby.seat? slot := by
    simp only [withTokens, Lobby.seat?, Lobby.get?_withTokens]
    cases world.lobby.get? slot <;> rfl
  rw [settle, settle, hseat]
  split
  · exact world.answerSeated_withTokens issuer tokens slot refusal h
  · rw [hattempt]
    exact (attempt world).1.answerSeated_withTokens issuer tokens slot refusal h

variable {world issuer tokens} {word : UInt32}

theorem serveCreate_withTokens {create : Wire.Create}
    (h : world.lobby.HasToken create.token create.slot ↔
      (world.withTokens issuer tokens).lobby.HasToken word create.slot) :
    (world.withTokens issuer tokens).serveCreate config now peer { create with token := word } =
      Prod.map (·.withTokens issuer tokens) (·.withToken word)
        (world.serveCreate config now peer create) := by
  let renewed : Wire.Create := { create with token := word }
  have hfind : ∀ result, (world.lobby.withTokens tokens).findByToken word create.slot = result →
      (world.withTokens issuer tokens).lobby.findByToken renewed.token renewed.slot = result :=
    fun _ h => h
  rcases Lobby.findByToken_withTokens h with ⟨hnone, hnone'⟩ | ⟨session, token, hfound, hfound'⟩
  · rw [serveCreate_of_eq_none hnone]
    exact serveCreate_of_eq_none (hfind _ hnone')
  · rw [serveCreate_of_eq_some hfound]
    refine (serveCreate_of_eq_some (hfind _ hfound')).trans ?_
    rw [touch_withTokens]
    refine settle_withTokens _ issuer tokens _ ?_ _ fun _ _ _ => rfl
    exact congrArg Prod.fst (create_withTokens _ issuer tokens session.slot now create.terms)

theorem serveJoin_withTokens {join : Wire.Join}
    (h : world.lobby.HasToken join.token join.slot ↔
      (world.withTokens issuer tokens).lobby.HasToken word join.slot) :
    (world.withTokens issuer tokens).serveJoin config now peer { join with token := word } =
      Prod.map (·.withTokens issuer tokens) (·.withToken word)
        (world.serveJoin config now peer join) := by
  let renewed : Wire.Join := { join with token := word }
  have hfind : ∀ result, (world.lobby.withTokens tokens).findByToken word join.slot = result →
      (world.withTokens issuer tokens).lobby.findByToken renewed.token renewed.slot = result :=
    fun _ h => h
  rcases Lobby.findByToken_withTokens h with ⟨hnone, hnone'⟩ | ⟨session, token, hfound, hfound'⟩
  · rw [serveJoin_of_eq_none hnone]
    exact serveJoin_of_eq_none (hfind _ hnone')
  · rw [serveJoin_of_eq_some hfound]
    refine (serveJoin_of_eq_some (hfind _ hfound')).trans ?_
    rw [touch_withTokens]
    refine settle_withTokens _ issuer tokens _ ?_ _ fun _ _ _ => rfl
    exact congrArg Prod.fst (matchmake_withTokens _ issuer tokens session.slot join.ranges now)

theorem servePing_withTokens {ping : Wire.Ping}
    (h : world.lobby.HasToken ping.credentials.token ping.credentials.slot ↔
      (world.withTokens issuer tokens).lobby.HasToken word ping.credentials.slot) :
    (world.withTokens issuer tokens).servePing now peer
        { ping with credentials := ping.credentials.withToken word } =
      Prod.map (·.withTokens issuer tokens) (·.withToken word)
        (world.servePing now peer ping) := by
  let renewed : Wire.Ping := { ping with credentials := ping.credentials.withToken word }
  have hfind : ∀ result, (world.lobby.withTokens tokens).findByCredentials
        (ping.credentials.withToken word) = result →
      (world.withTokens issuer tokens).lobby.findByCredentials renewed.credentials = result :=
    fun _ h => h
  rcases Lobby.findByCredentials_withTokens h with
    ⟨hnone, hnone'⟩ | ⟨session, token, hfound, hfound'⟩
  · rw [servePing_of_eq_none hnone]
    exact servePing_of_eq_none (hfind _ hnone')
  · rw [servePing_of_eq_some hfound]
    refine (servePing_of_eq_some (hfind _ hfound')).trans ?_
    rw [touch_withTokens]
    exact congrArg (fun flags => (_, Answer.pinged ⟨.ok, ping.clientTime, now, flags⟩))
      ((world.touch session.slot peer now).lobby.flags_withTokens tokens session.slot)

theorem serveLeave_withTokens {leave : Wire.Leave}
    (h : world.lobby.HasToken leave.credentials.token leave.credentials.slot ↔
      (world.withTokens issuer tokens).lobby.HasToken word leave.credentials.slot) :
    (world.withTokens issuer tokens).serveLeave now peer
        { leave with credentials := leave.credentials.withToken word } =
      Prod.map (·.withTokens issuer tokens) (·.withToken word)
        (world.serveLeave now peer leave) := by
  let renewed : Wire.Leave := { leave with credentials := leave.credentials.withToken word }
  have hfind : ∀ result, (world.lobby.withTokens tokens).findByCredentials
        (leave.credentials.withToken word) = result →
      (world.withTokens issuer tokens).lobby.findByCredentials renewed.credentials = result :=
    fun _ h => h
  rcases Lobby.findByCredentials_withTokens h with
    ⟨hnone, hnone'⟩ | ⟨session, token, hfound, hfound'⟩
  · rw [serveLeave_of_eq_none hnone]
    exact serveLeave_of_eq_none (hfind _ hnone')
  · rw [serveLeave_of_eq_some hfound]
    refine (serveLeave_of_eq_some (hfind _ hfound')).trans ?_
    rw [touch_withTokens, leave_withTokens]
    rfl

theorem serveLogout_withTokens {logout : Wire.Logout}
    (h : world.lobby.HasToken logout.credentials.token logout.credentials.slot ↔
      (world.withTokens issuer tokens).lobby.HasToken word logout.credentials.slot) :
    (world.withTokens issuer tokens).serveLogout config
        { logout with credentials := logout.credentials.withToken word } =
      Prod.map (·.withTokens issuer tokens) (·.withToken word)
        (world.serveLogout config logout) := by
  let renewed : Wire.Logout := { logout with credentials := logout.credentials.withToken word }
  cases hslot : SlotId.ofWire? logout.credentials.slot with
  | none =>
      simp only [serveLogout, Wire.Credentials.withToken, hslot]
      rfl
  | some slot =>
      by_cases hlt : slot.position < config.lobbyCapacity
      · have hrenewed : SlotId.ofWire? renewed.credentials.slot = some slot := hslot
        refine (serveLogout_of_position_lt hrenewed hlt).trans ?_
        rw [serveLogout_of_position_lt hslot hlt]
        rcases Lobby.findByCredentials_withTokens h with
          ⟨hnone, hnone'⟩ | ⟨session, token, hfound, hfound'⟩
        · have hrenewed' : (world.withTokens issuer tokens).lobby.findByCredentials
              renewed.credentials = none := hnone'
          rw [hnone, hrenewed']
          rfl
        · have hrenewed' : (world.withTokens issuer tokens).lobby.findByCredentials
              renewed.credentials = some (session.withToken token) := hfound'
          rw [hfound, hrenewed']
          exact congrArg (·, Answer.status .ok)
            (world.fst_remove_withTokens issuer tokens session.slot)
      · simp only [serveLogout, Wire.Credentials.withToken, hslot, if_neg hlt]
        rfl

/-- A packet for members is answered in the same way if its answer is made in the same way. -/
theorem answerMember_withTokens {credentials : Wire.Credentials}
    (h : world.lobby.HasToken credentials.token credentials.slot ↔
      (world.withTokens issuer tokens).lobby.HasToken word credentials.slot) (seat : Seat)
    {answer renewed : Lobby → Room → Answer}
    (hanswer : ∀ lobby room,
      renewed (lobby.withTokens tokens) room = (answer lobby room).withToken word) :
    (world.withTokens issuer tokens).answerMember now peer (credentials.withToken word) seat
        renewed =
      Prod.map (·.withTokens issuer tokens) (·.withToken word)
        (world.answerMember now peer credentials seat answer) := by
  have hfind : ∀ result,
      (world.lobby.withTokens tokens).findByCredentials (credentials.withToken word) = result →
      (world.withTokens issuer tokens).lobby.findByCredentials (credentials.withToken word) =
        result :=
    fun _ h => h
  have hrooms : (world.withTokens issuer tokens).rooms = world.rooms := rfl
  rcases Lobby.findByCredentials_withTokens h with
    ⟨hnone, hnone'⟩ | ⟨session, token, hfound, hfound'⟩
  · rw [answerMember_of_eq_none hnone]
    exact answerMember_of_eq_none (hfind _ hnone') seat renewed
  · rw [answerMember_of_eq_some hfound, answerMember_of_eq_some (hfind _ hfound'),
      touch_withTokens, hrooms]
    cases world.rooms.room? seat.room with
    | none => rfl
    | some room => exact congrArg (Prod.mk _) (hanswer _ room)

theorem serveUnreliable_withTokens {header : Wire.UnreliableHeader}
    (h : world.lobby.HasToken header.credentials.token header.credentials.slot ↔
      (world.withTokens issuer tokens).lobby.HasToken word header.credentials.slot) :
    (world.withTokens issuer tokens).serveUnreliable config now peer
        { header with credentials := header.credentials.withToken word } =
      Prod.map (·.withTokens issuer tokens) (·.withToken word)
        (world.serveUnreliable config now peer header) := by
  have hclaimed : config.claimedSeat? (header.credentials.withToken word) =
      config.claimedSeat? header.credentials := rfl
  simp only [serveUnreliable, hclaimed]
  cases config.claimedSeat? header.credentials with
  | none => rfl
  | some seat =>
      refine answerMember_withTokens h seat fun lobby room => ?_
      rw [room.unreliableRecipients_withTokens]
      cases room.unreliableRecipients lobby seat.index header.target <;> rfl

theorem serveReliable_withTokens {header : Wire.ReliableHeader}
    (h : world.lobby.HasToken header.credentials.token header.credentials.slot ↔
      (world.withTokens issuer tokens).lobby.HasToken word header.credentials.slot) :
    (world.withTokens issuer tokens).serveReliable config now peer
        { header with credentials := header.credentials.withToken word } =
      Prod.map (·.withTokens issuer tokens) (·.withToken word)
        (world.serveReliable config now peer header) := by
  have hclaimed : config.claimedSeat? (header.credentials.withToken word) =
      config.claimedSeat? header.credentials := rfl
  simp only [serveReliable, hclaimed]
  cases config.claimedSeat? header.credentials with
  | none => rfl
  | some seat =>
      cases config.targetIndex? header.target with
      | none => rfl
      | some target =>
          refine answerMember_withTokens h seat fun lobby room => ?_
          rw [Room.reliableRoute, Room.reliableRoute, room.memberAddress?_withTokens]
          cases room.memberAddress? lobby target <;> rfl

theorem serveRelied_withTokens {relied : Wire.Relied}
    (h : world.lobby.HasToken relied.credentials.token relied.credentials.slot ↔
      (world.withTokens issuer tokens).lobby.HasToken word relied.credentials.slot) :
    (world.withTokens issuer tokens).serveRelied config now peer
        { relied with credentials := relied.credentials.withToken word } =
      Prod.map (·.withTokens issuer tokens) (·.withToken word)
        (world.serveRelied config now peer relied) := by
  have hclaimed : config.claimedSeat? (relied.credentials.withToken word) =
      config.claimedSeat? relied.credentials := rfl
  simp only [serveRelied, hclaimed]
  cases config.claimedSeat? relied.credentials with
  | none => rfl
  | some seat =>
      cases config.targetIndex? relied.target with
      | none => rfl
      | some target =>
          refine answerMember_withTokens h seat fun lobby room => ?_
          rw [Room.reliedRecipient, Room.reliedRecipient, room.memberAddress?_withTokens]
          cases room.memberAddress? lobby target <;> rfl

/-- Serving a request commutes with an exchange of tokens that does not decide whether the request
is recognised. -/
theorem serve_withTokens (config : Config) (now : Instant) (peer : SocketAddress)
    {request : Request} (hlogin : request.kind ≠ .login)
    (h : request.HasToken world.lobby ↔
      (request.withToken word).HasToken (world.withTokens issuer tokens).lobby) :
    (world.withTokens issuer tokens).serve config now peer (request.withToken word) =
      Prod.map (·.withTokens issuer tokens) (·.withToken word)
        (world.serve config now peer request) := by
  have named : ∀ {token : UInt32} {raw : Int16}, request.claim? = some (token, raw) →
      (request.withToken word).claim? = some (word, raw) →
      (world.lobby.HasToken token raw ↔
        (world.withTokens issuer tokens).lobby.HasToken word raw) := by
    intro token raw hclaim hclaim'
    simpa only [Request.HasToken, hclaim, hclaim', Option.some.injEq, Prod.mk.injEq,
      and_assoc, exists_eq_left', exists_and_left] using h
  cases request with
  | login _ => exact absurd rfl hlogin
  | ping _ => exact servePing_withTokens (named rfl rfl)
  | logout _ => exact serveLogout_withTokens (named rfl rfl)
  | create _ => exact serveCreate_withTokens (named rfl rfl)
  | join _ => exact serveJoin_withTokens (named rfl rfl)
  | leave _ => exact serveLeave_withTokens (named rfl rfl)
  | unreliable _ => exact serveUnreliable_withTokens (named rfl rfl)
  | reliable _ => exact serveReliable_withTokens (named rfl rfl)
  | relied _ => exact serveRelied_withTokens (named rfl rfl)

end World

end RoomRelay
