import RoomRelay.Proofs.Answer
import RoomRelay.Proofs.Packet
import RoomRelay.Proofs.Retoken

/-!
# What tokens give away

Nothing that is sent depends on a token, but for the answer to a login, which tells the client its
own. Two worlds that differ in their tokens alone, and two requests that differ in theirs, are told
apart by no frame and by nothing that the requests leave behind, if both requests are recognised or
neither is. Frames that are cut from the datagram in which the token came hold none of it either.
-/

namespace RoomRelay

/-- The payload of a packet; other requests have none. -/
def Request.payload (datagram : List UInt8) : Request → List UInt8
  | .unreliable header => (datagram.drop Wire.UnreliableHeader.width).take header.size.toNat
  | .reliable header => (datagram.drop Wire.ReliableHeader.width).take header.size.toNat
  | _ => []

/-- Whether an answer passes on no other packet than the request. -/
def Answer.PassesOn (request : Request) : Answer → Prop
  | .relayUnreliable header _ => request = .unreliable header
  | .relayReliable header _ => request = .reliable header
  | _ => True

namespace Request

@[simp] theorem kind_withToken (request : Request) (word : UInt32) :
    (request.withToken word).kind = request.kind := by
  cases request <;> rfl

/-- A request that has a token does not change if it is given that token. -/
theorem exists_withToken_eq_self (request : Request) :
    ∃ word, request.withToken word = request := by
  cases request with
  | login _ => exact ⟨0, rfl⟩
  | create request => exact ⟨request.token, rfl⟩
  | join request => exact ⟨request.token, rfl⟩
  | ping request => exact ⟨request.credentials.token, rfl⟩
  | logout request => exact ⟨request.credentials.token, rfl⟩
  | leave request => exact ⟨request.credentials.token, rfl⟩
  | unreliable header => exact ⟨header.credentials.token, rfl⟩
  | reliable header => exact ⟨header.credentials.token, rfl⟩
  | relied request => exact ⟨request.credentials.token, rfl⟩

end Request

namespace Answer

variable {request : Request} {answer : Answer} {one other : Scratch} {word : UInt32}

/-- Frames do not tell the token of the request that they answer. -/
theorem frames_withToken (hpasses : answer.PassesOn request)
    (hone : Request.decode one.datagram = .ok request)
    (hother : Request.decode other.datagram = .ok (request.withToken word))
    (hpayload : request.payload one.datagram = request.payload other.datagram)
    (kind : Wire.Kind) (peer : SocketAddress) :
    ((answer.withToken word).frames other kind peer).2 = (answer.frames one kind peer).2 := by
  cases answer with
  | drop | silent => rfl
  | status _ | pinged _ | loggedIn _ | created _ | joined _ =>
      exact Scratch.snd_write_congr other one peer rfl
  | relayUnreliable header recipients =>
      obtain rfl : request = .unreliable header := hpasses
      obtain ⟨-, _, hcut⟩ := Wire.UnreliableHeader.exists_relayFrame?
        (Request.decode_eq_unreliable_iff.mp hone) header.credentials.index
      obtain ⟨-, _, hcut'⟩ := Wire.UnreliableHeader.exists_relayFrame?
        (Request.decode_eq_unreliable_iff.mp hother) header.credentials.index
      simp only [withToken, frames, Scratch.relay, Wire.Credentials.withToken] at hcut' ⊢
      rw [hcut, hcut']
      simp only [Request.payload] at hpayload
      rw [hpayload]
  | relayReliable header recipient =>
      obtain rfl : request = .reliable header := hpasses
      obtain ⟨-, _, hcut⟩ := Wire.ReliableHeader.exists_relayFrame?
        (Request.decode_eq_reliable_iff.mp hone) header.credentials.index
      obtain ⟨-, _, hcut'⟩ := Wire.ReliableHeader.exists_relayFrame?
        (Request.decode_eq_reliable_iff.mp hother) header.credentials.index
      simp only [withToken, frames, Scratch.relay, Wire.Credentials.withToken] at hcut' ⊢
      rw [hcut, hcut']
      simp only [Request.payload] at hpayload
      rw [hpayload]
  | acknowledge index ack recipient =>
      obtain ⟨_, hcut⟩ :=
        Wire.exists_ackFrame? (Request.ackFrameSize_le_of_decode hone) index ack
      obtain ⟨_, hcut'⟩ :=
        Wire.exists_ackFrame? (Request.ackFrameSize_le_of_decode hother) index ack
      simp only [withToken, frames, Scratch.relay, hcut, hcut']

end Answer

namespace World

section PassesOn

variable {config : Config} {now : Instant} {peer : SocketAddress} {request : Request}

theorem passesOn_answerSeated (world : World) (slot : SlotId) (refusal : Wire.Status)
    {answer : Seat → Room → UInt8 → Answer}
    (h : ∀ seat room flags, (answer seat room flags).PassesOn request) :
    (world.answerSeated config now slot refusal answer).2.PassesOn request := by
  rw [answerSeated]
  split
  · trivial
  · split
    · trivial
    · split
      · trivial
      · exact h _ _ _

theorem passesOn_answerMember (world : World) (credentials : Wire.Credentials) (seat : Seat)
    {answer : Lobby → Room → Answer} (h : ∀ lobby room, (answer lobby room).PassesOn request) :
    (world.answerMember now peer credentials seat answer).2.PassesOn request := by
  rw [answerMember]
  split
  · trivial
  · split
    · trivial
    · exact h _ _

/-- What is passed on is the packet that came. -/
theorem passesOn_serve (world : World) (hlogin : request.kind ≠ .login) :
    (world.serve config now peer request).2.PassesOn request := by
  cases request with
  | login _ => exact absurd rfl hlogin
  | ping ping =>
      simp only [serve, servePing]
      split <;> trivial
  | logout logout =>
      simp only [serve]
      rcases world.serveLogout_cases config logout with h | h | ⟨session, -, h⟩ <;> rw [h] <;>
        trivial
  | create create =>
      simp only [serve, serveCreate]
      split
      · trivial
      · exact passesOn_answerSeated _ _ _ fun _ _ _ => trivial
  | join join =>
      simp only [serve, serveJoin]
      split
      · trivial
      · exact passesOn_answerSeated _ _ _ fun _ _ _ => trivial
  | leave leave =>
      simp only [serve, serveLeave]
      split <;> trivial
  | unreliable header =>
      simp only [serve, serveUnreliable]
      split
      · trivial
      · refine passesOn_answerMember world _ _ fun lobby room => ?_
        split
        · trivial
        · rfl
  | reliable header =>
      simp only [serve, serveReliable]
      split
      · refine passesOn_answerMember world _ _ fun lobby room => ?_
        split
        · rfl
        · trivial
      · trivial
  | relied relied =>
      simp only [serve, serveRelied]
      split
      · refine passesOn_answerMember world _ _ fun lobby room => ?_
        split <;> trivial
      · trivial

end PassesOn

/-- Whether two worlds are equal but for their tokens: they are the same world if the same tokens
are put into both. -/
def SameButTokens (first second : World) : Prop :=
  ∀ issuer tokens, first.withTokens issuer tokens = second.withTokens issuer tokens

/-- Whether a later world has the tokens of an earlier one: its issuer stands where it stood, and
each session has the token of the session that was in its place. -/
structure KeepsTokens (before after : World) : Prop where
  tokens : after.tokens = before.tokens
  session : ∀ {position : Nat} {session : Session},
    after.lobby.slots[position]? = some (some session) →
      ∃ old, before.lobby.slots[position]? = some (some old) ∧ session.token = old.token

/-- The token at each position, with another one for the positions that are free. -/
def tokensOr (world : World) (spare : Token) (position : Nat) : Token :=
  match world.lobby.slots[position]? with
  | some (some session) => session.token
  | _ => spare

theorem withTokens_tokensOr (world : World) (spare : Token) :
    world.withTokens world.tokens (world.tokensOr spare) = world := by
  obtain ⟨issuer, ⟨slots, live⟩, rooms⟩ := world
  simp only [withTokens, Lobby.withTokens, mk.injEq, Lobby.mk.injEq, true_and, and_true]
  apply Array.ext_getElem?
  intro position
  simp only [Array.getElem?_mapIdx, tokensOr]
  rcases slots[position]? with _ | _ | session <;> rfl

/-- The second world is the first one with its own tokens put in. -/
theorem SameButTokens.eq_withTokens {first second : World} (h : first.SameButTokens second)
    (spare : Token) : first.withTokens second.tokens (second.tokensOr spare) = second := by
  rw [h, withTokens_tokensOr]

theorem sameButTokens_withTokens (world : World) (issuer : TokenIssuer) (tokens : Nat → Token) :
    world.SameButTokens (world.withTokens issuer tokens) := by
  intro issuer' tokens'
  rw [withTokens_withTokens]

/-- A world whose sessions would have its tokens whatever was put in has the old ones. -/
theorem keepsTokens_of_withTokens {before after : World}
    (h : ∀ spare, after.withTokens before.tokens (before.tokensOr spare) = after) :
    before.KeepsTokens after where
  tokens := (congrArg World.tokens (h ⟨1, by decide⟩)).symm
  session {position session} hcell := by
    have htoken : ∀ spare, session.token = before.tokensOr spare position := by
      intro spare
      have hsame := congrArg (fun world => world.lobby.slots[position]?) (h spare)
      simp only [withTokens, Lobby.withTokens, Array.getElem?_mapIdx, hcell, Option.map_some,
        Option.some.injEq] at hsame
      exact (congrArg Session.token hsame).symm
    simp only [tokensOr] at htoken
    -- A free place would have any spare token, so it would have two.
    have hfree : (∀ spare, session.token = spare) → False := fun hspare =>
      absurd ((hspare ⟨1, by decide⟩).symm.trans (hspare ⟨2, by decide⟩)) (by decide)
    rcases hold : before.lobby.slots[position]? with _ | _ | old
    · rw [hold] at htoken
      exact (hfree htoken).elim
    · rw [hold] at htoken
      exact (hfree htoken).elim
    · rw [hold] at htoken
      exact ⟨old, rfl, htoken ⟨1, by decide⟩⟩

variable {config : Config} {now : Instant} {peer : SocketAddress} {request : Request}

/-- No request but a login issues a token or changes one. -/
theorem keepsTokens_serve (world : World) (hlogin : request.kind ≠ .login) :
    world.KeepsTokens (world.serve config now peer request).1 := by
  obtain ⟨word, hword⟩ := request.exists_withToken_eq_self
  refine keepsTokens_of_withTokens fun spare => ?_
  have hmatch : request.HasToken world.lobby ↔ (request.withToken word).HasToken
      (world.withTokens world.tokens (world.tokensOr spare)).lobby := by
    rw [hword, withTokens_tokensOr]
  have hserve := serve_withTokens config now peer hlogin hmatch
  rw [hword, withTokens_tokensOr] at hserve
  exact (congrArg Prod.fst hserve).symm

/-- Tokens are not given away. Take two worlds that are equal but for their tokens, and in each a
datagram of the same request, not a login, that differ at most in the token and in what follows the
request; and let the tokens be right in both worlds or wrong in both. Then the same frames are sent
to the same addresses in the same order, and the worlds are again equal but for their tokens, of
which neither changed. Nothing is assumed about how the worlds came about. -/
theorem secrecy_of_dispatch (config : Config) (now : Instant) (peer : SocketAddress)
    {first second : World} (hworlds : first.SameButTokens second) (one other : Scratch)
    {word : UInt32} (hlogin : request.kind ≠ .login)
    (hone : Request.decode one.datagram = .ok request)
    (hother : Request.decode other.datagram = .ok (request.withToken word))
    (hpayload : request.payload one.datagram = request.payload other.datagram)
    (hmatch : request.HasToken first.lobby ↔ (request.withToken word).HasToken second.lobby) :
    let sent := first.dispatch config now one peer
    let sent' := second.dispatch config now other peer
    sent.frames = sent'.frames ∧ sent.world.SameButTokens sent'.world ∧
      first.KeepsTokens sent.world ∧ second.KeepsTokens sent'.world := by
  intro sent sent'
  let tokens := second.tokensOr ⟨1, by decide⟩
  have hsecond : first.withTokens second.tokens tokens = second := hworlds.eq_withTokens _
  have hserve : second.serve config now peer (request.withToken word) =
      Prod.map (·.withTokens second.tokens tokens) (·.withToken word)
        (first.serve config now peer request) := by
    rw [← hsecond] at hmatch
    rw [← serve_withTokens config now peer hlogin hmatch, hsecond]
  have hworld : sent.world = (first.serve config now peer request).1 := by
    rw [world_dispatch, receive_of_decode _ _ _ _ hone]
  have hworld' : sent'.world = (second.serve config now peer (request.withToken word)).1 := by
    rw [world_dispatch, receive_of_decode _ _ _ _ hother]
  refine ⟨?_, ?_, ?_, ?_⟩
  · simp only [sent, sent', frames_dispatch, hone, hother, hserve, Prod.map,
      Request.kind_withToken]
    exact (Answer.frames_withToken (passesOn_serve first hlogin) hone hother hpayload _ _).symm
  · rw [hworld, hworld', hserve]
    exact sameButTokens_withTokens _ _ _
  · rw [hworld]
    exact keepsTokens_serve first hlogin
  · rw [hworld']
    exact keepsTokens_serve second (by rwa [Request.kind_withToken])

/-- Two bytes sent from one member of a room to the other, once with the tokens that were issued
and once with others. The frame is the same, although the second datagram goes on after the
packet. -/
theorem secrecy_of_pair :
    let first := (ofConfig .small).run .small smallPair
    let second := first.withTokens ⟨3⟩ fun position =>
      if position = 0 then ⟨77, by decide⟩ else ⟨78, by decide⟩
    let header : Wire.UnreliableHeader := ⟨⟨654988, 0, 0, 0⟩, 1, 2⟩
    let header' : Wire.UnreliableHeader := ⟨⟨77, 0, 0, 0⟩, 1, 2⟩
    let datagram := Wire.packet .unreliable Wire.UnreliableHeader.format header [5, 6]
    let datagram' := Wire.packet .unreliable Wire.UnreliableHeader.format header' [5, 6] ++ [9]
    first.SameButTokens second ∧
      Request.decode datagram = .ok (.unreliable header) ∧
      Request.decode datagram' = .ok (.unreliable header') ∧
      (Request.unreliable header).HasToken first.lobby ∧
      (Request.unreliable header').HasToken second.lobby ∧
      (first.dispatch .small 9 ⟨.empty, datagram⟩ smallPeer).frames =
        [⟨smallPeer, [10, 0, 2, 5, 6]⟩] ∧
      (second.dispatch .small 9 ⟨.empty, datagram'⟩ smallPeer).frames =
        [⟨smallPeer, [10, 0, 2, 5, 6]⟩] := by
  intro first second header header' datagram datagram'
  have hworlds : first.SameButTokens second := sameButTokens_withTokens _ _ _
  have hdecode : Request.decode datagram = .ok (.unreliable header) :=
    Request.decode_eq_unreliable_iff.mpr
      (Wire.readHeader_eq_ok_iff.mpr ⟨[5, 6], [], rfl, (List.append_nil _).symm⟩)
  have hdecode' : Request.decode datagram' = .ok (.unreliable header') :=
    Request.decode_eq_unreliable_iff.mpr
      (Wire.readHeader_eq_ok_iff.mpr ⟨[5, 6], [9], rfl, rfl⟩)
  have hpayload : (Request.unreliable header).payload datagram =
      (Request.unreliable header).payload datagram' := by
    decide
  let sender : Session :=
    { slot := ⟨0⟩, device := Vector.replicate _ 7, token := ⟨654988, by decide⟩
      peer := smallPeer, lastActive := 0, seat := some ⟨⟨0⟩, ⟨0⟩⟩, flags := Wire.masterFlag }
  have htoken : (Request.unreliable header).HasToken first.lobby :=
    ⟨_, _, rfl, Lobby.hasToken_iff.mpr ⟨sender, by decide +kernel⟩⟩
  have htoken' : (Request.unreliable header').HasToken second.lobby :=
    ⟨_, _, rfl, Lobby.hasToken_iff.mpr ⟨sender.withToken ⟨77, by decide⟩, by decide +kernel⟩⟩
  have hframes : (first.dispatch .small 9 ⟨.empty, datagram⟩ smallPeer).frames =
      [⟨smallPeer, [10, 0, 2, 5, 6]⟩] := by
    decide +kernel
  obtain ⟨hsame, -, -, -⟩ := secrecy_of_dispatch .small 9 smallPeer hworlds ⟨.empty, datagram⟩
    ⟨.empty, datagram'⟩ (by decide) hdecode hdecode' hpayload (iff_of_true htoken htoken')
  exact ⟨hworlds, hdecode, hdecode', htoken, htoken', hframes, hsame ▸ hframes⟩

end World

end RoomRelay
