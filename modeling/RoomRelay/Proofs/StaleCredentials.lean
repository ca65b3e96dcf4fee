import RoomRelay.Proofs.Answer
import RoomRelay.Proofs.History
import RoomRelay.Proofs.Service

/-!
# Stale credentials

The token of a session that was closed opens no door any more. While the issuer is in its first
round, every session of a run has a token of its own, and nobody else is given it later on. Slots
and seats are handed out again, tokens are not, so whoever sends a token of the past is rejected,
whatever slot and seat the rest of the credentials names.
-/

namespace RoomRelay.World

variable {config : Config} {world : World}

theorem get?_ofConfig (config : Config) (slot : SlotId) :
    (ofConfig config).lobby.get? slot = none := by
  simp only [ofConfig, Lobby.ofCapacity, Lobby.get?, Array.getElem?_replicate]
  split <;> rfl

/-- Sessions that a server opens while the issuer is in its first round have tokens of their own. -/
theorem nodup_tokens_opened (hconfig : config.Bounded) (h : world.Consistent config)
    {events : List Event} (hissues : world.issues config events ≤ TokenIssuer.period) :
    ((world.opened config events).map Session.token).Nodup := by
  rw [tokens_opened hconfig h]
  exact TokenIssuer.nodup_issueMany _ hissues

/-- A session that is live after a run from the start was opened in its slot during the run. -/
theorem opened_of_live (hconfig : config.Bounded) {events : List Event} {slot : SlotId}
    {session : Session}
    (hget : ((ofConfig config).run config events).lobby.get? slot = some session) :
    ∃ opened ∈ (ofConfig config).opened config events, opened.slot = slot ∧
      session.token = opened.token := by
  rcases get?_run hconfig (.ofConfig config) hget with ⟨old, hold, -⟩ | hopened
  · rw [get?_ofConfig] at hold
    cases hold
  · exact hopened

/-- If all sessions of a run have tokens of their own, one that has a token from the first part of
it was there at the end of that part. -/
theorem live_of_live_later (hconfig : config.Bounded) (h : world.Consistent config)
    {early late : List Event}
    (hnodup : ((world.opened config (early ++ late)).map Session.token).Nodup)
    {slot : SlotId} {opened found : Session} (hopened : opened ∈ world.opened config early)
    (hfound : (world.run config (early ++ late)).lobby.get? slot = some found)
    (htoken : found.token = opened.token) :
    ∃ old, (world.run config early).lobby.get? slot = some old ∧ old.token = opened.token := by
  rw [opened_append, List.map_append, List.nodup_append] at hnodup
  rw [run_append] at hfound
  rcases get?_run hconfig (h.run early) hfound with ⟨old, hold, hsame⟩ | ⟨later, hlater, -, hsame⟩
  · exact ⟨old, hold, hsame.symm.trans htoken⟩
  · have hclash := hnodup.2.2 _ (List.mem_map_of_mem hopened) _ (List.mem_map_of_mem hlater)
    exact absurd (htoken.symm.trans hsame) hclash

/-- The token of a session that was closed is nobody's token afterwards. -/
theorem token_ne_of_closed (hconfig : config.Bounded) {early middle late : List Event}
    (hnodup : (((ofConfig config).opened config (early ++ middle ++ late)).map
      Session.token).Nodup)
    {slot slot' : SlotId} {session found : Session}
    (hlive : ((ofConfig config).run config early).lobby.get? slot = some session)
    (hclosed : ∀ other,
      ((ofConfig config).run config (early ++ middle)).lobby.get? slot = some other →
        other.token ≠ session.token)
    (hfound : ((ofConfig config).run config (early ++ middle ++ late)).lobby.get? slot' =
      some found) :
    found.token ≠ session.token := by
  intro htoken
  have start := Consistent.ofConfig config
  have hmiddle : (((ofConfig config).opened config (early ++ middle)).map
      Session.token).Nodup := by
    rw [opened_append, List.map_append] at hnodup
    exact hnodup.of_append_left
  have hearly : (((ofConfig config).opened config early).map Session.token).Nodup := by
    rw [opened_append, List.map_append] at hmiddle
    exact hmiddle.of_append_left
  obtain ⟨opened, hopened, hslot, hsame⟩ := opened_of_live hconfig hlive
  -- Back in time, the token stays where it is now: at the middle, and at the beginning.
  have hopened' : opened ∈ (ofConfig config).opened config (early ++ middle) := by
    rw [opened_append]
    exact List.mem_append_left _ hopened
  obtain ⟨between, hbetween, hbetweenToken⟩ :=
    live_of_live_later hconfig start hnodup hopened' hfound (htoken.trans hsame)
  obtain ⟨before, hbefore, hbeforeToken⟩ :=
    live_of_live_later hconfig start hmiddle hopened hbetween hbetweenToken
  obtain ⟨other, hother, hotherSlot, hotherToken⟩ := opened_of_live hconfig hbefore
  have hone : opened = other :=
    List.inj_on_of_nodup_map hearly hopened hother (hbeforeToken.symm.trans hotherToken)
  rw [← hotherSlot, ← hone, hslot] at hbetween
  exact hclosed between hbetween (hbetweenToken.trans hsame.symm)

/-- As long as the issuer is in its first round, all sessions that a server opens have tokens of
their own, and none of them is zero. Once a session is closed, whatever is sent with its token is
dropped or answered as expired, and changes nothing. -/
theorem stale_credentials_rejected (hconfig : config.validate = .ok ())
    (early middle late : List Event)
    (hissues : (ofConfig config).issues config (early ++ middle ++ late) ≤
      TokenIssuer.period) :
    (((ofConfig config).opened config (early ++ middle ++ late)).map Session.token).Nodup ∧
      (∀ session ∈ (ofConfig config).opened config (early ++ middle ++ late),
        session.token.word ≠ 0) ∧
      ∀ (slot : SlotId) (session : Session),
        ((ofConfig config).run config early).lobby.get? slot = some session →
        (∀ other,
          ((ofConfig config).run config (early ++ middle)).lobby.get? slot = some other →
            other.token ≠ session.token) →
        ∀ (now : Instant) (peer : SocketAddress) (scratch : Scratch) (request : Request)
          (raw : Int16),
          Request.decode scratch.datagram = .ok request →
          request.claim? = some (session.token.word, raw) →
          let world := (ofConfig config).run config (early ++ middle ++ late)
          let answer := (world.receive config now peer scratch.datagram).2
          let dispatched := world.dispatch config now scratch peer
          dispatched.world = world ∧
            (answer = .drop ∧ dispatched.frames = [] ∨
              answer = .status .expired ∧ dispatched.frames =
                [⟨peer, (Wire.StatusResponse.mk request.kind .expired).bytes⟩]) := by
  have hbounded := Config.bounded_of_validate hconfig
  have hnodup := nodup_tokens_opened hbounded (.ofConfig config) hissues
  refine ⟨hnodup, fun session _ => session.token.word_ne_zero, ?_⟩
  intro slot session hlive hclosed now peer scratch request raw hdecode hclaim world answer
    dispatched
  have hconsistent : world.Consistent config := (Consistent.ofConfig config).run _
  have hnone : request.recognise? world.lobby = none :=
    Request.recognise?_eq_none hclaim fun _ _ hfound hword =>
      token_ne_of_closed hbounded hnodup hlive hclosed hfound (Token.word_inj.mp hword)
  have hlogin : request.kind ≠ .login := by
    intro hkind
    cases request <;> cases hkind
    cases hclaim
  obtain ⟨hworld, hrejected⟩ :=
    serve_of_recognise?_eq_none now peer hbounded hconsistent hlogin hnone
  have hreceive := world.receive_of_decode config now peer hdecode
  have hframes := world.frames_dispatch config now scratch peer
  rw [hdecode] at hframes
  have hanswer : answer = (world.serve config now peer request).2 := by
    show (world.receive config now peer scratch.datagram).2 = _
    rw [hreceive]
  constructor
  · show (world.dispatch config now scratch peer).world = world
    rw [world_dispatch, hreceive, hworld]
  · rw [hanswer]
    show _ ∧ (world.dispatch config now scratch peer).frames = [] ∨
      _ ∧ (world.dispatch config now scratch peer).frames = _
    rw [hframes]
    cases hrejected with
    | inl hdrop => exact .inl ⟨hdrop, by simp only [hdrop, Answer.frames]⟩
    | inr hexpired => exact .inr ⟨hexpired, by simp only [hexpired, Answer.frames_status]⟩

/-- The first device logs out and a second one is given its slot; then the token of the first is
used once more. -/
theorem stale_ping_rejected :
    let first : Session :=
      .fresh ⟨0⟩ (Vector.replicate _ 7) ⟨654988, by decide⟩ smallPeer 0
    let logout : Event :=
      .datagram 1 smallPeer ⟨.empty, Wire.Logout.record.bytes ⟨654988, 0, -1, -1⟩⟩
    let ping : Wire.Ping := ⟨⟨654988, 0, -1, -1⟩, 0⟩
    let world := (ofConfig .small).run .small ([smallLogin 7] ++ [logout] ++ [smallLogin 8])
    let dispatched := world.dispatch .small 2 ⟨.empty, Wire.Ping.record.bytes ping⟩ smallPeer
    Config.validate .small = .ok () ∧
      (ofConfig .small).issues .small ([smallLogin 7] ++ [logout] ++ [smallLogin 8]) = 2 ∧
      ((ofConfig .small).run .small [smallLogin 7]).lobby.get? ⟨0⟩ = some first ∧
      ((ofConfig .small).run .small ([smallLogin 7] ++ [logout])).lobby.get? ⟨0⟩ = none ∧
      (world.lobby.get? ⟨0⟩).isSome ∧ dispatched.world = world ∧
      dispatched.frames = [⟨smallPeer, [1, 1]⟩] := by
  intro first logout ping world dispatched
  have hconfig : Config.validate .small = .ok () := rfl
  have hissues : (ofConfig .small).issues .small
      ([smallLogin 7] ++ [logout] ++ [smallLogin 8]) = 2 := by decide +kernel
  have hlive : ((ofConfig .small).run .small [smallLogin 7]).lobby.get? ⟨0⟩ = some first := by
    decide +kernel
  have hclosed : ((ofConfig .small).run .small ([smallLogin 7] ++ [logout])).lobby.get? ⟨0⟩ =
      none := by decide +kernel
  have hdecode : Request.decode (Wire.Ping.record.bytes ⟨⟨654988, 0, -1, -1⟩, 0⟩) =
      .ok (.ping ⟨⟨654988, 0, -1, -1⟩, 0⟩) := rfl
  obtain ⟨-, -, hstale⟩ := stale_credentials_rejected hconfig [smallLogin 7] [logout]
    [smallLogin 8] (by rw [hissues]; decide)
  obtain ⟨hworld, -⟩ := hstale ⟨0⟩ first hlive (by rw [hclosed]; exact nofun) 2 smallPeer
    ⟨.empty, Wire.Ping.record.bytes ping⟩ (.ping ping) 0 hdecode rfl
  exact ⟨hconfig, hissues, hlive, hclosed, by decide +kernel, hworld, by decide +kernel⟩

end RoomRelay.World
