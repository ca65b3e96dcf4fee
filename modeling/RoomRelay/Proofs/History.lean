import RoomRelay.Proofs.Identity
import RoomRelay.Proofs.Token

/-!
# What becomes of sessions

The tokens of the sessions that a run opens are those that the issuer gives out in a row, and a
session that is live after the run was live before it or was opened by it.
-/

namespace RoomRelay

namespace World

variable {config : Config} {world : World}

/-- The sessions of a later world that an earlier one did not have, in the order of their slots. -/
def newcomers (before after : World) : List Session :=
  after.lobby.sessions.filter fun session =>
    (before.lobby.get? session.slot).map Session.token ≠ some session.token

/-- The sessions that are opened in a run, in the order of events. -/
def opened (world : World) (config : Config) : List Event → List Session
  | [] => []
  | event :: rest =>
    world.newcomers (world.handle config event) ++ (world.handle config event).opened config rest

/-- How often in a run the counter of tokens is turned. -/
def issues (world : World) (config : Config) : List Event → Nat
  | [] => 0
  | event :: rest =>
    (if (world.handle config event).tokens = world.tokens then 0 else 1) +
      (world.handle config event).issues config rest

theorem opened_append (world : World) (config : Config) (first second : List Event) :
    world.opened config (first ++ second) =
      world.opened config first ++ (world.run config first).opened config second := by
  induction first generalizing world with
  | nil => rfl
  | cons event rest ih =>
      rw [List.cons_append, opened, opened, ih, List.append_assoc]
      rfl

theorem newcomers_of_shrinks {after : World} (hafter : after.Consistent config)
    (h : Shrinks world after) : world.newcomers after = [] := by
  apply List.filter_eq_nil_iff.mpr
  intro session hmem
  obtain ⟨old, hold, -, -, htoken⟩ := h.get? (hafter.lobby.mem_sessions.mp hmem)
  simp [hold, htoken]

theorem newcomers_of_opens {after : World} {session : Session} (hafter : after.Consistent config)
    (h : Opens session world after) : world.newcomers after = [session] := by
  refine List.perm_singleton.mp ((List.perm_ext_iff_of_nodup
    (hafter.lobby.nodup_sessions.filter _) (List.nodup_singleton session)).mpr fun found => ?_)
  simp only [List.mem_filter, hafter.lobby.mem_sessions, List.mem_singleton, decide_eq_true_eq]
  constructor
  · rintro ⟨hget, hnew⟩
    rw [h.get?] at hget
    split at hget
    · exact (Option.some.inj hget).symm
    · simp [hget] at hnew
  · rintro rfl
    refine ⟨by rw [h.get?, if_pos rfl], ?_⟩
    rw [h.free]
    exact nofun

/-- The tokens of the sessions that a run opens are given out in a row. -/
theorem tokens_opened (hconfig : config.Bounded) (h : world.Consistent config)
    (events : List Event) :
    (world.opened config events).map Session.token =
      (world.tokens.issueMany (world.issues config events)).1 := by
  induction events generalizing world with
  | nil => rfl
  | cons event rest ih =>
      have hafter := h.handle event
      rw [opened, issues, List.map_append, ih hafter]
      rcases shrinks_or_opens hconfig h event with hshrinks | ⟨session, hopens⟩
      · rw [newcomers_of_shrinks hafter hshrinks, if_pos hshrinks.tokens, hshrinks.tokens,
          Nat.zero_add]
        rfl
      · rw [newcomers_of_opens hafter hopens, hopens.tokens,
          if_neg (TokenIssuer.issue_ne_self _), Nat.add_comm]
        simp [TokenIssuer.issueMany, hopens.token]

/-- A session that is live after a run was live before it or was opened by it. -/
theorem get?_run (hconfig : config.Bounded) (h : world.Consistent config) {events : List Event}
    {slot : SlotId} {session : Session}
    (hget : (world.run config events).lobby.get? slot = some session) :
    (∃ old, world.lobby.get? slot = some old ∧ session.token = old.token) ∨
      ∃ opened ∈ world.opened config events, opened.slot = slot ∧
        session.token = opened.token := by
  induction events generalizing world with
  | nil => exact .inl ⟨session, hget, rfl⟩
  | cons event rest ih =>
      have hafter := h.handle event
      rcases ih hafter hget with ⟨mid, hmid, htoken⟩ | ⟨opened, hmem, hopened⟩
      · rcases shrinks_or_opens hconfig h event with hshrinks | ⟨fresh, hopens⟩
        · obtain ⟨old, hold, -, -, htoken'⟩ := hshrinks.get? hmid
          exact .inl ⟨old, hold, htoken.trans htoken'⟩
        · rw [hopens.get?] at hmid
          split at hmid
          · next hslot =>
            cases hmid
            refine .inr ⟨mid, ?_, hslot, htoken⟩
            rw [World.opened, newcomers_of_opens hafter hopens]
            exact List.mem_append_left _ List.mem_cons_self
          · exact .inl ⟨mid, hmid, htoken⟩
      · exact .inr ⟨opened, List.mem_append_right _ hmem, hopened⟩

end World

end RoomRelay
