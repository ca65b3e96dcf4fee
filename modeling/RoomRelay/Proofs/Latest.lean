import Mathlib.Data.List.Induction
import RoomRelay.Proofs.Reign

/-!
# The latest event of a kind

What a server holds goes back to earlier events, and of several events of one kind the latest one
counts. Whether an event is of a kind may depend on the world that it meets. As a run goes on, its
latest event of a kind is the next event if that is of the kind, and the old one if it is not.
-/

namespace RoomRelay

/-- The request that an event brings, if it brings one. -/
def Event.request? : Event → Option Request
  | .datagram _ _ scratch => (Request.decode scratch.datagram).toOption
  | .sweep _ _ => none

/-- Where a datagram comes from. -/
def Event.peer? : Event → Option SocketAddress
  | .datagram _ peer _ => some peer
  | .sweep _ _ => none

/-- An event that brings a request is a datagram that is decoded as one. -/
theorem Event.request?_eq_some_iff {event : Event} {request : Request} :
    event.request? = some request ↔
      ∃ now peer scratch, event = .datagram now peer scratch ∧
        Request.decode scratch.datagram = .ok request := by
  cases event with
  | datagram now peer scratch =>
      constructor
      · intro h
        refine ⟨now, peer, scratch, rfl, ?_⟩
        cases hdecode : Request.decode scratch.datagram with
        | error fault => simp [request?, Except.toOption, hdecode] at h
        | ok decoded => simpa [request?, Except.toOption, hdecode] using h
      · rintro ⟨_, _, _, ⟨⟩, hdecode⟩
        simp [request?, Except.toOption, hdecode]
  | sweep now sweeper => simp [request?]

namespace World

theorem run_concat (world : World) (config : Config) (events : List Event) (event : Event) :
    world.run config (events ++ [event]) = (world.run config events).handle config event :=
  run_append world config events [event]

/-- How an event is answered. A sweep is not. -/
def answer (world : World) (config : Config) : Event → Answer
  | .datagram now peer scratch => (world.receive config now peer scratch.datagram).2
  | .sweep _ _ => .silent

/-- The requests of events are served. -/
theorem handle_of_request? (world : World) (config : Config) {event : Event} {request : Request}
    {peer : SocketAddress} (hrequest : event.request? = some request)
    (hpeer : event.peer? = some peer) :
    world.handle config event = (world.serve config event.now peer request).1 ∧
      world.answer config event = (world.serve config event.now peer request).2 := by
  obtain ⟨now, _, scratch, rfl, hdecode⟩ := Event.request?_eq_some_iff.mp hrequest
  obtain rfl := Option.some.inj hpeer
  rw [handle, world_dispatch, answer, receive_of_decode _ _ _ _ hdecode]
  exact ⟨rfl, rfl⟩

/-- A datagram that brings no request changes nothing. -/
theorem handle_of_request?_eq_none (world : World) (config : Config) {event : Event}
    {peer : SocketAddress} (hrequest : event.request? = none) (hpeer : event.peer? = some peer) :
    world.handle config event = world := by
  cases event with
  | sweep now sweeper => cases hpeer
  | datagram now source scratch =>
      rw [handle, world_dispatch, receive]
      cases hdecode : Request.decode scratch.datagram with
      | error fault => rfl
      | ok request => simp [Event.request?, Except.toOption, hdecode] at hrequest

/-- Whether an event of a run is the latest one of a kind, and which events precede it. -/
def Latest (config : Config) (world : World) (kind : World → Event → Prop)
    (events past : List Event) (event : Event) : Prop :=
  ∃ rest, events = past ++ event :: rest ∧ kind (world.run config past) event ∧
    ∀ between next more, rest = between ++ next :: more →
      ¬ kind (world.run config (past ++ event :: between)) next

namespace Latest

variable {config : Config} {world : World} {kind : World → Event → Prop}
variable {events past : List Event} {event next : Event}

theorem concat_of_kind (h : kind (world.run config events) next) :
    Latest config world kind (events ++ [next]) events next := by
  refine ⟨[], rfl, h, ?_⟩
  intro between other more hsplit
  cases between <;> cases hsplit

theorem concat_of_not (h : Latest config world kind events past event)
    (hnext : ¬ kind (world.run config events) next) :
    Latest config world kind (events ++ [next]) past event := by
  obtain ⟨rest, rfl, hkind, hlater⟩ := h
  refine ⟨rest ++ [next], by simp, hkind, ?_⟩
  intro between other more hsplit
  cases more using List.reverseRecOn with
  | nil =>
      obtain ⟨rfl, hother⟩ := List.append_inj' hsplit rfl
      cases hother
      exact hnext
  | append_singleton more last _ =>
      rw [← List.cons_append, ← List.append_assoc] at hsplit
      obtain ⟨hrest, -⟩ := List.append_inj' hsplit rfl
      exact hlater between other more hrest

/-- The latest event of a longer run is the last one, or it is that of the shorter run. -/
theorem of_concat (h : Latest config world kind (events ++ [next]) past event) :
    kind (world.run config events) next ∧ past = events ∧ event = next ∨
      ¬ kind (world.run config events) next ∧ Latest config world kind events past event := by
  obtain ⟨rest, hsplit, hkind, hlater⟩ := h
  cases rest using List.reverseRecOn with
  | nil =>
      obtain ⟨rfl, hevent⟩ := List.append_inj' hsplit rfl
      cases hevent
      exact .inl ⟨hkind, rfl, rfl⟩
  | append_singleton rest last _ =>
      rw [← List.cons_append, ← List.append_assoc] at hsplit
      obtain ⟨rfl, hlast⟩ := List.append_inj' hsplit rfl
      cases hlast
      refine .inr ⟨hlater rest next [] rfl, rest, rfl, hkind, ?_⟩
      intro between other more hrest
      exact hlater between other (more ++ [next]) (by rw [hrest]; simp)

theorem not_nil : ¬ Latest config world kind [] past event := by
  rintro ⟨rest, hsplit, -⟩
  simp at hsplit

end Latest

theorem latest_concat_iff_of_not {config : Config} {world : World} {kind : World → Event → Prop}
    {events past : List Event} {event next : Event}
    (hnext : ¬ kind (world.run config events) next) :
    Latest config world kind (events ++ [next]) past event ↔
      Latest config world kind events past event := by
  constructor
  · intro h
    obtain ⟨hkind, -⟩ | ⟨-, hlatest⟩ := h.of_concat
    · exact absurd hkind hnext
    · exact hlatest
  · exact fun h => h.concat_of_not hnext

end World

end RoomRelay
