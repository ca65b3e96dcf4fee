import RoomRelay.Lobby.Lemmas
import RoomRelay.Proofs.Session
import RoomRelay.World.Election

/-!
# What an election does

An election is a series of marks, so whatever marking a session keeps is kept by it. If no slot
stands twice among those that it looks at, it has a closed form: one slot is chosen, and afterwards
the sessions in these slots are marked just in case theirs is the chosen one. The choice is not
affected by its own marks, which makes a second election a repetition of the first.
-/

namespace RoomRelay

/-- The slots of the members, in the order of their indices. -/
def Room.slots (room : Room) : List SlotId := room.members.map Prod.snd

namespace Lobby

/-- Marking a session as it is marked changes nothing. -/
theorem map_setMaster_of_isMarked {lobby : Lobby} {slot : SlotId} {master : Bool}
    (h : lobby.isMarked slot = master) :
    (lobby.get? slot).map (·.setMaster master) = lobby.get? slot := by
  rw [isMarked] at h
  split at h
  · next hget => rw [hget]; rfl
  · next session hget =>
    rw [hget, Option.map_some, Session.setMaster_of_isMaster_eq h]

section Keep

variable (holds : Lobby → Prop)

/-- What marking one session keeps is kept by unmarking all but the first. -/
theorem keep_unmarkOthers
    (mark : ∀ lobby slot master, holds lobby → holds (lobby.modify slot (·.setMaster master)))
    (lobby : Lobby) (found : Option SlotId) (slots : List SlotId) (h : holds lobby) :
    holds (lobby.unmarkOthers found slots).1 := by
  induction slots generalizing lobby found with
  | nil => exact h
  | cons slot rest ih =>
      simp only [unmarkOthers]
      split
      · split
        · exact ih _ _ h
        · exact ih _ _ (mark _ _ _ h)
      · exact ih _ _ h

theorem keep_promote
    (mark : ∀ lobby slot master, holds lobby → holds (lobby.modify slot (·.setMaster master)))
    (lobby : Lobby) (slots : List SlotId) (now : Instant) (timeout : Nat) (h : holds lobby) :
    holds (lobby.promote slots now timeout).1 := by
  rw [promote]
  split
  · exact h
  · exact mark _ _ _ h

/-- What marking one session keeps is kept by an election. -/
theorem keep_elect
    (mark : ∀ lobby slot master, holds lobby → holds (lobby.modify slot (·.setMaster master)))
    (lobby : Lobby) (room : Room) (now : Instant) (timeout : Nat) (h : holds lobby) :
    holds (lobby.elect room now timeout).1 := by
  have unmarked := keep_unmarkOthers holds mark lobby none (room.members.map Prod.snd) h
  unfold elect
  dsimp only
  split
  · next heq =>
    rw [heq] at unmarked
    exact keep_promote holds mark _ _ now timeout unmarked
  · next heq =>
    rw [heq] at unmarked
    split
    · exact unmarked
    · exact keep_promote holds mark _ _ now timeout (mark _ _ _ unmarked)

end Keep

/-- An election leaves each session as it is, but for the mark. -/
theorem exists_get?_elect (lobby : Lobby) (room : Room) (now : Instant) (timeout : Nat)
    (slot : SlotId) :
    ∃ master, (lobby.elect room now timeout).1.get? slot =
      (lobby.get? slot).map (·.setMaster master) := by
  refine keep_elect (fun after => ∃ master, after.get? slot =
    (lobby.get? slot).map (·.setMaster master)) ?_ _ _ _ _ ?_
  · rintro marked other master ⟨before, hget⟩
    by_cases heq : other = slot
    · subst heq
      refine ⟨master, ?_⟩
      rw [get?_modify_self, hget]
      cases lobby.get? other <;> simp [Session.setMaster_setMaster]
    · exact ⟨before, by rw [get?_modify_of_ne _ _ heq, hget]⟩
  · exact ⟨lobby.isMarked slot, (map_setMaster_of_isMarked rfl).symm⟩

theorem isLive_modify_setMaster (lobby : Lobby) (now : Instant) (timeout : Nat)
    (slot other : SlotId) (master : Bool) :
    (lobby.modify slot (·.setMaster master)).isLive now timeout other =
      lobby.isLive now timeout other := by
  by_cases heq : slot = other
  · subst heq
    simp only [isLive]
    rw [get?_modify_self]
    cases lobby.get? slot <;> simp
  · simp only [isLive]
    rw [get?_modify_of_ne _ _ heq]

theorem isLive_unmarkOthers (lobby : Lobby) (found : Option SlotId) (slots : List SlotId)
    (now : Instant) (timeout : Nat) :
    (lobby.unmarkOthers found slots).1.isLive now timeout = lobby.isLive now timeout := by
  refine keep_unmarkOthers (fun after => after.isLive now timeout = _) ?_ _ _ _ rfl
  intro marked slot master h
  funext other
  rw [isLive_modify_setMaster, h]

theorem isLive_elect (lobby : Lobby) (room : Room) (now : Instant) (timeout : Nat) :
    (lobby.elect room now timeout).1.isLive now timeout = lobby.isLive now timeout := by
  refine keep_elect (fun after => after.isLive now timeout = _) ?_ _ _ _ _ rfl
  intro marked slot master h
  funext other
  rw [isLive_modify_setMaster, h]

/-- Once a marked session was found, all others are unmarked. -/
theorem unmarkOthers_some (lobby : Lobby) (found : SlotId) (slots : List SlotId) :
    (lobby.unmarkOthers (some found) slots).2 = some found ∧
      ∀ slot, (lobby.unmarkOthers (some found) slots).1.get? slot =
        if slot ∈ slots then (lobby.get? slot).map (·.setMaster false) else lobby.get? slot := by
  induction slots generalizing lobby with
  | nil => exact ⟨rfl, fun slot => by simp [unmarkOthers]⟩
  | cons first rest ih =>
      rw [unmarkOthers]
      split
      · refine ⟨(ih _).1, ?_⟩
        intro slot
        rw [(ih _).2, get?_modify]
        by_cases heq : first = slot
        · subst heq
          cases lobby.get? first <;> simp [Session.setMaster_setMaster]
        · simp [heq, Ne.symm heq]
      · next hmarked =>
        refine ⟨(ih _).1, ?_⟩
        intro slot
        rw [(ih _).2]
        by_cases heq : slot = first
        · subst heq
          simp [map_setMaster_of_isMarked (Bool.eq_false_iff.mpr hmarked)]
        · simp [heq]

/-- The first marked session is found, and alone stays marked. -/
theorem unmarkOthers_none (lobby : Lobby) {slots : List SlotId} (hnodup : slots.Nodup) :
    (lobby.unmarkOthers none slots).2 = slots.find? lobby.isMarked ∧
      ∀ slot, (lobby.unmarkOthers none slots).1.get? slot =
        if slot ∈ slots then
          (lobby.get? slot).map (·.setMaster (slots.find? lobby.isMarked = some slot))
        else lobby.get? slot := by
  induction slots with
  | nil => exact ⟨rfl, fun slot => by simp [unmarkOthers]⟩
  | cons first rest ih =>
      obtain ⟨hfresh, hrest⟩ := List.nodup_cons.mp hnodup
      rw [unmarkOthers]
      split
      · next hmarked =>
        obtain ⟨hfound, hget⟩ := lobby.unmarkOthers_some first rest
        rw [List.find?_cons_of_pos hmarked]
        refine ⟨hfound, ?_⟩
        intro slot
        rw [hget]
        by_cases heq : slot = first
        · subst heq
          simp [hfresh, map_setMaster_of_isMarked hmarked]
        · simp [heq, Ne.symm heq]
      · next hmarked =>
        obtain ⟨hfound, hget⟩ := ih hrest
        rw [List.find?_cons_of_neg hmarked]
        refine ⟨hfound, ?_⟩
        intro slot
        rw [hget]
        by_cases heq : slot = first
        · subst heq
          have hne : rest.find? lobby.isMarked ≠ some slot := fun h =>
            hfresh (List.mem_of_find?_eq_some h)
          simp [hfresh, hne, map_setMaster_of_isMarked (Bool.eq_false_iff.mpr hmarked)]
        · simp [heq]

/-- The slot that an election chooses: that of the first marked session if this one is live, and
else that of the first live session. -/
def winner (lobby : Lobby) (slots : List SlotId) (now : Instant) (timeout : Nat) :
    Option SlotId :=
  match slots.find? lobby.isMarked with
  | none => slots.find? (lobby.isLive now timeout)
  | some master =>
    if lobby.isLive now timeout master then some master
    else slots.find? (lobby.isLive now timeout)

variable {lobby : Lobby} {room : Room} {slots : List SlotId} {now : Instant} {timeout : Nat}

theorem of_winner_eq_some {master : SlotId} (h : lobby.winner slots now timeout = some master) :
    master ∈ slots ∧ lobby.isLive now timeout master = true := by
  rw [winner] at h
  split at h
  · exact ⟨List.mem_of_find?_eq_some h, List.find?_some h⟩
  · next hfound =>
    split at h
    · next hlive =>
      cases h
      exact ⟨List.mem_of_find?_eq_some hfound, hlive⟩
    · exact ⟨List.mem_of_find?_eq_some h, List.find?_some h⟩

theorem find?_isLive_of_winner (h : lobby.winner slots now timeout = none) :
    slots.find? (lobby.isLive now timeout) = none := by
  rw [winner] at h
  split at h
  · exact h
  · split at h
    · cases h
    · exact h

/-- Where nobody is marked, promoting marks the first live session alone. -/
theorem promote_of_unmarked {after : Lobby}
    (hlive : after.isLive now timeout = lobby.isLive now timeout)
    (hget : ∀ slot, after.get? slot =
      if slot ∈ slots then (lobby.get? slot).map (·.setMaster false) else lobby.get? slot) :
    (after.promote slots now timeout).2 = slots.find? (lobby.isLive now timeout) ∧
      ∀ slot, (after.promote slots now timeout).1.get? slot =
        if slot ∈ slots then
          (lobby.get? slot).map
            (·.setMaster (slots.find? (lobby.isLive now timeout) = some slot))
        else lobby.get? slot := by
  rw [promote, hlive]
  cases hfind : slots.find? (lobby.isLive now timeout) with
  | none => exact ⟨rfl, hget⟩
  | some successor =>
      refine ⟨rfl, ?_⟩
      intro slot
      have hmem := List.mem_of_find?_eq_some hfind
      dsimp only
      rw [get?_modify, hget]
      by_cases heq : successor = slot
      · subst heq
        cases lobby.get? successor <;> simp [hmem, Session.setMaster_setMaster]
      · simp [heq]

/-- An election returns its winner and marks it alone. -/
theorem elect_eq_winner (lobby : Lobby) {room : Room} (now : Instant) (timeout : Nat)
    (hnodup : room.slots.Nodup) :
    (lobby.elect room now timeout).2 = lobby.winner room.slots now timeout ∧
      ∀ slot, (lobby.elect room now timeout).1.get? slot =
        if slot ∈ room.slots then
          (lobby.get? slot).map
            (·.setMaster (lobby.winner room.slots now timeout = some slot))
        else lobby.get? slot := by
  obtain ⟨hfound, hget⟩ := lobby.unmarkOthers_none hnodup
  have hlive := lobby.isLive_unmarkOthers none room.slots now timeout
  unfold elect winner
  rw [show room.members.map Prod.snd = room.slots from rfl]
  dsimp only
  generalize lobby.unmarkOthers none room.slots = unmarked at hfound hget hlive ⊢
  obtain ⟨after, found⟩ := unmarked
  dsimp only at hfound hget hlive ⊢
  rw [← hfound] at hget ⊢
  cases found with
  | none => exact promote_of_unmarked hlive hget
  | some master =>
      dsimp only
      rw [hlive]
      split
      · exact ⟨rfl, hget⟩
      · refine promote_of_unmarked ?_ fun slot => ?_
        · funext slot
          rw [isLive_modify_setMaster, hlive]
        · rw [get?_modify, hget]
          by_cases heq : master = slot
          · subst heq
            by_cases hmem : master ∈ room.slots
            · cases lobby.get? master <;> simp [hmem, Session.setMaster_setMaster]
            · exact absurd (List.mem_of_find?_eq_some hfound.symm) hmem
          · simp [heq]

theorem isSome_get?_of_isLive {slot : SlotId} (h : lobby.isLive now timeout slot = true) :
    (lobby.get? slot).isSome := by
  rw [isLive] at h
  split at h
  · cases h
  · next hget => rw [hget]; rfl

/-- Whoever was elected is elected again. -/
theorem winner_elect (hnodup : room.slots.Nodup) :
    (lobby.elect room now timeout).1.winner room.slots now timeout =
      lobby.winner room.slots now timeout := by
  obtain ⟨-, hget⟩ := lobby.elect_eq_winner now timeout hnodup
  have hlive := lobby.isLive_elect room now timeout
  have hmarked : ∀ slot ∈ room.slots, (lobby.elect room now timeout).1.isMarked slot =
      ((lobby.get? slot).isSome && lobby.winner room.slots now timeout = some slot) := by
    intro slot hmem
    rw [isMarked, hget, if_pos hmem]
    cases lobby.get? slot <;> simp [Session.isMaster_setMaster]
  generalize (lobby.elect room now timeout).1 = after at hlive hmarked ⊢
  cases hwinner : lobby.winner room.slots now timeout with
  | none =>
      have hnone : room.slots.find? after.isMarked = none :=
        List.find?_eq_none.mpr fun slot hmem => by simp [hmarked slot hmem, hwinner]
      rw [winner, hnone, hlive]
      exact find?_isLive_of_winner hwinner
  | some master =>
      obtain ⟨hmem, hmaster⟩ := of_winner_eq_some hwinner
      have hfound : room.slots.find? after.isMarked = some master := by
        cases hfind : room.slots.find? after.isMarked with
        | none =>
            have := List.find?_eq_none.mp hfind master hmem
            simp [hmarked master hmem, hwinner, isSome_get?_of_isLive hmaster] at this
        | some found =>
            have := List.find?_some hfind
            rw [hmarked found (List.mem_of_find?_eq_some hfind), hwinner] at this
            obtain ⟨-, rfl⟩ : _ ∧ master = found := by simpa using this
            rfl
      rw [winner, hfound, hlive]
      exact if_pos hmaster

/-- A second election on the same terms finds every mark as it should be. -/
theorem get?_elect_elect (hnodup : room.slots.Nodup) (slot : SlotId) :
    ((lobby.elect room now timeout).1.elect room now timeout).1.get? slot =
      (lobby.elect room now timeout).1.get? slot := by
  rw [(elect_eq_winner _ now timeout hnodup).2, winner_elect hnodup,
    (elect_eq_winner _ now timeout hnodup).2]
  split
  · cases lobby.get? slot <;> simp [Session.setMaster_setMaster]
  · rfl

end Lobby

end RoomRelay
