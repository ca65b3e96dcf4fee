import RoomRelay.Proofs.Token

/-!
# The succession of tokens

To issue a token the counter is turned in a loop until it does not stand at zero. It steps modulo
`2 ^ 32`, but the tokens follow one another modulo `2 ^ 32 - 1`, since zero is passed over. So a
token is told by the seed and by how many were issued before it, and the same token comes again
after a whole round and not before.
-/

namespace RoomRelay.TokenIssuer

variable (issuer : TokenIssuer)

/-- Whether the loop that turns the counter until it does not stand at zero ends after some number
of turns, with a token and with the issuer as the loop leaves it. -/
inductive Turns : TokenIssuer → Nat → Token × TokenIssuer → Prop
  | stop {issuer : TokenIssuer} (h : issuer.advance.last ≠ 0) :
    Turns issuer 1 (⟨issuer.advance.last, h⟩, issuer.advance)
  | again {issuer : TokenIssuer} {turns : Nat} {issued : Token × TokenIssuer}
      (h : issuer.advance.last = 0) (rest : Turns issuer.advance turns issued) :
    Turns issuer (turns + 1) issued

/-- The number of turns that it takes to issue the next token. -/
def turns : Nat := if issuer.advance.last = 0 then 2 else 1

theorem turns_le : issuer.turns ≤ 2 := by
  unfold turns
  split <;> decide

theorem issue_of_zero (h : issuer.advance.last = 0) : issuer.issue =
    (⟨issuer.advance.advance.last, last_advance_advance_ne_zero h⟩, issuer.advance.advance) :=
  dif_pos h

theorem issue_of_ne_zero (h : issuer.advance.last ≠ 0) :
    issuer.issue = (⟨issuer.advance.last, h⟩, issuer.advance) :=
  dif_neg h

/-- The loop ends, and it ends with what is issued. -/
theorem turns_issue : issuer.Turns issuer.turns issuer.issue := by
  by_cases h : issuer.advance.last = 0
  · rw [turns, if_pos h, issuer.issue_of_zero h]
    exact .again h (.stop (last_advance_advance_ne_zero h))
  · rw [turns, if_neg h, issuer.issue_of_ne_zero h]
    exact .stop h

/-- There is one way only for the loop to end. -/
theorem Turns.eq_issue {issuer : TokenIssuer} {count : Nat} {issued : Token × TokenIssuer}
    (h : issuer.Turns count issued) : count = issuer.turns ∧ issued = issuer.issue := by
  cases h with
  | stop h =>
      rw [turns, if_neg h, issuer.issue_of_ne_zero h]
      exact ⟨rfl, rfl⟩
  | again h rest =>
      rw [turns, if_pos h, issuer.issue_of_zero h]
      cases rest with
      | stop _ => exact ⟨rfl, rfl⟩
      | again hzero _ => exact absurd hzero (last_advance_advance_ne_zero h)

/-- How the tokens from a seed follow one another. -/
structure Succession (seed : UInt32) : Prop where
  /-- They are the tokens that are issued in a row. -/
  issued : ∀ count, ((startingAt seed).issueMany count).1 =
    (List.range count).map (startingAt seed).token
  /-- Each is told by the seed and its number, counted from one. -/
  closed_form : ∀ n, 1 ≤ n →
    ((startingAt seed).token (n - 1)).word.toNat = (seed.toNat + n - 1) % (2 ^ 32 - 1) + 1
  /-- To issue any of them takes one turn of the counter or two, and the loop cannot end
  otherwise. -/
  loop : ∀ earlier, let issuer := (startingAt seed).after earlier
    (∃ count ≤ 2, issuer.Turns count issuer.issue) ∧
      ∀ {count issued}, issuer.Turns count issued → count ≤ 2 ∧ issued = issuer.issue
  /-- Wherever a round is begun, its tokens are not zero and pairwise different. -/
  round : ∀ earlier, let tokens := (((startingAt seed).after earlier).issueMany (2 ^ 32 - 1)).1
    tokens.length = 2 ^ 32 - 1 ∧ tokens.Nodup ∧ ∀ token ∈ tokens, token.word ≠ 0
  /-- After a round they come again. -/
  same_iff : ∀ m n, (startingAt seed).token m = (startingAt seed).token n ↔
    m ≡ n [MOD 2 ^ 32 - 1]

theorem word_token_startingAt (seed : UInt32) {n : Nat} (h : 1 ≤ n) :
    ((startingAt seed).token (n - 1)).word.toNat = (seed.toNat + n - 1) % (2 ^ 32 - 1) + 1 := by
  have hrank : (startingAt seed).rank = seed.toNat % period := rfl
  rw [word_token, hrank, Nat.mod_add_mod, Nat.add_sub_assoc h]
  rfl

/-- From any seed, the tokens are what the seed and their number say, although the counter wraps
around and skips zero: the loop that issues one ends after at most two turns, and the tokens of any
round are not zero and pairwise different. -/
theorem succession_startingAt (seed : UInt32) : Succession seed where
  issued count := by rw [issueMany_eq]
  closed_form _ h := word_token_startingAt seed h
  loop earlier := by
    intro issuer
    refine ⟨⟨issuer.turns, issuer.turns_le, issuer.turns_issue⟩, ?_⟩
    intro count issued h
    obtain ⟨rfl, hissued⟩ := h.eq_issue
    exact ⟨issuer.turns_le, hissued⟩
  round earlier := by
    intro tokens
    refine ⟨?_, nodup_issueMany _ (Nat.le_refl period), fun token _ => token.word_ne_zero⟩
    rw [show tokens = _ from congrArg Prod.fst (issueMany_eq _ _), List.length_map,
      List.length_range]
  same_iff m n := token_eq_iff _ m n

/-- The last words before the counter wraps around are followed by one. -/
example : ((List.range 3).map fun count => ((startingAt 0xFFFFFFFD).token count).word) =
    [0xFFFFFFFE, 0xFFFFFFFF, 1] := by decide

end RoomRelay.TokenIssuer
