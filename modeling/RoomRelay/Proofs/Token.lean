import Mathlib.Data.List.Nodup
import Mathlib.Data.Nat.ModEq
import RoomRelay.Session.Token

/-!
# The cycle of tokens

The issuer walks through the words that are not zero in a circle. Its rank says how far it has come:
each token is one more than the rank, and issuing it moves the rank on by one, modulo the length of
the circle. The same token therefore comes again after whole rounds, and only then.
-/

namespace RoomRelay

theorem Token.word_inj {a b : Token} : a.word = b.word ↔ a = b := by
  obtain ⟨a, ha⟩ := a
  obtain ⟨b, hb⟩ := b
  simp

namespace TokenIssuer

/-- The number of words that are not zero. -/
def period : Nat := UInt32.size - 1

/-- How far the issuer has come in its circle. -/
def rank (issuer : TokenIssuer) : Nat := issuer.last.toNat % period

/-- The counter stands at the token that was issued last. -/
theorem last_issue (issuer : TokenIssuer) : issuer.issue.2.last = issuer.issue.1.word := by
  unfold issue
  dsimp only
  split <;> rfl

/-- The next token is one more than the rank. -/
theorem word_issue (issuer : TokenIssuer) : issuer.issue.1.word.toNat = issuer.rank + 1 := by
  obtain ⟨last⟩ := issuer
  have hlt := last.toNat_lt
  have hnext : (last + 1).toNat = (last.toNat + 1) % 2 ^ 32 := UInt32.toNat_add last 1
  unfold issue rank period
  dsimp only [advance]
  split
  · next hzero =>
    have hwrap : (last + 1).toNat = 0 := by rw [hzero]; rfl
    have hagain : (last + 1 + 1).toNat = ((last + 1).toNat + 1) % 2 ^ 32 :=
      UInt32.toNat_add (last + 1) 1
    show (last + 1 + 1).toNat = last.toNat % (2 ^ 32 - 1) + 1
    omega
  · next hnonzero =>
    have hmoved : (last + 1).toNat ≠ 0 := fun h => hnonzero (UInt32.toNat_inj.mp h)
    show (last + 1).toNat = last.toNat % (2 ^ 32 - 1) + 1
    omega

/-- Issuing a token moves the rank on by one. -/
theorem rank_issue (issuer : TokenIssuer) :
    issuer.issue.2.rank = (issuer.rank + 1) % period := by
  rw [rank, last_issue, word_issue]

theorem issue_ne_self (issuer : TokenIssuer) : issuer.issue.2 ≠ issuer := by
  intro h
  have hrank := issuer.rank_issue
  rw [h] at hrank
  have hlt : issuer.rank < period := Nat.mod_lt _ (by decide)
  rw [period, UInt32.size] at hrank hlt
  omega

variable (issuer : TokenIssuer)

/-- The issuer when it has issued a number of tokens. -/
def after : Nat → TokenIssuer
  | 0 => issuer
  | count + 1 => (after count).issue.2

/-- The token that is issued when a number of others have been. -/
def token (count : Nat) : Token := (issuer.after count).issue.1

theorem after_issue (count : Nat) : issuer.issue.2.after count = issuer.after (count + 1) := by
  induction count with
  | zero => rfl
  | succ count ih =>
      rw [after, ih]
      rfl

/-- Tokens issued in a row are one token after another. -/
theorem issueMany_eq (count : Nat) :
    issuer.issueMany count = ((List.range count).map issuer.token, issuer.after count) := by
  induction count generalizing issuer with
  | zero => rfl
  | succ count ih =>
      have htoken : issuer.issue.2.token = issuer.token ∘ Nat.succ := by
        funext earlier
        rw [token, after_issue]
        rfl
      simp only [issueMany, ih, after_issue, htoken, List.range_succ_eq_map, List.map_cons,
        List.map_map]
      rfl

theorem rank_after (count : Nat) : (issuer.after count).rank = (issuer.rank + count) % period := by
  induction count with
  | zero => exact (Nat.mod_eq_of_lt (Nat.mod_lt _ (by decide))).symm
  | succ count ih => rw [after, rank_issue, ih, Nat.mod_add_mod, Nat.add_assoc]

/-- A token is told by the rank of its issuer and by the number of tokens before it. -/
theorem word_token (count : Nat) :
    (issuer.token count).word.toNat = (issuer.rank + count) % period + 1 := by
  rw [token, word_issue, rank_after]

/-- The same token comes again after whole rounds, and only then. -/
theorem token_eq_iff (m n : Nat) : issuer.token m = issuer.token n ↔ m ≡ n [MOD period] := by
  rw [← Token.word_inj, ← UInt32.toNat_inj, word_token, word_token, Nat.add_right_cancel_iff]
  constructor
  · intro h
    exact Nat.ModEq.add_left_cancel' issuer.rank h
  · intro h
    exact h.add_left issuer.rank

/-- No token comes twice within a round. -/
theorem nodup_issueMany {count : Nat} (h : count ≤ period) :
    (issuer.issueMany count).1.Nodup := by
  rw [issueMany_eq]
  refine List.Nodup.map_on ?_ List.nodup_range
  intro m hm n hn heq
  have hm := Nat.lt_of_lt_of_le (List.mem_range.mp hm) h
  have hn := Nat.lt_of_lt_of_le (List.mem_range.mp hn) h
  exact ((issuer.token_eq_iff m n).mp heq).eq_of_lt_of_lt hm hn

end TokenIssuer

end RoomRelay
