/-!
# Tokens

A token is a secret word, never zero, that only the client of a session knows. The issuer counts
upwards from a seed and skips zero when the counter wraps around, so that a token comes again only
after all others have been issued.
-/

namespace RoomRelay

/-- A session token. -/
structure Token where
  word : UInt32
  word_ne_zero : word ≠ 0
  deriving DecidableEq, Repr

/-- The source of tokens, at the last value that its counter took. -/
structure TokenIssuer where
  last : UInt32
  deriving DecidableEq, Repr

namespace TokenIssuer

/-- An issuer whose first token follows a seed. -/
def startingAt (seed : UInt32) : TokenIssuer := ⟨seed⟩

/-- One turn of the counter. -/
def advance (issuer : TokenIssuer) : TokenIssuer := ⟨issuer.last + 1⟩

theorem last_advance_advance_ne_zero {issuer : TokenIssuer} (h : issuer.advance.last = 0) :
    issuer.advance.advance.last ≠ 0 := by
  show issuer.advance.last + 1 ≠ 0
  rw [h]
  decide

/-- Issues the next token. The counter turns once, or twice if the first turn ends at zero. -/
def issue (issuer : TokenIssuer) : Token × TokenIssuer :=
  let next := issuer.advance
  if h : next.last = 0 then (⟨next.advance.last, last_advance_advance_ne_zero h⟩, next.advance)
  else (⟨next.last, h⟩, next)

/-- Issues a number of tokens in a row. -/
def issueMany (issuer : TokenIssuer) : Nat → List Token × TokenIssuer
  | 0 => ([], issuer)
  | count + 1 =>
    let (token, issuer) := issuer.issue
    let (tokens, issuer) := issuer.issueMany count
    (token :: tokens, issuer)

end TokenIssuer

end RoomRelay
