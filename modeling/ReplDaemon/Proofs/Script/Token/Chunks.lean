import ReplDaemon.Proofs.Continuation
import ReplDaemon.Proofs.Script.Token.Join

/-!
# Tokens of chunks

Chunks of source are joined by line breaks, and no token, comment or error reaches over one of them: the
chunks can be read one by one, and each has its own tokens, or its own error, in the lines where it is.
-/

namespace ReplDaemon.Script

/-- What is read of a text and of another one that starts some lines further down: the tokens of both, or
the error of the first one that has no tokens. -/
def readBelow (lines : Nat) : Except LexError (List PlacedToken) →
    Except LexError (List PlacedToken) → Except LexError (List PlacedToken)
  | .error e, _ => .error e
  | .ok _, .error e => .error (e.down lines)
  | .ok above, .ok below => .ok (above ++ below.map (·.down lines))

/-- Two texts with a line break between them are read one by one: what is read of the lower one is the
same, as many lines further down as the upper one has. So the chunks that are pending and the one that
joins them are read one by one. -/
theorem tokens_line_by_line :
    (∀ a b : String,
      tokens (a ++ "\n" ++ b) = readBelow (a.toList.count '\n' + 1) (tokens a) (tokens b)) ∧
      ∀ (first : String) (pending : List String) (chunk : String),
        tokens (Session.joinChunks (first :: pending ++ [chunk])) =
          readBelow ((Session.joinChunks (first :: pending)).toList.count '\n' + 1)
            (tokens (Session.joinChunks (first :: pending))) (tokens chunk) := by
  have hlines (a b : String) :
      tokens (a ++ "\n" ++ b) = readBelow (a.toList.count '\n' + 1) (tokens a) (tokens b) := by
    rw [tokens_eq_bind]
    cases tokens a with
    | error e => rfl
    | ok above =>
        show tokensFrom above.reverse _ .between b.toList = _
        rw [tokensFrom_start_down, List.reverse_reverse]
        cases tokens b with
        | error e => rfl
        | ok below => rfl
  refine ⟨hlines, fun first pending chunk => ?_⟩
  rw [Session.joinChunks_append (List.cons_ne_nil _ _)]
  exact hlines _ _

end ReplDaemon.Script
