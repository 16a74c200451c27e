import ReplDaemon.Proofs.Script.Program.Indices

/-!
# Readers that come back up

A reader of an expression, a statement or a block that succeeds has taken a token at least, and is back at
the depth that it began at. Whether or not it succeeds, it never comes back up further than it has gone
down. The same holds of everything that these are put together from.
-/

namespace ReplDaemon.Script.IndexedParser

variable {α : Type} {q : IndexedParser α} {p : Parser α}

/-- From any index within the tokens, and at any depth, the reader by index `q` comes to no fault and does
what the reader `p` does. If it succeeds, the depth is the same as before, and the index is a greater one
within the tokens. -/
def Steady (q : IndexedParser α) (p : Parser α) : Prop :=
  ∀ (tokens : List PlacedToken) (s : Spot), s.next ≤ tokens.length →
    (∃ e : ParseError, e ≠ .unbalanced ∧ q tokens s = Except.ok (.error e) ∧
      p (s.cursor tokens) = .error e) ∨
    ∃ (a : α) (s' : Spot), q tokens s = Except.ok (.ok (a, s')) ∧
      p (s.cursor tokens) = .ok (a, s'.cursor tokens) ∧
      s'.depth = s.depth ∧ s.next < s'.next ∧ s'.next ≤ tokens.length

theorem Steady.of_follows (hfollows : ∀ (tokens : List PlacedToken) (d : Nat), Follows tokens 0 d d q p)
    (htakes : Parser.Takes 1 p) : Steady q p := by
  intro tokens s hs
  have hagrees := hfollows tokens s.depth s hs rfl
  generalize hq : q tokens s = x at hagrees
  generalize hp : p (s.cursor tokens) = y at hagrees
  cases hagrees with
  | failed hbalanced => exact .inl ⟨_, hbalanced, rfl, rfl⟩
  | @read a s' hnext hdepth =>
      refine .inr ⟨a, s', rfl, rfl, hdepth, ?_, hnext⟩
      have hless := htakes.length_le hp
      simp only [Spot.cursor, List.length_drop] at hless
      omega

section Expressions

variable {q : IndexedParser Expr} {p : Parser Expr}

theorem steady_expressionWithin (levels : Nat) :
    Steady (expressionWithin levels) (Parser.expressionWithin levels) :=
  .of_follows (fun _ => follows_expressionWithin levels) (Parser.takes_expressionWithin levels)

theorem steady_entry (levels : Nat) :
    Steady (entry (expressionWithin levels)) (Parser.entry (Parser.expressionWithin levels)) :=
  .of_follows (fun _ => follows_entry (follows_expressionWithin levels))
    (Parser.takes_entry (Parser.takes_expressionWithin levels))

theorem steady_items (levels : Nat) (close : Delimiter) :
    Steady (items (expressionWithin levels) close)
      (Parser.items (Parser.expressionWithin levels) close) :=
  .of_follows (fun _ _ => .items (follows_expressionWithin levels))
    (Parser.takes_expressionWithin levels).items_close

theorem steady_entries (levels : Nat) (close : Delimiter) :
    Steady (items (entry (expressionWithin levels)) close)
      (Parser.items (Parser.entry (Parser.expressionWithin levels)) close) :=
  .of_follows (fun _ _ => .items (follows_entry (follows_expressionWithin levels)))
    (Parser.takes_entry (Parser.takes_expressionWithin levels)).items_close

theorem steady_primary (levels : Nat) :
    Steady (primary (expressionWithin levels)) (Parser.primary (Parser.expressionWithin levels)) :=
  .of_follows (fun _ _ => follows_primary (follows_expressionWithin levels))
    (Parser.takes_primary (Parser.takes_expressionWithin levels))

theorem steady_postfixed (levels : Nat) :
    Steady (postfixed (expressionWithin levels)) (Parser.postfixed (Parser.expressionWithin levels)) :=
  .of_follows (fun _ => follows_postfixed (follows_expressionWithin levels))
    (Parser.takes_postfixed (Parser.takes_expressionWithin levels))

theorem steady_unary (levels : Nat) :
    Steady (unary (postfixed (expressionWithin levels)))
      (Parser.unary (Parser.postfixed (Parser.expressionWithin levels))) :=
  .of_follows (fun _ => follows_unary (follows_postfixed (follows_expressionWithin levels)))
    (Parser.takes_unary (Parser.takes_postfixed (Parser.takes_expressionWithin levels)))

theorem steady_chain (levels looseness : Nat) :
    Steady (chain (unary (postfixed (expressionWithin levels))) looseness)
      (Parser.chain (Parser.unary (Parser.postfixed (Parser.expressionWithin levels))) looseness) :=
  .of_follows
    (fun _ => follows_chain (follows_unary (follows_postfixed (follows_expressionWithin levels)))
      looseness)
    (Parser.takes_chain
      (Parser.takes_unary (Parser.takes_postfixed (Parser.takes_expressionWithin levels))) looseness)

end Expressions

section Statements

theorem steady_blockWithin (levels : Nat) :
    Steady (blockWithin levels) (Parser.blockWithin levels) :=
  .of_follows (fun _ => follows_blockWithin levels) (Parser.takes_blockWithin levels)

theorem steady_ifFrom (levels rounds : Nat) :
    Steady (ifFrom (blockWithin levels) rounds) (Parser.ifFrom (Parser.blockWithin levels) rounds) :=
  .of_follows (fun _ => follows_ifFrom (follows_blockWithin levels) rounds)
    (Parser.takes_ifFrom (Parser.takes_blockWithin levels) rounds)

theorem steady_statement (levels : Nat) :
    Steady (statement (blockWithin levels)) (Parser.statement (Parser.blockWithin levels)) :=
  .of_follows (fun _ => follows_statement (follows_blockWithin levels))
    (Parser.takes_statement (Parser.takes_blockWithin levels))

end Statements

end ReplDaemon.Script.IndexedParser
