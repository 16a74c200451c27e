import ReplDaemon.Proofs.Script.Program.Reading
import ReplDaemon.Proofs.Script.Program.Extension

/-!
# Where tokens stand

What is read does not depend on where the tokens stand: places occur in errors only. A reader that
succeeds comes to the same in front of the same tokens at other places. One rule for each way in which
readers are put together; the rounds of a loop may be other tokens, but as many.
-/

namespace ReplDaemon.Script

/-- Another cursor has the same tokens left, at any places, and the same depth. -/
structure Cursor.Same (c d : Cursor) : Prop where
  tokens : d.tokens = c.tokens
  depth : d.depth = c.depth

theorem Cursor.Same.length_eq {c d : Cursor} (h : c.Same d) : d.rest.length = c.rest.length := by
  have hlength := congrArg List.length h.tokens
  rwa [Cursor.tokens, Cursor.tokens, List.length_map, List.length_map] at hlength

namespace Parser

variable {α β : Type}

/-- Where the reader `p` succeeds, the reader `q` reads the same from the same tokens. -/
def Carries (p q : Parser α) : Prop :=
  ∀ (c d c' : Cursor) (a : α), c.Same d → p c = .ok (a, c') →
    ∃ d' : Cursor, q d = .ok (a, d') ∧ c'.Same d'

namespace Carries

variable {p q : Parser α} {close : Delimiter} {looseness levels : Nat}

theorem pure {a : α} : Carries (Pure.pure a) (Pure.pure a) := by
  intro c d c' b hsame hread
  cases hread
  exact ⟨d, rfl, hsame⟩

theorem error {e : Cursor → ParseError} : Carries (fun c => .error (e c)) q := by
  intro c d c' a _ hread
  cases hread

theorem bind {f g : α → Parser β} (h : Carries p q) (hf : ∀ a : α, Carries (f a) (g a)) :
    Carries (p >>= f) (q >>= g) := by
  intro c d c' b hsame hread
  obtain ⟨a, c₁, hp, hfa⟩ := exists_of_bind_ok hread
  obtain ⟨d₁, hq, hsame₁⟩ := h c d c₁ a hsame hp
  obtain ⟨d', hga, hsame'⟩ := hf a c₁ d₁ c' b hsame₁ hfa
  exact ⟨d', (bind_of_ok hq).trans hga, hsame'⟩

theorem peek : Carries Parser.peek Parser.peek := by
  intro c d c' t hsame hread
  rw [peek_apply] at hread
  cases hread
  exact ⟨d, by rw [peek_apply, hsame.tokens], hsame⟩

/-- Two tokens are taken that differ in their places. -/
theorem next {f g : PlacedToken → Parser β}
    (h : ∀ t t' : PlacedToken, t'.token = t.token → Carries (f t) (g t')) :
    Carries (Parser.next >>= f) (Parser.next >>= g) := by
  intro c d c' b hsame hread
  obtain ⟨t, c₁, hnext, hft⟩ := exists_of_bind_ok hread
  have hc : c.tokens = t.token :: c₁.tokens := by
    rw [Cursor.tokens, next_eq_ok hnext]
    rfl
  obtain ⟨t', d₁, htoken, hnext', hrest, hdepth⟩ := exists_next (hsame.tokens.trans hc)
  have hsame₁ : c₁.Same d₁ :=
    ⟨hrest, by rw [hdepth, hsame.depth, (Ensures.next c c₁ t rfl hnext).1]⟩
  obtain ⟨d', hgt, hsame'⟩ := h t t' htoken c₁ d₁ c' b hsame₁ hft
  exact ⟨d', (bind_of_ok hnext').trans hgt, hsame'⟩

theorem discard_next : Carries (discard Parser.next : Parser PUnit) (discard Parser.next) :=
  next fun _ _ _ => pure

theorem descend : Carries Parser.descend Parser.descend := by
  intro c d c' u hsame hread
  obtain ⟨hlt, rfl⟩ := descend_eq_ok hread
  have hlt' : d.depth < maxDepth := hsame.depth ▸ hlt
  exact ⟨{ d with depth := d.depth + 1 }, if_pos hlt', hsame.tokens, congrArg (· + 1) hsame.depth⟩

theorem ascend : Carries (Parser.ascend levels) (Parser.ascend levels) := by
  intro c d c' u hsame hread
  by_cases hle : levels ≤ c.depth
  · have hle' : levels ≤ d.depth := hsame.depth ▸ hle
    cases (if_pos hle : Parser.ascend levels c = .ok (_, _)).symm.trans hread
    exact ⟨{ d with depth := d.depth - levels }, if_pos hle', hsame.tokens,
      congrArg (· - levels) hsame.depth⟩
  · cases (if_neg hle : Parser.ascend levels c = .error _).symm.trans hread

theorem nested (h : Carries p q) : Carries (Parser.nested p) (Parser.nested q) :=
  descend.bind fun _ => h.bind fun _ => ascend.bind fun _ => pure

theorem atDelimiter : Carries (Parser.atDelimiter close) (Parser.atDelimiter close) :=
  peek.bind fun t => by split <;> exact pure

theorem eat : Carries (Parser.eat close) (Parser.eat close) := by
  refine atDelimiter.bind fun found => ?_
  split
  · exact discard_next.bind fun _ => pure
  · exact pure

theorem expect : Carries (Parser.expect close) (Parser.expect close) := by
  refine next fun t t' htoken => ?_
  rw [htoken]
  cases t.token with
  | delimiter e =>
      dsimp only
      split
      · exact pure
      · exact error
  | _ => exact error

theorem name : Carries Parser.name Parser.name := by
  refine next fun t t' htoken => ?_
  rw [htoken]
  cases t.token with
  | identifier n => exact pure
  | _ => exact error

theorem terminator : Carries Parser.terminator Parser.terminator := by
  rw [terminator_eq_bind]
  refine peek.bind fun t => ?_
  split
  · exact pure
  · exact discard_next.bind fun _ => pure
  · exact pure
  · exact next fun _ _ _ => error

/-- What is done with the place where the reading stands makes no difference. -/
theorem get {f g : Cursor → Parser β} (h : ∀ c d : Cursor, Carries (f c) (g d)) :
    Carries (MonadState.get >>= f) (MonadState.get >>= g) :=
  fun c d c' b hsame hread => h c d c d c' b hsame hread

theorem binaryOp? : Carries (Parser.binaryOp? looseness) (Parser.binaryOp? looseness) :=
  peek.bind fun t => by split <;> exact pure

theorem unaryOp? : Carries Parser.unaryOp? Parser.unaryOp? :=
  peek.bind fun t => by split <;> exact pure

/-- As many tokens are left. -/
theorem remaining {f g : List PlacedToken → Parser β}
    (h : ∀ rounds rounds' : List PlacedToken, rounds'.length = rounds.length →
      Carries (f rounds) (g rounds')) :
    Carries (Parser.remaining >>= f) (Parser.remaining >>= g) :=
  fun c d c' b hsame hread => h c.rest d.rest hsame.length_eq c d c' b hsame hread

theorem itemsFrom (h : Carries p q) (found : List α) {rounds rounds' : List PlacedToken}
    (hrounds : rounds'.length = rounds.length) :
    Carries (Parser.itemsFrom p close found rounds) (Parser.itemsFrom q close found rounds') := by
  induction rounds generalizing rounds' found with
  | nil => exact error
  | cons _ rounds ih =>
      obtain ⟨_, rounds', rfl⟩ := List.exists_cons_of_length_eq_add_one hrounds
      refine eat.bind fun closed => ?_
      split
      · exact pure
      · refine expect.bind fun _ => eat.bind fun closed' => ?_
        split
        · exact pure
        · exact h.bind fun a => ih (a :: found) (Nat.succ.inj hrounds)

theorem items (h : Carries p q) : Carries (Parser.items p close) (Parser.items q close) := by
  refine eat.bind fun closed => ?_
  split
  · exact pure
  · exact h.bind fun a => remaining fun rounds rounds' hrounds => h.itemsFrom [a] hrounds

end Carries

section Expressions

variable {operand operand' expression expression' : Parser Expr}

theorem carries_chainFrom (h : Carries operand operand') (looseness links : Nat) (lhs : Expr)
    (rounds : Nat) :
    Carries (chainFrom operand looseness links lhs rounds)
      (chainFrom operand' looseness links lhs rounds) := by
  induction rounds generalizing links lhs with
  | zero => exact .error
  | succ rounds ih =>
      refine Carries.binaryOp?.bind fun op => ?_
      cases op with
      | none => exact Carries.ascend.bind fun _ => .pure
      | some op =>
          exact Carries.discard_next.bind fun _ => Carries.descend.bind fun _ => h.bind fun rhs =>
            ih (links + 1) (.binary op lhs rhs)

theorem carries_chain (h : Carries operand operand') (looseness : Nat) :
    Carries (chain operand looseness) (chain operand' looseness) := by
  induction looseness with
  | zero => exact h
  | succ looseness ih =>
      exact ih.bind fun lhs => carries_chainFrom ih (looseness + 1) 0 lhs maxRounds

theorem carries_unary (h : Carries operand operand') : Carries (unary operand) (unary operand') := by
  have hfrom (rounds : Nat) : Carries (unaryFrom operand rounds) (unaryFrom operand' rounds) := by
    induction rounds with
    | zero => exact .error
    | succ rounds ih =>
        refine Carries.unaryOp?.bind fun op => ?_
        cases op with
        | none => exact h
        | some op => exact Carries.discard_next.bind fun _ => ih.nested.bind fun _ => .pure
  exact hfrom maxRounds

theorem carries_linksFrom (h : Carries expression expression') (links : Nat) (e : Expr)
    (rounds : Nat) :
    Carries (linksFrom expression links e rounds) (linksFrom expression' links e rounds) := by
  induction rounds generalizing links e with
  | zero => exact .error
  | succ rounds ih =>
      refine Carries.eat.bind fun isIndex => ?_
      split
      · exact Carries.descend.bind fun _ => h.bind fun position => Carries.expect.bind fun _ =>
          ih (links + 1) (.index e position)
      · refine Carries.atDelimiter.bind fun isCall => ?_
        split
        · refine .next fun t t' _ => ?_
          split
          · exact h.items.bind fun arguments => ih links (.call _ arguments)
          · exact .error
        · exact Carries.ascend.bind fun _ => .pure

theorem carries_primary (h : Carries expression expression') :
    Carries (primary expression) (primary expression') := by
  have hentry : Carries (entry expression) (entry expression') :=
    h.bind fun key => Carries.expect.bind fun _ => h.bind fun value => .pure
  refine .next fun t t' htoken => ?_
  rw [htoken]
  cases t.token with
  | int | float | text | char | identifier => exact .pure
  | keyword k =>
      cases k with
      | trueWord | falseWord | nullWord => exact .pure
      | letWord | ifWord | elseWord | whileWord => exact .error
  | delimiter d =>
      cases d with
      | openParen => exact h.bind fun e => Carries.expect.bind fun _ => .pure
      | openBracket => exact h.items.bind fun _ => .pure
      | openMap => exact hentry.items.bind fun _ => .pure
      | _ => exact .error
  | operator => exact .error

theorem carries_expressionWithin (levels : Nat) :
    Carries (expressionWithin levels) (expressionWithin levels) := by
  induction levels with
  | zero => exact .error
  | succ levels ih =>
      have hpostfixed :
          Carries (postfixed (expressionWithin levels)) (postfixed (expressionWithin levels)) :=
        (carries_primary ih).bind fun e => carries_linksFrom ih 0 e maxRounds
      exact (carries_chain (carries_unary hpostfixed) BinaryOp.loosest).nested

end Expressions

theorem carries_expression : Carries expression expression :=
  carries_expressionWithin (maxDepth + 1)

section Statements

variable {block block' : Parser (List Stmt)}

theorem carries_ifFrom (h : Carries block block') (rounds : Nat) :
    Carries (ifFrom block rounds) (ifFrom block' rounds) := by
  induction rounds with
  | zero => exact .error
  | succ rounds ih =>
      refine carries_expression.bind fun condition => h.bind fun body => Carries.peek.bind fun t => ?_
      split
      · refine Carries.discard_next.bind fun _ => Carries.peek.bind fun t' => ?_
        split
        · exact Carries.discard_next.bind fun _ => ih.nested.bind fun _ => .pure
        · exact h.bind fun _ => .pure
      · exact .pure

theorem carries_statement (h : Carries block block') :
    Carries (statement block) (statement block') := by
  have hdone : Carries (discard terminator : Parser PUnit) (discard terminator) :=
    Carries.terminator.bind fun _ => .pure
  refine Carries.peek.bind fun t => ?_
  split
  · refine Carries.discard_next.bind fun _ => Carries.name.bind fun name => .next fun t t' htoken => ?_
    rw [htoken]
    split
    · exact carries_expression.bind fun value => hdone.bind fun _ => .pure
    · exact .error
  · exact Carries.discard_next.bind fun _ => (carries_ifFrom h maxRounds).bind fun _ => .pure
  · exact Carries.discard_next.bind fun _ => carries_expression.bind fun condition =>
      h.bind fun _ => .pure
  · exact Carries.discard_next.bind fun _ => .pure
  · refine .get fun c d => carries_expression.bind fun e => Carries.peek.bind fun t => ?_
    split
    · refine Carries.discard_next.bind fun _ => ?_
      split
      · exact carries_expression.bind fun value => hdone.bind fun _ => .pure
      · exact .error
    · exact Carries.terminator.bind fun _ => .pure

theorem carries_blockFrom (h : Carries block block') (found : List Stmt)
    {rounds rounds' : List PlacedToken} (hrounds : rounds'.length = rounds.length) :
    Carries (blockFrom block found rounds) (blockFrom block' found rounds') := by
  induction rounds generalizing rounds' found with
  | nil => exact .error
  | cons _ rounds ih =>
      obtain ⟨_, rounds', rfl⟩ := List.exists_cons_of_length_eq_add_one hrounds
      refine Carries.eat.bind fun closed => ?_
      split
      · exact .pure
      · refine Carries.peek.bind fun t => ?_
        split
        · exact .error
        · exact (carries_statement h).bind fun s => ih (s.1 :: found) (Nat.succ.inj hrounds)

theorem carries_blockWithin (levels : Nat) : Carries (blockWithin levels) (blockWithin levels) := by
  induction levels with
  | zero => exact Carries.expect.bind fun _ => .error
  | succ levels ih =>
      exact Carries.expect.bind fun _ => .nested <| .remaining fun rounds rounds' hrounds =>
        carries_blockFrom ih [] hrounds

theorem carries_programFrom (found : List Stmt) {rounds rounds' : List PlacedToken}
    (hrounds : rounds'.length = rounds.length) :
    Carries (programFrom found rounds) (programFrom found rounds') := by
  induction rounds generalizing rounds' found with
  | nil =>
      obtain rfl : rounds' = [] := List.length_eq_zero_iff.mp hrounds
      exact .pure
  | cons _ rounds ih =>
      obtain ⟨_, rounds', rfl⟩ := List.exists_cons_of_length_eq_add_one hrounds
      refine Carries.peek.bind fun t => ?_
      split
      · exact .pure
      · refine (carries_statement (carries_blockWithin (maxDepth + 1))).bind fun s => ?_
        split
        · exact .pure
        · exact ih (_ :: found) (Nat.succ.inj hrounds)

end Statements

end Parser

end ReplDaemon.Script
