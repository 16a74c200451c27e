import ReplDaemon.Proofs.Script.Program.Descent

/-!
# What readers take

A reader that succeeds leaves the tokens behind those that it took. Every reader of an expression, a
statement or a block takes one of them at least, so the rounds of a loop never run out before the
tokens do.
-/

namespace ReplDaemon.Script

namespace Parser

variable {α β : Type}

/-- If the reader succeeds, it has taken some number of tokens at least. -/
def Takes (least : Nat) (p : Parser α) : Prop :=
  ∀ (c c' : Cursor) (a : α), p c = .ok (a, c') →
    ∃ taken : List PlacedToken, c.rest = taken ++ c'.rest ∧ least ≤ taken.length

namespace Takes

variable {least least' : Nat} {p : Parser α} {close : Delimiter}

theorem suffix (h : Takes least p) {c c' : Cursor} {a : α} (hread : p c = .ok (a, c')) :
    c'.rest <:+ c.rest := by
  obtain ⟨taken, hrest, _⟩ := h c c' a hread
  exact ⟨taken, hrest.symm⟩

theorem length_le (h : Takes least p) {c c' : Cursor} {a : α} (hread : p c = .ok (a, c')) :
    least + c'.rest.length ≤ c.rest.length := by
  obtain ⟨taken, hrest, hleast⟩ := h c c' a hread
  rw [hrest, List.length_append]
  exact Nat.add_le_add_right hleast _

/-- What takes a token cannot succeed at the end. -/
theorem ne_nil (h : Takes 1 p) {c c' : Cursor} {a : α} (hread : p c = .ok (a, c')) :
    c.rest ≠ [] := by
  intro hnil
  have hle := h.length_le hread
  rw [hnil, List.length_nil] at hle
  omega

theorem mono (h : Takes least p) (hle : least' ≤ least) : Takes least' p := by
  intro c c' a hread
  obtain ⟨taken, hrest, hleast⟩ := h c c' a hread
  exact ⟨taken, hrest, Nat.le_trans hle hleast⟩

/-- A reader that leaves the tokens alone. -/
theorem none (h : ∀ (c c' : Cursor) (a : α), p c = .ok (a, c') → c'.rest = c.rest) : Takes 0 p :=
  fun c c' a hread => ⟨[], (h c c' a hread).symm, Nat.le_refl 0⟩

theorem error {e : Cursor → ParseError} : Takes least (fun c => .error (e c) : Parser α) := by
  intro c c' a hread
  cases hread

theorem pure {a : α} : Takes 0 (Pure.pure a : Parser α) := by
  refine .none fun c c' b hread => ?_
  cases hread
  rfl

theorem bind {f : α → Parser β} (h : Takes least p) (hf : ∀ a : α, Takes least' (f a)) :
    Takes (least + least') (p >>= f) := by
  intro c c' b hread
  cases hp : p c with
  | error e =>
      rw [bind_of_error hp] at hread
      cases hread
  | ok x =>
      rw [bind_of_ok hp] at hread
      obtain ⟨first, hfirst, hleast⟩ := h c x.2 x.1 hp
      obtain ⟨second, hsecond, hleast'⟩ := hf x.1 x.2 c' b hread
      refine ⟨first ++ second, ?_, ?_⟩
      · rw [hfirst, hsecond, List.append_assoc]
      · rw [List.length_append]
        exact Nat.add_le_add hleast hleast'

/-- Something behind a reader that may take nothing. -/
theorem after {q : Parser β} {f : β → Parser α} (h : Takes 0 q) (hf : ∀ b : β, Takes least (f b)) :
    Takes least (q >>= f) :=
  (h.bind hf).mono (by omega)

/-- A reader with something behind it. -/
theorem before {f : α → Parser β} (h : Takes least p) (hf : ∀ a : α, Takes 0 (f a)) :
    Takes least (p >>= f) :=
  h.bind hf

theorem next : Takes 1 Parser.next := by
  intro c c' t hread
  unfold Parser.next at hread
  split at hread
  · cases hread
  · next t rest hrest =>
      cases hread
      exact ⟨[t], hrest, Nat.le_refl 1⟩

theorem discard (h : Takes least p) : Takes least (Functor.discard p : Parser PUnit) :=
  h.before fun _ => pure

theorem get : Takes 0 (MonadState.get : Parser Cursor) := by
  refine .none fun c c' t hread => ?_
  cases hread
  rfl

theorem peek : Takes 0 Parser.peek := by
  refine .none fun c c' t hread => ?_
  cases hread
  rfl

theorem remaining : Takes 0 Parser.remaining := by
  refine .none fun c c' t hread => ?_
  cases hread
  rfl

theorem descend : Takes 0 Parser.descend := by
  refine .none fun c c' a hread => ?_
  unfold Parser.descend at hread
  split at hread
  · cases hread
    rfl
  · cases hread

theorem ascend {levels : Nat} : Takes 0 (Parser.ascend levels) := by
  refine .none fun c c' a hread => ?_
  unfold Parser.ascend at hread
  split at hread
  · cases hread
    rfl
  · cases hread

theorem nested (h : Takes least p) : Takes least (Parser.nested p) :=
  descend.after fun _ => h.before fun _ => ascend.before fun _ => pure

theorem atDelimiter : Takes 0 (Parser.atDelimiter close) := by
  apply peek.after
  intro t
  split <;> exact pure

theorem eat : Takes 0 (Parser.eat close) := by
  apply atDelimiter.after
  intro found
  split
  · exact (next.discard.before fun _ => pure).mono (Nat.zero_le 1)
  · exact pure

theorem expect : Takes 1 (Parser.expect close) := by
  apply next.before
  intro t
  split
  · split
    · exact pure
    · exact error
  · exact error

theorem name : Takes 1 Parser.name := by
  apply next.before
  intro t
  split
  · exact pure
  · exact error

theorem terminator : Takes 0 Parser.terminator := by
  intro c c' ended hread
  unfold Parser.terminator at hread
  split at hread
  · cases hread
    exact ⟨[], rfl, Nat.le_refl 0⟩
  · next t rest hrest =>
      split at hread
      · cases hread
        exact ⟨[t], hrest, Nat.zero_le _⟩
      · cases hread
        exact ⟨[], rfl, Nat.le_refl 0⟩
      · cases hread

theorem binaryOp? {looseness : Nat} : Takes 0 (Parser.binaryOp? looseness) := by
  apply peek.after
  intro t
  split <;> exact pure

theorem unaryOp? : Takes 0 Parser.unaryOp? := by
  apply peek.after
  intro t
  split <;> exact pure

theorem itemsFrom (h : Takes least p) (found : List α) (rounds : List PlacedToken) :
    Takes 0 (Parser.itemsFrom p close found rounds) := by
  induction rounds generalizing found with
  | nil => exact error
  | cons _ rounds ih =>
      apply eat.after
      intro closed
      split
      · exact pure
      · refine (expect.mono (Nat.zero_le 1)).after fun _ => eat.after fun closed' => ?_
        split
        · exact pure
        · exact (h.mono (Nat.zero_le _)).after fun a => ih (a :: found)

theorem items (h : Takes least p) : Takes 0 (Parser.items p close) := by
  apply eat.after
  intro closed
  split
  · exact pure
  · exact (h.mono (Nat.zero_le _)).after fun a => remaining.after fun rounds => h.itemsFrom [a] rounds

/-- A delimiter that may be there is taken, or else something behind it. -/
theorem eat_or {f : Bool → Parser β} (htrue : Takes 0 (f true)) (hfalse : Takes 1 (f false)) :
    Takes 1 (Parser.eat close >>= f) := by
  rw [Parser.eat, bind_assoc]
  refine atDelimiter.after fun found => ?_
  cases found with
  | true =>
      simp only [if_true, bind_assoc, pure_bind]
      exact next.discard.before fun _ => htrue
  | false =>
      simp only [Bool.false_eq_true, if_false, pure_bind]
      exact hfalse

/-- Items end with the closing delimiter at least. -/
theorem items_close (h : Takes 1 p) : Takes 1 (Parser.items p close) :=
  eat_or pure <| h.before fun a => remaining.after fun rounds => h.itemsFrom [a] rounds

end Takes

section Expressions

variable {least : Nat} {operand expression : Parser Expr}

theorem takes_chainFrom (h : Takes least operand) (looseness links : Nat) (lhs : Expr)
    (rounds : Nat) : Takes 0 (chainFrom operand looseness links lhs rounds) := by
  induction rounds generalizing links lhs with
  | zero => exact .error
  | succ rounds ih =>
      apply Takes.binaryOp?.after
      intro op
      cases op with
      | none => exact Takes.ascend.before fun _ => .pure
      | some op =>
          refine (Takes.next.discard.mono (Nat.zero_le 1)).after fun _ => Takes.descend.after fun _ => ?_
          exact (h.mono (Nat.zero_le _)).after fun rhs => ih (links + 1) (.binary op lhs rhs)

theorem takes_chain (h : Takes least operand) (looseness : Nat) :
    Takes least (chain operand looseness) := by
  induction looseness with
  | zero => exact h
  | succ looseness ih => exact ih.before fun lhs => takes_chainFrom ih _ _ lhs maxRounds

theorem takes_unary (h : Takes least operand) : Takes least (unary operand) := by
  have hfrom (rounds : Nat) : Takes least (unaryFrom operand rounds) := by
    induction rounds with
    | zero => exact .error
    | succ rounds ih =>
        apply Takes.unaryOp?.after
        intro op
        cases op with
        | none => exact h
        | some op =>
            exact (Takes.next.discard.mono (Nat.zero_le 1)).after fun _ =>
              ih.nested.before fun _ => .pure
  exact hfrom maxRounds

theorem takes_linksFrom (h : Takes least expression) (links : Nat) (e : Expr) (rounds : Nat) :
    Takes 0 (linksFrom expression links e rounds) := by
  have hpart : Takes 0 expression := h.mono (Nat.zero_le _)
  induction rounds generalizing links e with
  | zero => exact .error
  | succ rounds ih =>
      apply Takes.eat.after
      intro isIndex
      split
      · exact Takes.descend.after fun _ => hpart.after fun position =>
          (Takes.expect.mono (Nat.zero_le 1)).after fun _ => ih (links + 1) (.index e position)
      · apply Takes.atDelimiter.after
        intro isCall
        split
        · refine (Takes.next.mono (Nat.zero_le 1)).after fun t => ?_
          split
          · exact hpart.items.after fun arguments => ih links (.call _ arguments)
          · exact .error
        · exact Takes.ascend.before fun _ => .pure

theorem takes_entry (h : Takes least expression) : Takes least (entry expression) :=
  h.before fun _ => (Takes.expect.mono (Nat.zero_le 1)).after fun _ =>
    (h.mono (Nat.zero_le _)).before fun _ => .pure

theorem takes_primary (h : Takes least expression) : Takes 1 (primary expression) := by
  have hpart : Takes 0 expression := h.mono (Nat.zero_le _)
  apply Takes.next.before
  intro t
  split
  case h_9 =>
    exact hpart.after fun _ => (Takes.expect.mono (Nat.zero_le 1)).before fun _ => .pure
  case h_10 => exact hpart.items.before fun _ => .pure
  case h_11 => exact (takes_entry h).items.before fun _ => .pure
  case h_12 => exact .error
  all_goals exact .pure

theorem takes_postfixed (h : Takes least expression) : Takes 1 (postfixed expression) :=
  (takes_primary h).before fun e => takes_linksFrom h 0 e maxRounds

theorem takes_expressionWithin (levels : Nat) : Takes 1 (expressionWithin levels) := by
  induction levels with
  | zero => exact .error
  | succ levels ih => exact (takes_chain (takes_unary (takes_postfixed ih)) _).nested

end Expressions

theorem takes_expression : Takes 1 expression :=
  takes_expressionWithin (maxDepth + 1)

section Statements

variable {least : Nat} {block : Parser (List Stmt)}

theorem takes_ifFrom (h : Takes least block) (rounds : Nat) : Takes 1 (ifFrom block rounds) := by
  have hblock : Takes 0 block := h.mono (Nat.zero_le _)
  have hskip : Takes 0 (discard next : Parser PUnit) := Takes.next.discard.mono (Nat.zero_le 1)
  induction rounds with
  | zero => exact .error
  | succ rounds ih =>
      refine takes_expression.before fun condition => hblock.after fun body =>
        Takes.peek.after fun t => ?_
      split
      · refine hskip.after fun _ => Takes.peek.after fun t' => ?_
        split
        · exact hskip.after fun _ => (ih.mono (Nat.zero_le 1)).nested.before fun _ => .pure
        · exact hblock.before fun _ => .pure
      · exact .pure

theorem takes_statement (h : Takes least block) : Takes 1 (statement block) := by
  have hblock : Takes 0 block := h.mono (Nat.zero_le _)
  have hexpression : Takes 0 expression := takes_expression.mono (Nat.zero_le 1)
  have hnext : Takes 0 next := Takes.next.mono (Nat.zero_le 1)
  have hdone : Takes 0 (discard terminator : Parser PUnit) := Takes.terminator.discard
  apply Takes.peek.after
  intro t
  split
  · refine Takes.next.discard.before fun _ => (Takes.name.mono (Nat.zero_le 1)).after fun name =>
      hnext.after fun t' => ?_
    split
    · exact hexpression.after fun value => hdone.before fun _ => .pure
    · exact .error
  · exact Takes.next.discard.before fun _ =>
      ((takes_ifFrom h maxRounds).mono (Nat.zero_le 1)).before fun _ => .pure
  · exact Takes.next.discard.before fun _ => hexpression.after fun condition =>
      hblock.before fun _ => .pure
  · exact Takes.next.discard.before fun _ => .pure
  · refine Takes.get.after fun c => takes_expression.before fun e => Takes.peek.after fun t' => ?_
    split
    · refine hnext.discard.after fun _ => ?_
      split
      · exact hexpression.after fun value => hdone.before fun _ => .pure
      · exact .error
    · exact Takes.terminator.before fun ended => .pure

theorem takes_blockFrom (h : Takes least block) (found : List Stmt) (rounds : List PlacedToken) :
    Takes 0 (blockFrom block found rounds) := by
  induction rounds generalizing found with
  | nil => exact .error
  | cons _ rounds ih =>
      apply Takes.eat.after
      intro closed
      split
      · exact .pure
      · apply Takes.peek.after
        intro t
        split
        · exact .error
        · exact ((takes_statement h).mono (Nat.zero_le 1)).after fun s => ih (s.1 :: found)

theorem takes_blockWithin (levels : Nat) : Takes 1 (blockWithin levels) := by
  induction levels with
  | zero => exact Takes.expect.before fun _ => .error
  | succ levels ih =>
      have hbody : Takes 0 (remaining >>= fun rounds => blockFrom (blockWithin levels) [] rounds) :=
        Takes.remaining.after fun rounds => takes_blockFrom ih [] rounds
      exact Takes.expect.before fun _ => hbody.nested

end Statements

end Parser

end ReplDaemon.Script
