import ReplDaemon.Proofs.Script.Program.Readable

/-!
# Reading statements

Statements are read back from their tokens if the blocks in them are.
-/

namespace ReplDaemon.Script

open ReplDaemon.Script.Parser

namespace Parser

variable {α : Type} {c : Cursor} {rest rest' : List Token} {depth reach : Nat} {q : Parser α}

theorem peek_of_tokens {t : Token} (h : c.tokens = t :: rest) : peek c = .ok (some t, c) := by
  rw [peek_apply, h]
  rfl

/-- A name is taken. -/
theorem becomes_name {n : String} {f : String → Parser α} (h : c.tokens = .identifier n :: rest)
    (hf : ∀ d : Cursor, d.tokens = rest → d.depth = c.depth → Becomes (f n) d q rest' depth reach) :
    Becomes (name >>= f) c q rest' depth reach := by
  rw [name, bind_assoc]
  apply becomes_next h
  intro t d ht hd hdown
  rw [ht]
  exact hf d hd hdown

/-- The semicolon behind a statement is taken. -/
theorem exists_terminator (h : c.tokens = .delimiter .semicolon :: rest) :
    ∃ d : Cursor, terminator c = .ok (false, d) ∧ d.tokens = rest ∧ d.depth = c.depth := by
  obtain ⟨tokens, last, level⟩ := c
  cases tokens with
  | nil => cases h
  | cons t tail =>
      obtain ⟨token, position⟩ := t
      rw [Cursor.tokens, List.map_cons, List.cons.injEq] at h
      obtain ⟨rfl, hrest⟩ := h
      exact ⟨⟨tail, position, level⟩, rfl, hrest, rfl⟩

theorem terminator_of_end (h : c.tokens = []) : terminator c = .ok (true, c) := by
  obtain ⟨tokens, last, level⟩ := c
  cases tokens with
  | nil => rfl
  | cons t tail => cases h

/-- What stands behind an expression that is a statement or begins one. -/
def afterExpression (start : Position) (e : Expr) : Parser (Stmt × Bool) := do
  match ← peek with
  | some (.operator .assign) =>
    discard next
    match Target.ofExpr? e with
    | some target =>
      let value ← expression
      discard terminator
      return (.assign target value, false)
    | none => throw (.invalidTarget start)
  | _ => return (.evaluate e, ← terminator)

/-- A statement that begins with an expression. -/
def expressionStatement : Parser (Stmt × Bool) := do
  let start := (← get).position
  let e ← expression
  afterExpression start e

/-- What stands behind the condition and the body of an `if`. -/
def afterBody (block : Parser (List Stmt)) (rounds : Nat) (condition : Expr) (body : List Stmt) :
    Parser Stmt := do
  match ← peek with
  | some (.keyword .elseWord) =>
    discard next
    match ← peek with
    | some (.keyword .ifWord) =>
      discard next
      let chained ← nested (ifFrom block rounds)
      return .ifElse condition body [chained]
    | _ => return .ifElse condition body (← block)
  | _ => return .ifThen condition body

/-- What begins like an expression is read as one. -/
theorem statement_of_opens (block : Parser (List Stmt)) {primary : Prop}
    (h : Opens primary c.tokens) : statement block c = expressionStatement c := by
  obtain ⟨t, tail, htokens, hopens, _⟩ := h
  rw [statement, bind_of_ok (peek_of_tokens htokens)]
  cases t with
  | keyword k => cases k <;> first | rfl | cases hopens
  | delimiter d => cases d <;> first | rfl | cases hopens
  | _ => rfl

end Parser

/-- No alternative follows. -/
def NoElse (rest : List Token) : Prop :=
  rest.head? ≠ some (.keyword .elseWord)

namespace Stmt

/-- The statement is read. -/
def ReadsBack (s : Stmt) : Prop :=
  ∀ floor levels : Nat, maxDepth < floor + levels →
    Reads floor (statement (blockWithin levels)) s.tokens NoElse s.need (s, false)

/-- The tokens of a block. -/
def blockTokens (body : List Stmt) : List Token :=
  .delimiter .openBrace :: (allTokens body ++ [.delimiter .closeBrace])

theorem tokens_whileLoop (condition : Expr) (body : List Stmt) :
    (whileLoop condition body).tokens =
      .keyword .whileWord :: (condition.tokens ++ blockTokens body) := by
  simp [tokens, blockTokens]

theorem tokens_ifThen (condition : Expr) (body : List Stmt) :
    (ifThen condition body).tokens =
      .keyword .ifWord :: (condition.tokens ++ blockTokens body) := by
  simp [tokens, blockTokens]

theorem tokens_ifElse (condition : Expr) (body alternative : List Stmt) :
    (ifElse condition body alternative).tokens = .keyword .ifWord ::
      (condition.tokens ++ (blockTokens body ++ .keyword .elseWord :: blockTokens alternative)) := by
  simp [tokens, blockTokens]

/-- The statements are read as a block. -/
def ReadsBlock (body : List Stmt) : Prop :=
  ∀ floor levels : Nat, maxDepth < floor + levels →
    Reads floor (blockWithin levels) (blockTokens body) (fun _ => True) (allNeed body + 1) body

theorem reads_expression (e : Expr) :
    Reads 0 expression e.tokens (Stops topLevel) (e.need + 1) e :=
  e.readable.whole 0 (maxDepth + 1) (by omega)

/-- The value of a statement and the semicolon behind it are read. -/
theorem becomes_value {c : Cursor} {rest : List Token} (value : Expr) (f : Expr → Stmt × Bool)
    (hdepth : c.depth ≤ maxDepth) (h : c.tokens = value.tokens ++ .delimiter .semicolon :: rest) :
    Becomes (do
      let value ← expression
      discard terminator
      return f value) c (pure (f value)) rest c.depth (c.depth + (value.need + 1)) := by
  have hread := reads_expression value c _ (Nat.zero_le _) hdepth h
    (.delimiter _ _ (by decide) (by decide))
  have hend (d : Cursor) (_ : c.depth + (value.need + 1) ≤ maxDepth)
      (hd : d.tokens = .delimiter .semicolon :: rest) (hdown : d.depth = c.depth) :
      Becomes (do
        discard terminator
        return f value) d (pure (f value)) rest c.depth 0 := by
    obtain ⟨d', hterminator, hd', hdown'⟩ := exists_terminator hd
    have hdiscard : (discard terminator : Parser PUnit) d = .ok (⟨⟩, d') := by
      change (terminator d >>= fun x =>
        (.ok (PUnit.unit, x.2) : Except ParseError (PUnit × Cursor))) = _
      rw [hterminator]
      rfl
    exact .after hdiscard (.refl hd' (hdown'.trans hdown))
  exact .reaching (hread.seq hend) (by omega)

theorem readsBack_declare (name : String) (value : Expr) : (declare name value).ReadsBack := by
  intro floor levels hlevels c rest hfloor hdepth htokens _
  simp only [tokens, List.cons_append, List.append_assoc, List.nil_append] at htokens
  refine .after (peek_of_tokens htokens) ?_
  apply becomes_discard htokens
  intro d hd hdown
  apply becomes_name hd
  intro d' hd' hdown'
  apply becomes_next hd'
  intro t d'' ht hd'' hdown''
  rw [ht]
  have hvalue := becomes_value value (fun value => (declare name value, false)) (by omega) hd''
  rw [hdown'', hdown', hdown] at hvalue
  exact hvalue

/-- In front of an expression, a statement is the expression and what stands behind it. -/
theorem becomes_expressionStatement (block : Parser (List Stmt)) {c : Cursor} {e : Expr}
    {rest rest' : List Token} {depth reach : Nat} {q : Parser (Stmt × Bool)}
    (hdepth : c.depth ≤ maxDepth) (h : c.tokens = e.tokens ++ rest) (hstops : Stops topLevel rest)
    (hrest : ∀ (start : Position) (d : Cursor), d.tokens = rest → d.depth = c.depth →
      Becomes (afterExpression start e) d q rest' depth reach) :
    Becomes (statement block) c q rest' depth (max (c.depth + (e.need + 1)) reach) := by
  have hopens : Opens (e.level = 0) c.tokens := by
    rw [h]
    exact e.opens_tokens.append rest
  refine .of_eq (statement_of_opens block hopens) ?_
  have hget : (get : Parser Cursor) c = .ok (c, c) := rfl
  refine .after hget ?_
  have hread := reads_expression e c rest (Nat.zero_le _) hdepth h hstops
  exact hread.seq fun d _ hd hdown => hrest c.position d hd hdown

theorem readsBack_evaluate (e : Expr) : (evaluate e).ReadsBack := by
  intro floor levels hlevels c rest hfloor hdepth htokens _
  rw [tokens, List.append_assoc] at htokens
  have hend (start : Position) (d : Cursor) (hd : d.tokens = .delimiter .semicolon :: rest)
      (hdown : d.depth = c.depth) :
      Becomes (afterExpression start e) d (pure (evaluate e, false)) rest c.depth 0 := by
    refine .after (peek_of_tokens hd) ?_
    obtain ⟨d', hterminator, hd', hdown'⟩ := exists_terminator hd
    exact .after hterminator (.refl hd' (hdown'.trans hdown))
  have hread := becomes_expressionStatement (blockWithin levels) hdepth htokens
    (.delimiter _ _ (by decide) (by decide)) hend
  exact hread.reaching (by rw [need]; omega)

theorem ofExpr?_expr (target : Target) : Target.ofExpr? target.expr = some target := by
  cases target <;> rfl

theorem readsBack_assign (target : Target) (value : Expr) : (assign target value).ReadsBack := by
  intro floor levels hlevels c rest hfloor hdepth htokens _
  simp only [tokens, List.cons_append, List.append_assoc, List.nil_append] at htokens
  have hend (start : Position) (d : Cursor)
      (hd : d.tokens = .operator .assign :: (value.tokens ++ .delimiter .semicolon :: rest))
      (hdown : d.depth = c.depth) :
      Becomes (afterExpression start target.expr) d (pure (assign target value, false)) rest c.depth
        (c.depth + (value.need + 1)) := by
    refine .after (peek_of_tokens hd) ?_
    apply becomes_discard hd
    intro d' hd' hdown'
    rw [ofExpr?_expr]
    have hvalue := becomes_value value (fun value => (assign target value, false)) (by omega) hd'
    rw [hdown', hdown] at hvalue
    exact hvalue
  have hread := becomes_expressionStatement (blockWithin levels) hdepth htokens (.assign _ _)
    hend
  exact hread.reaching (by rw [need]; omega)

/-- A condition and the block behind it are read. -/
theorem becomes_guarded {α : Type} {floor levels : Nat} (hlevels : maxDepth < floor + levels)
    (condition : Expr) {body : List Stmt} (hbody : ReadsBlock body) {c : Cursor}
    {rest rest' : List Token} {depth reach : Nat} (f : Expr → List Stmt → Parser α) {q : Parser α}
    (hfloor : floor ≤ c.depth) (hdepth : c.depth ≤ maxDepth)
    (h : c.tokens = condition.tokens ++ (blockTokens body ++ rest))
    (hrest : ∀ d : Cursor, d.tokens = rest → d.depth = c.depth →
      Becomes (f condition body) d q rest' depth reach) :
    Becomes (do
      let condition ← expression
      let body ← blockWithin levels
      f condition body) c q rest' depth
      (max (c.depth + (condition.need + 1)) (max (c.depth + (allNeed body + 1)) reach)) := by
  have hcondition := reads_expression condition c _ (Nat.zero_le _) hdepth h
    (.delimiter _ _ (by decide) (by decide))
  have hblock (d : Cursor) (_ : c.depth + (condition.need + 1) ≤ maxDepth)
      (hd : d.tokens = blockTokens body ++ rest) (hdown : d.depth = c.depth) :
      Becomes (do
        let body ← blockWithin levels
        f condition body) d q rest' depth (max (c.depth + (allNeed body + 1)) reach) := by
    have hread := hbody floor levels hlevels d rest (by omega) (by omega) hd trivial
    rw [← hdown]
    exact hread.seq fun d' _ hd' hdown' => hrest d' hd' (hdown'.trans hdown)
  exact hcondition.seq hblock

theorem readsBack_whileLoop (condition : Expr) {body : List Stmt} (hbody : ReadsBlock body) :
    (whileLoop condition body).ReadsBack := by
  intro floor levels hlevels c rest hfloor hdepth htokens _
  rw [tokens_whileLoop, List.cons_append, List.append_assoc] at htokens
  refine .after (peek_of_tokens htokens) ?_
  apply becomes_discard htokens
  intro d hd hdown
  have hread := becomes_guarded hlevels condition hbody
    (fun condition body => pure (whileLoop condition body, false)) (by omega) (by omega) hd
    fun d' hd' hdown' => .refl hd' (hdown'.trans hdown)
  exact hread.reaching (by rw [hdown, need]; omega)

theorem readsBack_ifThen (condition : Expr) {body : List Stmt} (hbody : ReadsBlock body) :
    (ifThen condition body).ReadsBack := by
  intro floor levels hlevels c rest hfloor hdepth htokens helse
  rw [tokens_ifThen, List.cons_append, List.append_assoc] at htokens
  refine .after (peek_of_tokens htokens) ?_
  apply becomes_discard htokens
  intro d hd hdown
  have hend (d' : Cursor) (hd' : d'.tokens = rest) (hdown' : d'.depth = d.depth) :
      Becomes (afterBody (blockWithin levels) (maxRounds - 1) condition body) d'
        (pure (ifThen condition body)) rest c.depth 0 := by
    refine .after (peek_apply d') ?_
    rw [hd']
    have hdone : Becomes (pure (ifThen condition body)) d' (pure (ifThen condition body)) rest c.depth
        0 := .refl hd' (hdown'.trans hdown)
    split
    · next heq => exact absurd heq helse
    · exact hdone
  have hread := becomes_guarded hlevels condition hbody
    (afterBody (blockWithin levels) (maxRounds - 1)) (by omega) (by omega) hd hend
  have hwhole : Becomes (ifFrom (blockWithin levels) maxRounds) d (pure (ifThen condition body)) rest
      c.depth (c.depth + (ifThen condition body).need) :=
    hread.reaching (by rw [hdown, need]; omega)
  exact hwhole.bind _

theorem readsBack_ifElse (condition : Expr) {body alternative : List Stmt}
    (hbody : ReadsBlock body) (halternative : ReadsBlock alternative) :
    (ifElse condition body alternative).ReadsBack := by
  intro floor levels hlevels c rest hfloor hdepth htokens _
  rw [tokens_ifElse, List.cons_append, List.append_assoc, List.append_assoc, List.cons_append]
    at htokens
  refine .after (peek_of_tokens htokens) ?_
  apply becomes_discard htokens
  intro d hd hdown
  have hend (d' : Cursor)
      (hd' : d'.tokens = .keyword .elseWord :: (blockTokens alternative ++ rest))
      (hdown' : d'.depth = d.depth) :
      Becomes (afterBody (blockWithin levels) (maxRounds - 1) condition body) d'
        (pure (ifElse condition body alternative)) rest c.depth
        (c.depth + (allNeed alternative + 1)) := by
    refine .after (peek_of_tokens hd') ?_
    apply becomes_discard hd'
    intro d'' hd'' hdown''
    refine .after (peek_of_tokens hd'') ?_
    have hread := halternative floor levels hlevels d'' rest (by omega) (by omega) hd'' trivial
    rw [hdown'', hdown', hdown] at hread
    exact hread.bind _
  have hread := becomes_guarded hlevels condition hbody
    (afterBody (blockWithin levels) (maxRounds - 1)) (by omega) (by omega) hd hend
  have hwhole : Becomes (ifFrom (blockWithin levels) maxRounds) d
      (pure (ifElse condition body alternative)) rest c.depth
      (c.depth + (ifElse condition body alternative).need) :=
    hread.reaching (by rw [hdown, need]; omega)
  exact hwhole.bind _

/-- The tokens of a statement begin neither like the end of a block nor like an alternative. -/
theorem exists_head (s : Stmt) : ∃ (t : Token) (rest : List Token), s.tokens = t :: rest ∧
    t ≠ .delimiter .closeBrace ∧ t ≠ .keyword .elseWord := by
  have of_opens {primary : Prop} {tokens : List Token} (h : Opens primary tokens)
      (rest : List Token) : ∃ (t : Token) (rest' : List Token), tokens ++ rest = t :: rest' ∧
        t ≠ .delimiter .closeBrace ∧ t ≠ .keyword .elseWord := by
    obtain ⟨t, tail, htokens, hopens, _⟩ := h.append rest
    refine ⟨t, tail, htokens, ?_, ?_⟩ <;> rintro rfl <;> cases hopens
  cases s with
  | declare name value => exact ⟨_, _, rfl, nofun, nofun⟩
  | assign target value =>
      rw [tokens, List.append_assoc]
      exact of_opens target.expr.opens_tokens _
  | ifThen condition body => exact ⟨_, _, tokens_ifThen _ _, nofun, nofun⟩
  | ifElse condition body alternative => exact ⟨_, _, tokens_ifElse _ _ _, nofun, nofun⟩
  | whileLoop condition body => exact ⟨_, _, tokens_whileLoop _ _, nofun, nofun⟩
  | evaluate e => exact of_opens e.opens_tokens _

end Stmt

end ReplDaemon.Script
