import ReplDaemon.Proofs.Script.Program.Finality

/-!
# Open blocks

The way to a statement leads into the blocks that are open around it. Every one of them is a level
deeper, and so is every `if` that is chained to another one by `else`. The header of a declaration is
the one part of a statement that is read before the depth is looked at: at the last level its value is
too deep, so the declaration is stuck there.
-/

namespace ReplDaemon.Script

namespace Parser

/-- A token is taken. -/
def Took (token : Token) (c d : Cursor) : Prop :=
  ∃ position : Position, next c = .ok (⟨token, position⟩, d)

/-- The way from behind the keyword of an `if` into one of its blocks, and how many levels it opens: one
for the block, and one for every `if` that is chained by `else` in front of it. -/
inductive EntersIf : Nat → Cursor → Cursor → Prop
  | body {condition : Expr} {c c₁ c₂ : Cursor} (hcondition : expression c = .ok (condition, c₁))
      (hopen : Took (.delimiter .openBrace) c₁ c₂) : EntersIf 1 c { c₂ with depth := c₂.depth + 1 }
  | alternative {condition : Expr} {body : List Stmt} {c c₁ c₂ c₃ c₄ : Cursor}
      (hcondition : expression c = .ok (condition, c₁)) (hbody : block c₁ = .ok (body, c₂))
      (helse : Took (.keyword .elseWord) c₂ c₃) (hopen : Took (.delimiter .openBrace) c₃ c₄) :
      EntersIf 1 c { c₄ with depth := c₄.depth + 1 }
  | chained {condition : Expr} {body : List Stmt} {n : Nat} {c c₁ c₂ c₃ c₄ d : Cursor}
      (hcondition : expression c = .ok (condition, c₁)) (hbody : block c₁ = .ok (body, c₂))
      (helse : Took (.keyword .elseWord) c₂ c₃) (hif : Took (.keyword .ifWord) c₃ c₄)
      (hchained : EntersIf n { c₄ with depth := c₄.depth + 1 } d) : EntersIf (n + 1) c d

/-- The way from the beginning of a statement to that of a later one, and how many blocks and chained
`if`s it opens without closing them. -/
inductive Reaches : Nat → Cursor → Cursor → Prop
  | here (c : Cursor) : Reaches 0 c c
  | behind {s : Stmt × Bool} {n : Nat} {c c' d : Cursor} (hstatement : statement block c = .ok (s, c'))
      (hrest : Reaches n c' d) : Reaches n c d
  | branch {m n : Nat} {c c₁ c₂ d : Cursor} (hif : Took (.keyword .ifWord) c c₁)
      (henters : EntersIf m c₁ c₂) (hrest : Reaches n c₂ d) : Reaches (m + n) c d
  | loop {condition : Expr} {n : Nat} {c c₁ c₂ c₃ d : Cursor}
      (hwhile : Took (.keyword .whileWord) c c₁) (hcondition : expression c₁ = .ok (condition, c₂))
      (hopen : Took (.delimiter .openBrace) c₂ c₃)
      (hrest : Reaches n { c₃ with depth := c₃.depth + 1 } d) : Reaches (n + 1) c d

/-- The header of a declaration, in front of its equal sign. -/
def LetHeader (tokens : List Token) : Prop :=
  tokens = [.keyword .letWord] ∨ ∃ name : String, tokens = [.keyword .letWord, .identifier name]

/-- The tokens end in the header of a declaration at the last level. -/
def Stuck (c : Cursor) : Prop :=
  ∃ (n : Nat) (d : Cursor), Reaches n c d ∧ LetHeader d.tokens ∧ d.depth = maxDepth

/-- The same behind the keyword of an `if`. -/
def StuckIf (c : Cursor) : Prop :=
  ∃ (n : Nat) (d : Cursor), EntersIf n c d ∧ Stuck d

/-- The same in front of a block. -/
def StuckBlock (c : Cursor) : Prop :=
  ∃ d : Cursor, Took (.delimiter .openBrace) c d ∧ Stuck { d with depth := d.depth + 1 }

section Stuck

variable {c c₁ c₂ c₃ c₄ : Cursor} {condition : Expr} {stmts : List Stmt}

theorem Took.tokens {token : Token} (h : Took token c c₁) : c.tokens = token :: c₁.tokens := by
  obtain ⟨position, hnext⟩ := h
  rw [Cursor.tokens, next_eq_ok hnext]
  rfl

theorem Took.depth_eq {token : Token} (h : Took token c c₁) : c₁.depth = c.depth := by
  obtain ⟨position, hnext⟩ := h
  exact (Ensures.next c c₁ _ rfl hnext).1

theorem Took.rest_ne_nil {token : Token} (h : Took token c c₁) : c.rest ≠ [] := by
  obtain ⟨position, hnext⟩ := h
  exact Takes.next.ne_nil hnext

theorem Took.peek {token : Token} (h : Took token c c₁) : Parser.peek c = .ok (some token, c) :=
  peek_of_tokens h.tokens

theorem Took.discard_next {token : Token} (h : Took token c c₁) :
    (discard next : Parser PUnit) c = .ok (⟨⟩, c₁) := by
  obtain ⟨position, hnext⟩ := h
  exact bind_of_ok (f := fun _ => pure PUnit.unit) hnext

theorem Took.expect {delimiter : Delimiter} (h : Took (.delimiter delimiter) c c₁) :
    Parser.expect delimiter c = .ok (⟨⟩, c₁) := by
  obtain ⟨position, hnext⟩ := h
  rw [Parser.expect, bind_of_ok hnext]
  exact congrFun (if_pos (beq_self_eq_true delimiter)) c₁

theorem Took.extend {token : Token} (h : Took token c c₁) (more : List PlacedToken) :
    Took token (c.extend more) (c₁.extend more) := by
  obtain ⟨position, hnext⟩ := h
  have hprospect : Prospect True False next next c more := .next
  exact ⟨position, hprospect.read_of_ok hnext (.inr id)⟩

theorem Took.of_discard_next {token : Token} {position : Position} {rest : List PlacedToken}
    (hcons : c.rest = ⟨token, position⟩ :: rest) {u : PUnit}
    (h : (discard next : Parser PUnit) c = .ok (u, c₁)) : Took token c c₁ := by
  obtain ⟨t, d, hnext, hpure⟩ := exists_of_bind_ok (f := fun _ => pure PUnit.unit) h
  cases hpure
  obtain ⟨rfl, _⟩ := List.cons.inj (hcons.symm.trans (next_eq_ok hnext))
  exact ⟨position, hnext⟩

theorem Took.of_expect {d : Delimiter} {u : Unit} (h : Parser.expect d c = .ok (u, c₁)) :
    Took (.delimiter d) c c₁ := by
  obtain ⟨⟨token, position⟩, d', hnext, hmatch⟩ := exists_of_bind_ok h
  cases token with
  | delimiter e =>
      dsimp only at hmatch
      split at hmatch
      · next heq =>
          cases hmatch
          exact ⟨position, eq_of_beq heq ▸ hnext⟩
      · cases hmatch
  | _ => cases hmatch

theorem Took.of_name {n : String} (h : name c = .ok (n, c₁)) : Took (.identifier n) c c₁ := by
  obtain ⟨⟨token, position⟩, d, hnext, hmatch⟩ := exists_of_bind_ok h
  cases token with
  | identifier m =>
      cases hmatch
      exact ⟨position, hnext⟩
  | _ => cases hmatch

theorem Stuck.here (hheader : LetHeader c.tokens) (hdepth : c.depth = maxDepth) : Stuck c :=
  ⟨0, c, .here c, hheader, hdepth⟩

theorem Stuck.behind {s : Stmt × Bool} (hstatement : statement block c = .ok (s, c₁))
    (h : Stuck c₁) : Stuck c := by
  obtain ⟨n, d, hrest, hend⟩ := h
  exact ⟨n, d, .behind hstatement hrest, hend⟩

theorem StuckIf.stuck (hif : Took (.keyword .ifWord) c c₁) (h : StuckIf c₁) : Stuck c := by
  obtain ⟨m, d, henters, n, d', hrest, hend⟩ := h
  exact ⟨m + n, d', .branch hif henters hrest, hend⟩

theorem StuckBlock.loop (hwhile : Took (.keyword .whileWord) c c₁)
    (hcondition : expression c₁ = .ok (condition, c₂)) (h : StuckBlock c₂) : Stuck c := by
  obtain ⟨d, hopen, n, d', hrest, hend⟩ := h
  exact ⟨n + 1, d', .loop hwhile hcondition hopen hrest, hend⟩

theorem StuckBlock.body (hcondition : expression c = .ok (condition, c₁)) (h : StuckBlock c₁) :
    StuckIf c := by
  obtain ⟨d, hopen, hstuck⟩ := h
  exact ⟨1, _, .body hcondition hopen, hstuck⟩

theorem StuckBlock.alternative (hcondition : expression c = .ok (condition, c₁))
    (hbody : block c₁ = .ok (stmts, c₂)) (helse : Took (.keyword .elseWord) c₂ c₃)
    (h : StuckBlock c₃) : StuckIf c := by
  obtain ⟨d, hopen, hstuck⟩ := h
  exact ⟨1, _, .alternative hcondition hbody helse hopen, hstuck⟩

theorem StuckIf.chained (hcondition : expression c = .ok (condition, c₁))
    (hbody : block c₁ = .ok (stmts, c₂)) (helse : Took (.keyword .elseWord) c₂ c₃)
    (hif : Took (.keyword .ifWord) c₃ c₄) (h : StuckIf { c₄ with depth := c₄.depth + 1 }) :
    StuckIf c := by
  obtain ⟨n, d, henters, hstuck⟩ := h
  exact ⟨n + 1, d, .chained hcondition hbody helse hif henters, hstuck⟩

end Stuck

section Depth

variable {n : Nat} {c c' d : Cursor}

theorem depth_lt_of_expression {condition : Expr} (h : expression c = .ok (condition, c')) :
    c.depth < maxDepth := by
  have hne (position : Position) : expressionWithin (maxDepth + 1) c ≠ .error (.tooDeep position) := by
    rw [← expression, h]
    rintro ⟨⟩
  exact depth_lt_of_ne_tooDeep (by omega) hne

theorem depth_eq_of_expression {condition : Expr} (h : expression c = .ok (condition, c')) :
    c'.depth = c.depth :=
  Orderly.expression.balanced.depth_eq (Nat.le_of_lt (depth_lt_of_expression h)) h

/-- Every block and every `if` chained to another one is a level. -/
theorem EntersIf.depth_eq (h : EntersIf n c d) : d.depth = c.depth + n ∧ d.depth ≤ maxDepth := by
  induction h with
  | body hcondition hopen =>
      have hlt := depth_lt_of_expression hcondition
      have hdepth₁ := depth_eq_of_expression hcondition
      have hdepth₂ := hopen.depth_eq
      constructor <;> simp only <;> omega
  | alternative hcondition hbody helse hopen =>
      have hlt := depth_lt_of_expression hcondition
      have hdepth₁ := depth_eq_of_expression hcondition
      have hdepth₂ := (Orderly.blockWithin _).balanced.depth_eq (by omega) hbody
      have hdepth₃ := helse.depth_eq
      have hdepth₄ := hopen.depth_eq
      constructor <;> simp only <;> omega
  | chained hcondition hbody helse hif _ ih =>
      have hlt := depth_lt_of_expression hcondition
      have hdepth₁ := depth_eq_of_expression hcondition
      have hdepth₂ := (Orderly.blockWithin _).balanced.depth_eq (by omega) hbody
      have hdepth₃ := helse.depth_eq
      have hdepth₄ := hif.depth_eq
      simp only at ih
      omega

theorem Reaches.depth_eq (h : Reaches n c d) (hdepth : c.depth ≤ maxDepth) :
    d.depth = c.depth + n := by
  induction h with
  | here c => rfl
  | behind hstatement _ ih =>
      have hsame := (Orderly.statementWithin _).balanced.depth_eq hdepth hstatement
      have hdepth' := ih (by omega)
      omega
  | branch hif henters _ ih =>
      have hdepth₁ := hif.depth_eq
      obtain ⟨hdepth₂, hle⟩ := henters.depth_eq
      have hdepth₃ := ih hle
      omega
  | loop hwhile hcondition hopen _ ih =>
      have hdepth₁ := hwhile.depth_eq
      have hlt := depth_lt_of_expression hcondition
      have hdepth₂ := depth_eq_of_expression hcondition
      have hdepth₃ := hopen.depth_eq
      simp only at ih
      have hdepth₄ := ih (by omega)
      omega

end Depth

section Levels

variable {levels : Nat} {c c' : Cursor}

theorem block_of_blockWithin (hlevels : maxDepth < c.depth + levels) (hdepth : c.depth ≤ maxDepth)
    {body : List Stmt} (h : blockWithin levels c = .ok (body, c')) : block c = .ok (body, c') := by
  have hblock : BlockProspect True (blockWithin levels) block c.depth [] :=
    blockProspect_blockWithin levels (maxDepth + 1) c.depth hlevels (by omega)
  have hread := (hblock.prospect c (.of_depth hdepth) (Nat.le_refl _)).read_of_ok h (.inr id)
  rwa [Cursor.extend_nil, Cursor.extend_nil] at hread

theorem statement_of_within (hlevels : maxDepth < c.depth + levels) (hdepth : c.depth ≤ maxDepth)
    {s : Stmt × Bool} (h : statement (blockWithin levels) c = .ok (s, c')) (hnil : c'.rest ≠ []) :
    statement block c = .ok (s, c') := by
  have hblock : BlockProspect True (blockWithin levels) block c.depth [] :=
    blockProspect_blockWithin levels (maxDepth + 1) c.depth hlevels (by omega)
  have hne : c.rest ≠ [] := (takes_statement (takes_blockWithin levels)).ne_nil h
  have hread := (prospect_statement hblock (.of_depth hdepth) (Nat.le_refl _) hne).read_of_ok h
    (.inl hnil)
  rwa [Cursor.extend_nil, Cursor.extend_nil] at hread

end Levels

end Parser

end ReplDaemon.Script
