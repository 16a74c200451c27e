import ReplDaemon.Proofs.Script.Program.Sequence

/-!
# A semicolon behind a program

What becomes of a program when one more semicolon stands behind its tokens. A last statement that takes
its semicolon, if there is one, takes this one; an expression that was the result is a statement then;
and behind whatever is closed already, the semicolon is a statement of its own, which does nothing.
-/

namespace ReplDaemon.Script

/-- A program, and what it becomes with a semicolon behind. -/
inductive Program.Terminated : Program → Program → Prop
  | taken (statements : List Stmt) :
      Terminated { statements, result := none } { statements, result := none }
  | void (statements : List Stmt) :
      Terminated { statements, result := none }
        { statements := statements ++ [.evaluate (.literal .null)], result := none }
  | closed (statements : List Stmt) (e : Expr) :
      Terminated { statements, result := some e }
        { statements := statements ++ [.evaluate e], result := none }

/-- A semicolon somewhere. -/
def semicolonAt (position : Position) : PlacedToken where
  token := .delimiter .semicolon
  position := position

namespace Parser

variable {α : Type} {position : Position} {p q : Parser (Stmt × Bool)} {c : Cursor} {s : Stmt}

/-- With a semicolon behind, a statement is read the same, and is closed; or it is the last one, and takes
the semicolon. -/
def Absorbs (position : Position) (p : Parser (Stmt × Bool)) (c : Cursor) : Prop :=
  ∀ (s : Stmt) (atEnd : Bool) (c' : Cursor), p c = .ok ((s, atEnd), c') →
    (atEnd = false ∧
      p (c.extend [semicolonAt position]) = .ok ((s, false), c'.extend [semicolonAt position])) ∨
    (c'.rest = [] ∧
      p (c.extend [semicolonAt position]) = .ok ((s, false), { c' with last := position }))

namespace Absorbs

theorem bind {r : Parser α} {f : α → Parser (Stmt × Bool)}
    (h : Unmoved [semicolonAt position] r c)
    (hf : ∀ (a : α) (c' : Cursor), r c = .ok (a, c') → Absorbs position (f a) c') :
    Absorbs position (r >>= f) c := by
  intro s atEnd d hread
  obtain ⟨a, c', hr, hfa⟩ := exists_of_bind_ok hread
  rw [bind_of_ok (h a c' hr)]
  exact hf a c' hr s atEnd d hfa

theorem of_eq (hp : p c = q c)
    (hextend : p (c.extend [semicolonAt position]) = q (c.extend [semicolonAt position]))
    (h : Absorbs position q c) : Absorbs position p c := by
  intro s atEnd c' hread
  rw [hextend]
  exact h s atEnd c' (hp ▸ hread)

theorem closed : Absorbs position (pure (s, false)) c := by
  intro s' atEnd c' hread
  cases hread
  exact .inl ⟨rfl, rfl⟩

theorem throw {e : ParseError} : Absorbs position (throw e) c := by
  intro s' atEnd c' hread
  cases hread

/-- At the end, the semicolon is taken. -/
theorem terminator_extend (hnil : c.rest = []) :
    Parser.terminator (c.extend [semicolonAt position]) = .ok (false, { c with last := position }) := by
  obtain ⟨rest, last, depth⟩ := c
  cases hnil
  rfl

/-- What is not read at the end is not open there. -/
theorem terminator_closed {atEnd : Bool} {c' : Cursor} (hnil : c.rest ≠ [])
    (h : Parser.terminator c = .ok (atEnd, c')) : atEnd = false := by
  obtain ⟨t, rest, hcons⟩ := Cursor.exists_rest hnil
  rw [Parser.terminator, hcons] at h
  dsimp only at h
  split at h <;> cases h <;> rfl

theorem terminator {f : Bool → Bool} (hf : f false = false) :
    Absorbs position (Parser.terminator >>= fun atEnd => pure (s, f atEnd)) c := by
  by_cases hnil : c.rest = []
  · intro s' atEnd c' hread
    have hend : Parser.terminator c = .ok (true, c) := terminator_of_end (Cursor.tokens_of_rest_nil hnil)
    rw [bind_of_ok hend] at hread
    cases hread
    rw [bind_of_ok (terminator_extend hnil), hf]
    exact .inr ⟨hnil, rfl⟩
  · refine .bind (.terminator hnil) fun atEnd c' hread => ?_
    rw [terminator_closed hnil hread, hf]
    exact closed

theorem discard_terminator :
    Absorbs position (do
      discard Parser.terminator
      return (s, false)) c := by
  show Absorbs position ((Parser.terminator >>= fun _ => pure PUnit.unit) >>= fun _ =>
    pure (s, false)) c
  simp only [bind_assoc, pure_bind]
  exact terminator (f := fun _ => false) rfl

end Absorbs

/-- No expression goes on with a semicolon. -/
theorem unmoved_expression_semicolon (hdepth : c.depth ≤ maxDepth) :
    Unmoved [semicolonAt position] expression c := by
  intro e c' hread
  have hstops : Stops topLevel ([semicolonAt position].map (·.token)) :=
    .delimiter topLevel [] (by decide) (by decide)
  have hready : Ready True c := .of_depth hdepth
  exact (prospect_expression hready).read_of_ok hread (.inr (not_not_intro hstops))

theorem absorbs_value (f : Expr → Stmt) (hdepth : c.depth ≤ maxDepth) :
    Absorbs position (do
      let value ← expression
      discard terminator
      return (f value, false)) c :=
  .bind (unmoved_expression_semicolon hdepth) fun _ _ _ => .discard_terminator

theorem absorbs_afterExpression (start : Position) (e : Expr) (hdepth : c.depth ≤ maxDepth) :
    Absorbs position (afterExpression start e) c := by
  by_cases hnil : c.rest = []
  · -- whether nothing follows or the semicolon, the expression is a statement
    have hpeek : peek c = .ok (none, c) := peek_of_nil hnil
    have hextend : (c.extend [semicolonAt position]).rest = [semicolonAt position] := by
      rw [Cursor.rest_extend, hnil, List.nil_append]
    have hpeek' := peek_apply (c.extend [semicolonAt position])
    rw [Cursor.tokens, hextend] at hpeek'
    exact .of_eq (bind_of_ok hpeek) (bind_of_ok hpeek') (.terminator (f := id) rfl)
  · refine .bind (.peek hnil) fun t c' hpeek => ?_
    cases (peek_apply c).symm.trans hpeek
    split
    · refine .bind .discard_next fun _ c₁ hnext => ?_
      have hdepth₁ := Orderly.discard_next.balanced.depth_eq hdepth hnext
      split
      · exact absorbs_value _ (hdepth₁ ▸ hdepth)
      · exact .throw
    · exact .terminator (f := id) rfl

theorem absorbs_expressionStatement (hdepth : c.depth ≤ maxDepth) (hnil : c.rest ≠ []) :
    Absorbs position expressionStatement c := by
  obtain ⟨t, rest, hcons⟩ := Cursor.exists_rest hnil
  have hposition : (c.extend [semicolonAt position]).position = c.position := by
    rw [Cursor.position, Cursor.position, Cursor.rest_extend, hcons]
    rfl
  have hextend : expressionStatement (c.extend [semicolonAt position]) =
      (expression >>= afterExpression c.position) (c.extend [semicolonAt position]) := by
    rw [← hposition]
    rfl
  have hbehind : Absorbs position (expression >>= afterExpression c.position) c :=
    .bind (unmoved_expression_semicolon hdepth) fun e c' hread => by
      have hdepth' := Orderly.expression.balanced.depth_eq hdepth hread
      exact absorbs_afterExpression _ e (hdepth' ▸ hdepth)
  exact .of_eq (q := expression >>= afterExpression c.position) rfl hextend hbehind

theorem absorbs_statement (hdepth : c.depth ≤ maxDepth) (hnil : c.rest ≠ []) :
    Absorbs position (statement Parser.block) c := by
  refine .bind (.peek hnil) fun t c₀ hpeek => ?_
  cases (peek_apply c).symm.trans hpeek
  split
  · refine .bind .discard_next fun _ c₁ hnext => .bind .name fun name c₂ hname =>
      .bind .next fun t c₃ hnext' => ?_
    have hdepth₁ := Orderly.discard_next.balanced.depth_eq hdepth hnext
    have hdepth₂ := Orderly.name.balanced.depth_eq (hdepth₁ ▸ hdepth) hname
    have hdepth₃ := Orderly.next.balanced.depth_eq (by omega) hnext'
    split
    · exact absorbs_value _ (by omega)
    · exact .throw
  · refine .bind .discard_next fun _ c₁ hnext => ?_
    have hdepth₁ := Orderly.discard_next.balanced.depth_eq hdepth hnext
    have hmore : NoElse ([semicolonAt position].map (·.token)) := nofun
    exact .bind (unmoved_ifFrom (hdepth₁ ▸ hdepth) hmore) fun _ _ _ => .closed
  · refine .bind .discard_next fun _ c₁ hnext => ?_
    have hdepth₁ := Orderly.discard_next.balanced.depth_eq hdepth hnext
    refine .bind (unmoved_expression_semicolon (hdepth₁ ▸ hdepth)) fun condition c₂ hcondition => ?_
    have hdepth₂ := Orderly.expression.balanced.depth_eq (hdepth₁ ▸ hdepth) hcondition
    exact .bind (unmoved_block (by omega)) fun _ _ _ => .closed
  · exact .bind .discard_next fun _ _ _ => .closed
  · exact absorbs_expressionStatement hdepth hnil

/-- Where no tokens are left, a semicolon is a statement of its own. -/
theorem programBehind_semicolon_of_nil (found : List Stmt) (hnil : c.rest = []) :
    ∃ d : Cursor, programBehind found (c.extend [semicolonAt position]) =
      .ok ({ statements := found.reverse ++ [.evaluate (.literal .null)], result := none }, d) := by
  obtain ⟨rest, last, depth⟩ := c
  cases hnil
  refine ⟨⟨[], position, depth⟩, ?_⟩
  rw [← List.reverse_cons]
  rfl

/-- With a semicolon behind, the statements of a program are read as before, up to the last one. -/
theorem programBehind_semicolon {found : List Stmt} {p : Program} {c' : Cursor}
    (hdepth : c.depth ≤ maxDepth) (hread : programBehind found c = .ok (p, c')) :
    ∃ (q : Program) (d : Cursor), p.Terminated q ∧
      programBehind found (c.extend [semicolonAt position]) = .ok (q, d) := by
  induction hlength : c.rest.length using Nat.strong_induction_on generalizing found c with
  | h length ih =>
      by_cases hnil : c.rest = []
      · cases (programBehind_of_nil found hnil).symm.trans hread
        obtain ⟨d, hextend⟩ := programBehind_semicolon_of_nil found hnil
        exact ⟨_, d, .void _, hextend⟩
      obtain ⟨⟨s, atEnd⟩, c₁, hstatement, hrest⟩ :=
        exists_of_bind_ok ((programBehind_eq found hnil).symm.trans hread)
      have hdepth₁ := (Orderly.statementWithin (maxDepth + 1)).balanced.depth_eq hdepth hstatement
      have hless := takes_statement_block.length_le hstatement
      rcases absorbs_statement hdepth hnil s atEnd c₁ hstatement with
        ⟨rfl, hextend⟩ | ⟨hend, hextend⟩
      · rw [programBehind_of_statement hstatement] at hread
        rw [programBehind_of_statement hextend]
        exact ih c₁.rest.length (by omega) (by omega) hread rfl
      · -- the last statement, which takes the semicolon
        rw [programBehind_of_statement hextend]
        refine ⟨_, _, ?_, programBehind_of_nil _ hend⟩
        have htaken (h : programBehind (s :: found) c₁ = .ok (p, c')) :
            p.Terminated { statements := (s :: found).reverse, result := none } := by
          cases (programBehind_of_nil _ hend).symm.trans h
          exact .taken _
        cases s with
        | evaluate e =>
            cases atEnd with
            | false => exact htaken hrest
            | true =>
                cases hrest
                rw [List.reverse_cons]
                exact .closed _ e
        | declare | assign | ifThen | ifElse | whileLoop => exact htaken hrest

end Parser

open ReplDaemon.Script.Parser

/-- Tokens of a program with a semicolon behind them are those of a program, which has no result. -/
theorem Program.ofTokens_semicolon {ts : List PlacedToken} {p : Program} (h : ofTokens ts = .ok p)
    (position : Position) :
    ∃ q : Program, p.Terminated q ∧ ofTokens (ts ++ [semicolonAt position]) = .ok q := by
  obtain ⟨c, hread⟩ := ofTokens_eq_ok.mp h
  obtain ⟨q, d, hterminated, (hextend : programBehind [] (.start (ts ++ [semicolonAt position])) = _)⟩ :=
    programBehind_semicolon (c := .start ts) (Nat.zero_le _) hread
  exact ⟨q, hterminated, ofTokens_eq_ok.mpr ⟨d, hextend⟩⟩

end ReplDaemon.Script
