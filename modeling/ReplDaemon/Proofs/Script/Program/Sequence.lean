import ReplDaemon.Proofs.Script.Program.Completion
import ReplDaemon.Proofs.Script.Program.Places
import ReplDaemon.Proofs.Script.Program.Semicolons

/-!
# Programs behind each other

A program that is closed, because its last token is a semicolon or its last statement ends with a block,
can have another program behind it. Their tokens, one after the other, spell the statements of both and
the result of the second one: no reading looks past a semicolon, and past a block only for an `else`,
which no program begins with.
-/

namespace ReplDaemon.Script

/-- Whether a statement ends with a block. -/
def Stmt.endsWithBlock : Stmt → Bool
  | .ifThen _ _ | .ifElse _ _ _ | .whileLoop _ _ => true
  | .declare _ _ | .assign _ _ | .evaluate _ => false

namespace Parser

variable {α β : Type} {more : List PlacedToken} {c : Cursor}

/-- What is read stays the same with more tokens behind. -/
def Unmoved (more : List PlacedToken) (p : Parser α) (c : Cursor) : Prop :=
  ∀ (a : α) (c' : Cursor), p c = .ok (a, c') → p (c.extend more) = .ok (a, c'.extend more)

namespace Unmoved

variable {p : Parser α}

theorem bind {f : α → Parser β} (h : Unmoved more p c)
    (hf : ∀ (a : α) (c' : Cursor), p c = .ok (a, c') → Unmoved more (f a) c') :
    Unmoved more (p >>= f) c := by
  intro b d hread
  obtain ⟨a, c', hp, hfa⟩ := exists_of_bind_ok hread
  exact (bind_of_ok (h a c' hp)).trans (hf a c' hp b d hfa)

theorem of_prospect (h : Prospect True False p p c more) : Unmoved more p c :=
  fun _ _ hread => h.read_of_ok hread (.inr id)

theorem pure {a : α} : Unmoved more (Pure.pure a) c :=
  of_prospect .pure

theorem throw {e : ParseError} : Unmoved more (MonadExcept.throw e : Parser α) c :=
  of_prospect .throw

theorem next : Unmoved more Parser.next c :=
  of_prospect .next

theorem discard_next : Unmoved more (discard Parser.next : Parser PUnit) c :=
  next.bind fun _ _ _ => pure

theorem name : Unmoved more Parser.name c :=
  of_prospect .name

theorem peek (h : c.rest ≠ []) : Unmoved more Parser.peek c := by
  obtain ⟨t, rest, hcons⟩ := Cursor.exists_rest h
  have hpeek : Parser.peek c = .ok (some t.token, c) := by
    rw [Parser.peek, hcons]
    rfl
  intro t' c' hread
  cases hpeek.symm.trans hread
  exact peek_extend hcons more

theorem terminator (h : c.rest ≠ []) : Unmoved more Parser.terminator c := by
  rw [terminator_eq_bind]
  refine (peek h).bind fun t c' _ => ?_
  split
  · exact pure
  · exact discard_next.bind fun _ _ _ => pure
  · exact pure
  · exact next.bind fun _ _ _ => throw

end Unmoved

theorem Cursor.closed_of_read {p : Parser α} {c c' : Cursor} {least : Nat} (h : Takes least p) {a : α}
    (hread : p c = .ok (a, c')) (hclosed : Closed c.tokens) : Closed c'.tokens :=
  hclosed.of_suffix ((h.suffix hread).map _)

theorem unmoved_expression (hclosed : Closed c.tokens) : Unmoved more expression c :=
  fun _ _ hread => expression_extend hread (rest_ne_nil_of_expression hread hclosed) more

/-- A value is followed by a semicolon, or else by a token that may not be there. -/
theorem unmoved_value (f : Expr → α) (hclosed : Closed c.tokens) :
    Unmoved more (do
      let value ← expression
      discard terminator
      return f value) c :=
  (unmoved_expression hclosed).bind fun _ _ hread =>
    Unmoved.bind
      ((Unmoved.terminator (rest_ne_nil_of_expression hread hclosed)).bind fun _ _ _ => .pure)
      fun _ _ _ => .pure

theorem unmoved_afterExpression (start : Position) (e : Expr) (hnil : c.rest ≠ [])
    (hclosed : Closed c.tokens) : Unmoved more (afterExpression start e) c := by
  refine (Unmoved.peek hnil).bind fun t c' hpeek => ?_
  cases (peek_apply c).symm.trans hpeek
  split
  · refine Unmoved.discard_next.bind fun _ c₁ hnext => ?_
    have hclosed₁ : Closed c₁.tokens := Cursor.closed_of_read Takes.next.discard hnext hclosed
    split
    · exact unmoved_value _ hclosed₁
    · exact .throw
  · exact (Unmoved.terminator hnil).bind fun _ _ _ => .pure

theorem unmoved_expressionStatement (hnil : c.rest ≠ []) (hclosed : Closed c.tokens) :
    Unmoved more expressionStatement c := by
  obtain ⟨t, rest, hcons⟩ := Cursor.exists_rest hnil
  have hposition : (c.extend more).position = c.position := by
    rw [Cursor.position, Cursor.position, Cursor.rest_extend, hcons]
    rfl
  have hbehind : Unmoved more (expression >>= afterExpression c.position) c :=
    (unmoved_expression hclosed).bind fun e c' hread =>
      unmoved_afterExpression _ e (rest_ne_nil_of_expression hread hclosed)
        (Cursor.closed_of_read takes_expression hread hclosed)
  intro x c' hread
  have hextend : expressionStatement (c.extend more) =
      (expression >>= afterExpression c.position) (c.extend more) := by
    rw [← hposition]
    rfl
  rw [hextend]
  exact hbehind x c' hread

/-- Behind an `if`, there is no `else`. -/
theorem unmoved_ifFrom (hdepth : c.depth ≤ maxDepth) (hmore : NoElse (more.map (·.token))) :
    Unmoved more (ifFrom Parser.block maxRounds) c :=
  fun _ _ hread => (prospect_ifFrom (blockProspect_block True more) maxRounds (.of_depth hdepth)
    (Nat.zero_le _)).read_of_ok hread (.inr (not_not_intro hmore))

theorem unmoved_block (hdepth : c.depth ≤ maxDepth) : Unmoved more Parser.block c :=
  .of_prospect ((blockProspect_block True more).prospect c (.of_depth hdepth) (Nat.zero_le _))

/-- Between a condition and a block, nothing is looked at but the block. -/
theorem unmoved_while {f : Expr → List Stmt → α} (hdepth : c.depth ≤ maxDepth) :
    Unmoved more (do
      let condition ← expression
      return f condition (← Parser.block)) c := by
  intro a c' hread
  obtain ⟨condition, c₁, hcondition, hrest⟩ := exists_of_bind_ok hread
  have hdepth₁ := Orderly.expression.balanced.depth_eq hdepth hcondition
  obtain ⟨body, c₂, hbody, hpure⟩ := exists_of_bind_ok hrest
  have hnil := (takes_blockWithin (maxDepth + 1)).ne_nil hbody
  cases hpure
  exact (bind_of_ok (expression_extend hcondition hnil more)).trans
    (bind_of_ok (unmoved_block (hdepth₁ ▸ hdepth) body _ hbody))

theorem unmoved_statement (hdepth : c.depth ≤ maxDepth) (hmore : NoElse (more.map (·.token)))
    (hclosed : Closed c.tokens ∨ c.tokens.head? = some (.keyword .ifWord) ∨
      c.tokens.head? = some (.keyword .whileWord)) :
    Unmoved more (statement Parser.block) c := by
  intro x c' hread
  have hnil := takes_statement_block.ne_nil hread
  revert x c'
  change Unmoved more (statement Parser.block) c
  refine (Unmoved.peek hnil).bind fun t c₀ hpeek => ?_
  obtain ⟨rfl, rfl⟩ := Prod.mk.inj (Except.ok.inj ((peek_apply c).symm.trans hpeek))
  split
  · next hlet =>
      have hlast : Closed c.tokens := by
        rcases hclosed with hclosed | hif | hwhile
        · exact hclosed
        · cases hlet.symm.trans hif
        · cases hlet.symm.trans hwhile
      refine Unmoved.discard_next.bind fun _ c₁ hnext => Unmoved.name.bind fun name c₂ hname =>
        Unmoved.next.bind fun t c₃ hnext' => ?_
      have hlast₁ := Cursor.closed_of_read Takes.next.discard hnext hlast
      have hlast₂ := Cursor.closed_of_read Takes.name hname hlast₁
      have hlast₃ := Cursor.closed_of_read Takes.next hnext' hlast₂
      split
      · exact unmoved_value (fun value => (Stmt.declare name value, false)) hlast₃
      · exact .throw
  · refine Unmoved.discard_next.bind fun _ c₁ hnext => ?_
    have hdepth₁ := Orderly.discard_next.balanced.depth_eq hdepth hnext
    exact (unmoved_ifFrom (hdepth₁ ▸ hdepth) hmore).bind fun _ _ _ => .pure
  · refine Unmoved.discard_next.bind fun _ c₁ hnext => ?_
    have hdepth₁ := Orderly.discard_next.balanced.depth_eq hdepth hnext
    exact unmoved_while (hdepth₁ ▸ hdepth)
  · exact Unmoved.discard_next.bind fun _ _ _ => .pure
  · next hif hwhile _ =>
      exact unmoved_expressionStatement hnil
        (hclosed.resolve_right (not_or.mpr ⟨hif, hwhile⟩))

/-- A reader of statements that do not end with a block. -/
def Blockless (p : Parser (Stmt × Bool)) : Prop :=
  ∀ (c c' : Cursor) (x : Stmt × Bool), p c = .ok (x, c') → x.1.endsWithBlock = false

namespace Blockless

theorem bind {p : Parser α} {f : α → Parser (Stmt × Bool)} (hf : ∀ a : α, Blockless (f a)) :
    Blockless (p >>= f) := by
  intro c c' x hread
  obtain ⟨a, d, _, hread'⟩ := exists_of_bind_ok hread
  exact hf a d c' x hread'

theorem pure {x : Stmt × Bool} (h : x.1.endsWithBlock = false) : Blockless (Pure.pure x) := by
  intro c c' y hread
  cases hread
  exact h

theorem throw {e : ParseError} : Blockless (MonadExcept.throw e) := by
  intro c c' x hread
  cases hread

theorem afterExpression (start : Position) (e : Expr) : Blockless (Parser.afterExpression start e) := by
  refine .bind fun t => ?_
  split
  · refine .bind fun _ => ?_
    split
    · exact .bind fun _ => .bind fun _ => .pure rfl
    · exact .throw
  · exact .bind fun _ => .pure rfl

end Blockless

/-- Statements that end with a block begin with a keyword of theirs. -/
theorem head?_of_endsWithBlock {x : Stmt × Bool} {c' : Cursor}
    (hread : statement Parser.block c = .ok (x, c')) (hx : x.1.endsWithBlock = true) :
    c.tokens.head? = some (.keyword .ifWord) ∨ c.tokens.head? = some (.keyword .whileWord) := by
  rw [statement, bind_of_ok (peek_apply c)] at hread
  have habsurd {p : Parser (Stmt × Bool)} (hp : Blockless p) : p c ≠ .ok (x, c') := by
    intro hread
    rw [hp c c' x hread] at hx
    cases hx
  generalize c.tokens.head? = t at hread ⊢
  split at hread
  · refine absurd hread (habsurd (.bind fun _ => .bind fun name => .bind fun t => ?_))
    split
    · exact .bind fun _ => .bind fun _ => .pure rfl
    · exact .throw
  · exact .inl rfl
  · exact .inr rfl
  · exact absurd hread (habsurd (.bind fun _ => .pure rfl))
  · exact absurd hread (habsurd (.bind fun _ => .bind fun e => .afterExpression _ e))

/-- In front of a closed end, a statement is closed. -/
theorem atEnd_eq_false (hdepth : c.depth ≤ maxDepth) {s : Stmt} {atEnd : Bool} {c' : Cursor}
    (hclosed : Closed c.tokens ∨ c.tokens.head? = some (.keyword .ifWord) ∨
      c.tokens.head? = some (.keyword .whileWord))
    (hread : statement Parser.block c = .ok ((s, atEnd), c')) : atEnd = false := by
  cases atEnd with
  | false => rfl
  | true =>
      let more : List PlacedToken := unplaced [.keyword .letWord]
      have hmore : NoElse (more.map (·.token)) := by
        rw [map_token_unplaced]
        rintro ⟨⟩
      have hend := Tells.statement Parser.block _ _ s
        (unmoved_statement hdepth hmore hclosed _ c' hread)
      exact absurd (List.append_eq_nil_iff.mp hend).2 (List.cons_ne_nil _ _)

theorem programBehind_of_statement {s : Stmt} {c' : Cursor}
    (hread : statement Parser.block c = .ok ((s, false), c')) (found : List Stmt) :
    programBehind found c = programBehind (s :: found) c' := by
  rw [programBehind_eq found (takes_statement_block.ne_nil hread), bind_of_ok hread]
  cases s <;> rfl

/-- The last statement of a program that has no result. -/
theorem getLast?_of_programBehind {found : List Stmt} {s : Stmt} {atEnd : Bool} {c₁ c' : Cursor}
    {p : Program} (hstatement : statement Parser.block c = .ok ((s, atEnd), c₁)) (hnil : c₁.rest = [])
    (hread : programBehind found c = .ok (p, c')) (hresult : p.result = none) :
    p.statements.getLast? = some s := by
  rw [programBehind_eq found (takes_statement_block.ne_nil hstatement), bind_of_ok hstatement] at hread
  have hlast (h : programBehind (s :: found) c₁ = .ok (p, c')) : p.statements.getLast? = some s := by
    cases (programBehind_of_nil _ hnil).symm.trans h
    rw [List.getLast?_reverse, List.head?_cons]
  cases s with
  | evaluate e =>
      cases atEnd with
      | false => exact hlast hread
      | true =>
          cases hread
          cases hresult
  | declare | assign | ifThen | ifElse | whileLoop => exact hlast hread

/-- A statement of a program that is closed at the end of the tokens is read the same, and to its end,
with more tokens behind. -/
theorem statement_extend {found : List Stmt} {s : Stmt} {atEnd : Bool} {c₁ c' : Cursor} {p : Program}
    (hdepth : c.depth ≤ maxDepth) (hstatement : statement Parser.block c = .ok ((s, atEnd), c₁))
    (hread : programBehind found c = .ok (p, c'))
    (hclosed : Closed c.tokens ∨
      p.result = none ∧ ∃ s ∈ p.statements.getLast?, s.endsWithBlock = true)
    (hmore : NoElse (more.map (·.token))) :
    atEnd = false ∧
      statement Parser.block (c.extend more) = .ok ((s, atEnd), c₁.extend more) := by
  by_cases hnil : c₁.rest = []
  · -- The last statement: it is the one that the program is closed by.
    have hclosed' : Closed c.tokens ∨ c.tokens.head? = some (.keyword .ifWord) ∨
        c.tokens.head? = some (.keyword .whileWord) := by
      refine hclosed.imp_right ?_
      rintro ⟨hresult, s', hs', hblock⟩
      cases (getLast?_of_programBehind hstatement hnil hread hresult).symm.trans hs'
      exact head?_of_endsWithBlock hstatement hblock
    exact ⟨atEnd_eq_false hdepth hclosed' hstatement,
      unmoved_statement hdepth hmore hclosed' _ c₁ hstatement⟩
  · have hatEnd : atEnd = false := by
      cases atEnd with
      | false => rfl
      | true => exact absurd (Tells.statement _ c c₁ s hstatement) hnil
    exact ⟨hatEnd, (prospect_statement (blockProspect_block True more) (.of_depth hdepth)
      (Nat.zero_le _) (takes_statement_block.ne_nil hstatement)).read_of_ok hstatement (.inl hnil)⟩

/-- A program that is closed at the end of the tokens goes on with what stands behind them. -/
theorem programBehind_extend {found : List Stmt} {p : Program} {c' : Cursor}
    (hdepth : c.depth ≤ maxDepth) (hread : programBehind found c = .ok (p, c'))
    (hclosed : Closed c.tokens ∨
      p.result = none ∧ ∃ s ∈ p.statements.getLast?, s.endsWithBlock = true)
    (hmore : NoElse (more.map (·.token))) :
    p.result = none ∧ c'.rest = [] ∧ c'.depth = c.depth ∧
      programBehind found (c.extend more) =
        programBehind p.statements.reverse (c'.extend more) := by
  induction hlength : c.rest.length using Nat.strong_induction_on generalizing found c with
  | h length ih =>
      by_cases hnil : c.rest = []
      · cases (programBehind_of_nil found hnil).symm.trans hread
        exact ⟨rfl, hnil, rfl, by rw [List.reverse_reverse]⟩
      obtain ⟨⟨s, atEnd⟩, c₁, hstatement, -⟩ :=
        exists_of_bind_ok ((programBehind_eq found hnil).symm.trans hread)
      have hdepth₁ := (Orderly.statementWithin (maxDepth + 1)).balanced.depth_eq hdepth hstatement
      have hless := takes_statement_block.length_le hstatement
      obtain ⟨rfl, hextend⟩ := statement_extend hdepth hstatement hread hclosed hmore
      rw [programBehind_of_statement hstatement] at hread
      obtain ⟨hresult, hend, hdown, hbehind⟩ := ih c₁.rest.length (by omega) (by omega) hread
        (hclosed.imp_left (Cursor.closed_of_read takes_statement_block hstatement)) rfl
      exact ⟨hresult, hend, hdown.trans hdepth₁,
        (programBehind_of_statement hextend found).trans hbehind⟩

/-- Statements that were found before stand in front of those that are read. -/
theorem programFrom_append {front found : List Stmt} {rounds : List PlacedToken} {p : Program}
    {c' : Cursor} (hread : programFrom front rounds c = .ok (p, c')) :
    programFrom (front ++ found) rounds c =
      .ok ({ statements := found.reverse ++ p.statements, result := p.result }, c') := by
  induction rounds generalizing front c with
  | nil =>
      cases hread
      rw [programFrom, List.reverse_append]
      rfl
  | cons _ rounds ih =>
      obtain ⟨t, c₁, hpeek, hread⟩ := exists_of_bind_ok hread
      refine (bind_of_ok hpeek).trans ?_
      cases t with
      | none =>
          cases hread
          rw [List.reverse_append]
          rfl
      | some t =>
          obtain ⟨⟨s, atEnd⟩, c₂, hstatement, hread⟩ := exists_of_bind_ok hread
          refine (bind_of_ok hstatement).trans ?_
          cases s with
          | evaluate e =>
              cases atEnd with
              | false => exact ih hread
              | true =>
                  cases hread
                  rw [List.reverse_append]
                  rfl
          | declare | assign | ifThen | ifElse | whileLoop => exact ih hread

end Parser

open ReplDaemon.Script.Parser

namespace Program

/-- No program begins with an `else`. -/
theorem noElse_of_ofTokens {tokens : List PlacedToken} {p : Program} (h : ofTokens tokens = .ok p) :
    NoElse (tokens.map (·.token)) := by
  by_cases hnil : tokens = []
  · rw [hnil]
    exact nofun
  · obtain ⟨d, hread⟩ := ofTokens_eq_ok.mp h
    obtain ⟨s, c₁, hstatement, -⟩ := exists_of_bind_ok
      ((programBehind_eq [] (c := .start tokens) hnil).symm.trans hread)
    exact noElse_of_statement hstatement

/-- Tokens of a closed program with those of another one behind them, at whatever places, spell the
statements of both and the result of the second one. -/
theorem ofTokens_append {before behind behind' : List PlacedToken} {p q : Program}
    (hp : ofTokens before = .ok p) (hq : ofTokens behind = .ok q)
    (hclosed : Closed (before.map (·.token)) ∨
      p.result = none ∧ ∃ s ∈ p.statements.getLast?, s.endsWithBlock = true)
    (hplaces : behind'.map (·.token) = behind.map (·.token)) :
    p.result = none ∧ ofTokens (before ++ behind') =
      .ok { statements := p.statements ++ q.statements, result := q.result } := by
  obtain ⟨c, hbefore⟩ := ofTokens_eq_ok.mp hp
  obtain ⟨d, hbehind⟩ := ofTokens_eq_ok.mp hq
  have hmore : NoElse (behind'.map (·.token)) := hplaces ▸ noElse_of_ofTokens hq
  obtain ⟨hresult, hend, hdepth, hextend⟩ :=
    programBehind_extend (c := .start before) (Nat.zero_le _) hbefore hclosed hmore
  have hsame : (Cursor.start behind).Same (c.extend behind') := by
    refine ⟨?_, hdepth⟩
    rw [Cursor.tokens_extend, Cursor.tokens_of_rest_nil hend, hplaces]
    rfl
  have hcarries : Carries (programFrom [] behind) (programFrom [] (c.extend behind').rest) :=
    carries_programFrom [] hsame.length_eq
  obtain ⟨d', hcarried, -⟩ := hcarries (.start behind) (c.extend behind') d q hsame hbehind
  have hwhole : programBehind (p.statements.reverse) (c.extend behind') =
      .ok ({ statements := p.statements.reverse.reverse ++ q.statements, result := q.result }, d') :=
    programFrom_append hcarried
  rw [List.reverse_reverse] at hwhole
  exact ⟨hresult, ofTokens_eq_ok.mpr ⟨d', hextend.trans hwhole⟩⟩

end Program

end ReplDaemon.Script
