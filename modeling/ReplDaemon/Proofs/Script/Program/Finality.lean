import Mathlib
import ReplDaemon.Proofs.Script.Program.Prospects

/-!
# Syntax errors are final

Statements, blocks and programs, too, go on as before when more tokens stand behind. So an error that
says that the tokens are wrong stays the error that it is, and only tokens that end too early, or end
with something opened at the last level, can be mended by more of them.
-/

namespace ReplDaemon.Script

/-- What may follow a statement that no semicolon closes: nothing, or the end of the block. -/
def EndsBlock (rest : List Token) : Prop :=
  rest = [] ∨ ∃ tail : List Token, rest = .delimiter .closeBrace :: tail

namespace EndsBlock

variable {rest : List Token}

theorem stops (h : EndsBlock rest) (allowed : Nat) : Parser.Stops allowed rest := by
  rcases h with rfl | ⟨tail, rfl⟩
  · exact .nil allowed
  · exact .delimiter allowed tail (by decide) (by decide)

theorem noElse (h : EndsBlock rest) : NoElse rest := by
  rcases h with rfl | ⟨tail, rfl⟩ <;> exact nofun

end EndsBlock

namespace Parser

section Statements

variable {α : Type} {excuse : Prop} {block block' : Parser (List Stmt)} {more : List PlacedToken}

theorem prospect_expression {c : Cursor} (hready : Ready excuse c) :
    Prospect excuse (¬ Stops topLevel (more.map (·.token))) expression expression c more :=
  prospect_expressionWithin (maxDepth + 1) hready

/-- What the reader of blocks needs, so that the readers around it can rely on it. -/
structure BlockProspect (excuse : Prop) (block block' : Parser (List Stmt)) (floor : Nat)
    (more : List PlacedToken) : Prop where
  orderly : Orderly block
  of_nil : ∀ c : Cursor, c.rest = [] → block c = .error .unexpectedEnd
  prospect : ∀ c : Cursor, Ready excuse c → floor ≤ c.depth → Prospect excuse False block block' c more

variable {floor : Nat}

/-- Where no alternative follows, an `if` is complete. -/
theorem afterBody_of_noElse (block : Parser (List Stmt)) (rounds : Nat) (condition : Expr)
    (body : List Stmt) {c : Cursor} (h : NoElse c.tokens) :
    afterBody block rounds condition body c = .ok (.ifThen condition body, c) := by
  rw [afterBody, bind_of_ok (peek_apply c)]
  cases hhead : c.tokens.head? with
  | none => rfl
  | some t =>
      cases t with
      | keyword k =>
          cases k with
          | elseWord => exact absurd hhead h
          | _ => rfl
      | _ => rfl

theorem prospect_ifFrom (hblock : BlockProspect excuse block block' floor more) (rounds : Nat)
    {c : Cursor} (hready : Ready excuse c) (hfloor : floor ≤ c.depth) :
    Prospect excuse (¬ NoElse (more.map (·.token))) (ifFrom block rounds) (ifFrom block' rounds) c
      more := by
  induction rounds generalizing c with
  | zero => exact .tooDeep
  | succ rounds ih =>
      refine (prospect_expression hready).bind (fun condition c₁ hread => ?_)
        fun condition c₁ _ hend _ => .of_unexpectedEnd (bind_of_error (hblock.of_nil c₁ hend))
      obtain ⟨hready₁, hdepth₁⟩ := hready.step .expression hread
      refine .seq (hblock.prospect c₁ hready₁ (by omega)) fun body c₂ hbody => ?_
      obtain ⟨hready₂, hdepth₂⟩ := hready₁.step hblock.orderly hbody
      change Prospect excuse _ (afterBody block rounds condition body)
        (afterBody block' rounds condition body) c₂ more
      by_cases hnil : c₂.rest = []
      · exact .of_follow hnil nofun (fun _ h => afterBody_of_noElse block rounds condition body h)
          fun _ h => afterBody_of_noElse block' rounds condition body h
      obtain ⟨⟨token, position⟩, rest, hcons⟩ := Cursor.exists_rest hnil
      refine .peek hcons ?_
      cases token with
      | keyword k =>
          cases k with
          | elseWord =>
              refine .seq (.discard .next) fun _ c₃ hnext => ?_
              obtain ⟨hready₃, hdepth₃⟩ := hready₂.step .discard_next hnext
              by_cases hnil₃ : c₃.rest = []
              · exact .of_unexpectedEnd ((bind_of_ok (peek_of_nil hnil₃)).trans
                  (bind_of_error (hblock.of_nil c₃ hnil₃)))
              obtain ⟨⟨token', position'⟩, rest', hcons'⟩ := Cursor.exists_rest hnil₃
              refine .peek hcons' ?_
              have halternative : Prospect excuse (¬ NoElse (more.map (·.token)))
                  (do return Stmt.ifElse condition body (← block))
                  (do return Stmt.ifElse condition body (← block')) c₃ more :=
                .seq (hblock.prospect c₃ hready₃ (by omega)) fun _ _ _ => .pure
              cases token' with
              | keyword k' =>
                  cases k' with
                  | ifWord =>
                      refine .seq (.discard .next) fun _ c₄ hnext' => ?_
                      obtain ⟨hready₄, hdepth₄⟩ := hready₃.step .discard_next hnext'
                      refine (Prospect.nested fun d hrest hdown hdeep => ?_).bind
                        (fun _ _ _ => .pure) fun _ _ _ hend hloose => .pure hend hloose
                      exact ih ⟨hdeep, fun hends => hready₄.excuse_of (hrest ▸ hends)⟩ (by omega)
                  | _ => exact halternative
              | _ => exact halternative
          | _ => exact .pure
      | _ => exact .pure

/-- Where its block or the tokens end, a statement needs no semicolon. -/
theorem closed_of_endsBlock (a : α) {c : Cursor} (h : EndsBlock c.tokens) :
    (terminator >>= fun _ => pure a) c = .ok (a, c) := by
  obtain ⟨rest, last, depth⟩ := c
  rcases h with hnil | ⟨tail, hbrace⟩
  · cases rest with
    | nil => rfl
    | cons t rest => cases hnil
  · cases rest with
    | nil => cases hbrace
    | cons t rest =>
        obtain ⟨token, position⟩ := t
        obtain rfl : token = .delimiter .closeBrace := (List.cons.inj hbrace).1
        rfl

theorem discard_terminator (a : α) :
    (discard terminator >>= fun _ => pure a) = (terminator >>= fun _ => pure a) := by
  change ((terminator >>= fun _ => pure PUnit.unit) >>= fun _ => pure a) = _
  rw [bind_assoc]
  rfl

theorem prospect_closed {c : Cursor} (a : α) :
    Prospect excuse (¬ EndsBlock (more.map (·.token))) (terminator >>= fun _ => pure a)
      (terminator >>= fun _ => pure a) c more := by
  by_cases hnil : c.rest = []
  · exact .of_follow hnil (.inl rfl) (fun _ h => closed_of_endsBlock a h)
      fun _ h => closed_of_endsBlock a h
  obtain ⟨rest, last, depth⟩ := c
  cases rest with
  | nil => exact absurd rfl hnil
  | cons t rest =>
      obtain ⟨token, position⟩ := t
      cases token with
      | delimiter d =>
          cases d with
          | semicolon => exact .read rfl rfl
          | closeBrace => exact .read rfl rfl
          | _ => exact .refused rfl rfl (.same _)
      | _ => exact .refused rfl rfl (.same _)

/-- The value of a statement may be what the tokens end with. -/
theorem prospect_value (f : Expr → α) {c : Cursor} (hready : Ready excuse c) :
    Prospect excuse (¬ EndsBlock (more.map (·.token)))
      (do
        let value ← expression
        discard terminator
        return f value)
      (do
        let value ← expression
        discard terminator
        return f value) c more := by
  simp only [discard_terminator]
  refine (prospect_expression hready).bind (fun value c' _ => prospect_closed _)
    fun value c' _ hend hloose => ?_
  have hread := closed_of_endsBlock (f value) (c := c') (.inl (Cursor.tokens_of_rest_nil hend))
  exact .inl ⟨_, _, hread, hend, fun hends => hloose (hends.stops topLevel)⟩

/-- A statement without the remark whether it is closed. -/
def plainStatement (block : Parser (List Stmt)) : Parser Stmt := do
  return (← statement block).1

theorem afterExpression_of_endsBlock (start : Position) (e : Expr) {c : Cursor}
    (h : EndsBlock c.tokens) :
    (do return (← afterExpression start e).1 : Parser Stmt) c = .ok (.evaluate e, c) := by
  have hclosed := closed_of_endsBlock (Stmt.evaluate e) h
  simp only [afterExpression, bind_assoc]
  rw [bind_of_ok (peek_apply c)]
  rcases h with hnil | ⟨tail, hbrace⟩
  · rw [hnil]
    simpa only [List.head?_nil, bind_assoc, pure_bind] using hclosed
  · rw [hbrace]
    simpa only [List.head?_cons, bind_assoc, pure_bind] using hclosed

theorem prospect_afterExpression (start : Position) (e : Expr) {c : Cursor}
    (hready : Ready excuse c) :
    Prospect excuse (¬ EndsBlock (more.map (·.token)))
      (do return (← afterExpression start e).1) (do return (← afterExpression start e).1) c more := by
  by_cases hnil : c.rest = []
  · exact .of_follow hnil (.inl rfl) (fun _ h => afterExpression_of_endsBlock start e h)
      fun _ h => afterExpression_of_endsBlock start e h
  obtain ⟨⟨token, position⟩, rest, hcons⟩ := Cursor.exists_rest hnil
  have hevaluate : Prospect excuse (¬ EndsBlock (more.map (·.token)))
      (terminator >>= fun _ => pure (Stmt.evaluate e))
      (terminator >>= fun _ => pure (Stmt.evaluate e)) c more := prospect_closed _
  simp only [afterExpression, bind_assoc]
  refine .peek hcons ?_
  cases token with
  | operator o =>
      cases o with
      | assign =>
          simp only [bind_assoc]
          refine .seq (.discard .next) fun _ c₁ hnext => ?_
          have hready₁ := (hready.step .discard_next hnext).1
          cases Target.ofExpr? e with
          | none => exact .refused rfl rfl (.same _)
          | some target =>
              simp only [bind_assoc, pure_bind]
              exact prospect_value (fun value => Stmt.assign target value) hready₁
      | _ => simpa only [bind_assoc, pure_bind] using hevaluate
  | _ => simpa only [bind_assoc, pure_bind] using hevaluate

theorem prospect_expressionStatement {c : Cursor} (hready : Ready excuse c) (hnil : c.rest ≠ []) :
    Prospect excuse (¬ EndsBlock (more.map (·.token))) (do return (← expressionStatement).1)
      (do return (← expressionStatement).1) c more := by
  obtain ⟨t, rest, hcons⟩ := Cursor.exists_rest hnil
  have hposition : (c.extend more).position = c.position := by
    rw [Cursor.position, Cursor.position, Cursor.rest_extend, hcons]
    rfl
  let behind (start : Position) : Parser Stmt :=
    expression >>= fun e => do return (← afterExpression start e).1
  have hbehind (d : Cursor) :
      (do return (← expressionStatement).1 : Parser Stmt) d = behind d.position d := by
    simp only [expressionStatement, bind_assoc]
    rfl
  have hq := hbehind (c.extend more)
  rw [hposition] at hq
  refine .of_eq (hbehind c) hq ((prospect_expression hready).bind (fun e c' hread => ?_)
    fun e c' _ hend hloose => ?_)
  · exact prospect_afterExpression _ e (hready.step .expression hread).1
  · have hread := afterExpression_of_endsBlock c.position e (.inl (Cursor.tokens_of_rest_nil hend))
    exact .inl ⟨_, _, hread, hend, fun hends => hloose (hends.stops topLevel)⟩

theorem prospect_plainStatement (hblock : BlockProspect excuse block block' floor more) {c : Cursor}
    (hready : Ready excuse c) (hfloor : floor ≤ c.depth) (hnil : c.rest ≠ []) :
    Prospect excuse (¬ EndsBlock (more.map (·.token))) (plainStatement block)
      (plainStatement block') c more := by
  obtain ⟨⟨token, position⟩, rest, hcons⟩ := Cursor.exists_rest hnil
  have hexpression : Prospect excuse (¬ EndsBlock (more.map (·.token)))
      (do return (← expressionStatement).1) (do return (← expressionStatement).1) c more :=
    prospect_expressionStatement hready hnil
  simp only [plainStatement, statement, bind_assoc]
  refine .peek hcons ?_
  cases token with
  | keyword k =>
      cases k with
      | letWord =>
          simp only [bind_assoc]
          refine .seq (.discard .next) fun _ c₁ hnext => ?_
          have hready₁ := (hready.step .discard_next hnext).1
          refine .seq .name fun name c₂ hname => ?_
          have hready₂ := (hready₁.step .name hname).1
          refine .seq .next fun t c₃ hnext' => ?_
          have hready₃ := (hready₂.step .next hnext').1
          obtain ⟨token, position⟩ := t
          cases token with
          | operator o =>
              cases o with
              | assign =>
                  simp only [bind_assoc, pure_bind]
                  exact prospect_value (fun value => Stmt.declare name value) hready₃
              | _ => exact .refused rfl rfl (.same _)
          | _ => exact .refused rfl rfl (.same _)
      | ifWord =>
          simp only [bind_assoc, pure_bind]
          refine .seq (.discard .next) fun _ c₁ hnext => ?_
          obtain ⟨hready₁, hdepth₁⟩ := hready.step .discard_next hnext
          exact (prospect_ifFrom hblock maxRounds hready₁ (by omega)).bind (fun _ _ _ => .pure)
            fun _ _ _ hend hloose => .pure hend fun hends => hloose hends.noElse
      | whileWord =>
          simp only [bind_assoc, pure_bind]
          refine .seq (.discard .next) fun _ c₁ hnext => ?_
          obtain ⟨hready₁, hdepth₁⟩ := hready.step .discard_next hnext
          refine (prospect_expression hready₁).bind (fun condition c₂ hread => ?_)
            fun condition c₂ _ hend _ => .of_unexpectedEnd (bind_of_error (hblock.of_nil c₂ hend))
          obtain ⟨hready₂, hdepth₂⟩ := hready₁.step .expression hread
          exact .seq (hblock.prospect c₂ hready₂ (by omega)) fun _ _ _ => .pure
      | _ => exact hexpression
  | delimiter d =>
      cases d with
      | semicolon =>
          simp only [bind_assoc, pure_bind]
          exact .seq (.discard .next) fun _ _ _ => .pure
      | _ => exact hexpression
  | _ => exact hexpression

/-- A reader tells that a statement is not closed only if no tokens are left. -/
def Tells (p : Parser (Stmt × Bool)) : Prop :=
  ∀ (c c' : Cursor) (s : Stmt), p c = .ok ((s, true), c') → c'.rest = []

namespace Tells

variable {p : Parser α} {f : α → Parser (Stmt × Bool)}

theorem bind (hf : ∀ a : α, Tells (f a)) : Tells (p >>= f) := by
  intro c c' s hread
  obtain ⟨a, d, _, hread'⟩ := exists_of_bind_ok hread
  exact hf a d c' s hread'

theorem closed {s : Stmt} : Tells (pure (s, false)) := by
  intro c c' s hread
  cases hread

theorem error {e : ParseError} : Tells (throw e) := by
  intro c c' s hread
  cases hread

theorem terminator {s : Stmt} : Tells (do return (s, ← Parser.terminator)) := by
  intro c c' s' hread
  obtain ⟨atEnd, d, hterminator, hpure⟩ := exists_of_bind_ok hread
  cases hpure
  unfold Parser.terminator at hterminator
  split at hterminator
  · next hnil =>
      cases hterminator
      exact hnil
  · split at hterminator <;> cases hterminator

theorem statement (block : Parser (List Stmt)) : Tells (Parser.statement block) := by
  refine .bind fun t => ?_
  split
  · refine .bind fun _ => .bind fun _ => .bind fun t => ?_
    split
    · exact .bind fun _ => .bind fun _ => .closed
    · exact .error
  · exact .bind fun _ => .bind fun _ => .closed
  · exact .bind fun _ => .bind fun _ => .bind fun _ => .closed
  · exact .bind fun _ => .closed
  · refine .bind fun _ => .bind fun e => .bind fun t => ?_
    split
    · refine .bind fun _ => ?_
      split
      · exact .bind fun _ => .bind fun _ => .closed
      · exact .error
    · exact .terminator

end Tells

theorem plainStatement_eq_ok {c c' : Cursor} {s : Stmt} :
    plainStatement block c = .ok (s, c') ↔ ∃ atEnd : Bool, statement block c = .ok ((s, atEnd), c') := by
  constructor
  · intro hread
    obtain ⟨⟨s', atEnd⟩, d, hstatement, hpure⟩ := exists_of_bind_ok hread
    cases hpure
    exact ⟨atEnd, hstatement⟩
  · rintro ⟨atEnd, hread⟩
    exact bind_of_ok hread

theorem plainStatement_eq_error {c : Cursor} {e : ParseError} :
    plainStatement block c = .error e ↔ statement block c = .error e := by
  refine ⟨fun hread => ?_, bind_of_error⟩
  cases hstatement : statement block c with
  | error e' =>
      rw [plainStatement, bind_of_error hstatement] at hread
      cases hread
      rfl
  | ok x =>
      rw [plainStatement, bind_of_ok hstatement] at hread
      cases hread

/-- Whether a statement is closed is settled, too, unless it comes last. -/
theorem prospect_statement (hblock : BlockProspect excuse block block' floor more) {c : Cursor}
    (hready : Ready excuse c) (hfloor : floor ≤ c.depth) (hnil : c.rest ≠ []) :
    Prospect excuse True (statement block) (statement block') c more := by
  cases prospect_plainStatement hblock hready hfloor hnil with
  | @read s c' hp hq =>
      obtain ⟨atEnd, hstatement⟩ := plainStatement_eq_ok.mp hp
      obtain ⟨atEnd', hstatement'⟩ := plainStatement_eq_ok.mp hq
      by_cases hend : c'.rest = []
      · exact .ended hstatement hend trivial
      have hextend : (c'.extend more).rest ≠ [] := by
        rw [Cursor.rest_extend]
        exact fun h => hend (List.append_eq_nil_iff.mp h).1
      obtain rfl : atEnd = false := by
        cases atEnd with
        | false => rfl
        | true => exact absurd (Tells.statement block c c' s hstatement) hend
      obtain rfl : atEnd' = false := by
        cases atEnd' with
        | false => rfl
        | true => exact absurd (Tells.statement block' _ _ s hstatement') hextend
      exact .read hstatement hstatement'
  | ended hp hrest =>
      obtain ⟨atEnd, hstatement⟩ := plainStatement_eq_ok.mp hp
      exact .ended hstatement hrest trivial
  | refused hp hq halike =>
      exact .refused (plainStatement_eq_error.mp hp) (plainStatement_eq_error.mp hq) halike
  | unfinished hp hopen => exact .unfinished (plainStatement_eq_error.mp hp) hopen
  | excused hp hexcuse => exact .excused (plainStatement_eq_error.mp hp) hexcuse

theorem blockFrom_of_nil {c : Cursor} (h : c.rest = []) (found : List Stmt)
    (rounds : List PlacedToken) : blockFrom block found rounds c = .error .unexpectedEnd := by
  cases rounds with
  | nil => rfl
  | cons _ rounds =>
      rw [blockFrom, bind_of_ok (eat_apply (startsWith_of_nil h .closeBrace))]
      exact bind_of_ok (peek_of_nil h)

/-- A statement in a block leaves the depth as it was. -/
theorem Orderly.statement (h : Deeper Stmt.allHeight block) (htakes : Takes 1 block) :
    Orderly (statement block) :=
  ⟨(bounded_statement h).balanced, (takes_statement htakes).mono (Nat.zero_le 1)⟩

theorem prospect_blockFrom (hblock : BlockProspect excuse block block' floor more)
    (horderly : Orderly (statement block)) (found : List Stmt) (rounds : List PlacedToken) {c : Cursor}
    (hready : Ready excuse c) (hfloor : floor ≤ c.depth) :
    Prospect excuse False (blockFrom block found rounds) (blockFrom block' found (rounds ++ more)) c
      more := by
  induction rounds generalizing found c with
  | nil => exact .of_unexpectedEnd rfl
  | cons t rounds ih =>
      by_cases hnil : c.rest = []
      · exact .of_unexpectedEnd (blockFrom_of_nil hnil found _)
      rw [List.cons_append, blockFrom, blockFrom]
      refine .eat hnil (fun c' _ => .pure) fun _ => ?_
      obtain ⟨t', rest, hcons⟩ := Cursor.exists_rest hnil
      refine .peek hcons ?_
      refine (prospect_statement hblock hready hfloor hnil).bind (fun s c' hread => ?_)
        fun s c' _ hend _ => .of_unexpectedEnd (blockFrom_of_nil hend _ rounds)
      obtain ⟨hready', hdepth⟩ := hready.step horderly hread
      exact ih (s.1 :: found) hready' (by omega)

theorem Orderly.blockWithin (levels : Nat) : Orderly (Parser.blockWithin levels) :=
  ⟨(deeper_blockWithin levels).balanced, (takes_blockWithin levels).mono (Nat.zero_le 1)⟩

theorem Orderly.statementWithin (levels : Nat) :
    Orderly (Parser.statement (Parser.blockWithin levels)) :=
  .statement (deeper_blockWithin levels) (takes_blockWithin levels)

theorem blockWithin_of_nil (levels : Nat) {c : Cursor} (h : c.rest = []) :
    blockWithin levels c = .error .unexpectedEnd := by
  cases levels <;> exact bind_of_error (expect_of_nil h .openBrace)

/-- How many levels a reader of blocks allows makes no difference where they are enough. -/
theorem blockProspect_blockWithin (levels levels' floor : Nat)
    (hlevels : maxDepth < floor + levels) (hlevels' : maxDepth < floor + levels') :
    BlockProspect excuse (blockWithin levels) (blockWithin levels') floor more := by
  induction levels generalizing levels' floor with
  | zero =>
      refine ⟨.blockWithin 0, fun c hnil => blockWithin_of_nil 0 hnil, fun c hready hfloor => ?_⟩
      have hle := hready.depth_le
      omega
  | succ levels ih =>
      refine ⟨.blockWithin (levels + 1), fun c hnil => blockWithin_of_nil _ hnil,
        fun c hready hfloor => ?_⟩
      have hle := hready.depth_le
      obtain ⟨levels', rfl⟩ : ∃ n, levels' = n + 1 := ⟨levels' - 1, by omega⟩
      rw [blockWithin, blockWithin]
      refine .seq .expect fun _ c₁ hexpect => ?_
      obtain ⟨hready₁, hdepth₁⟩ := hready.step .expect hexpect
      refine .nested fun d hrest hdown hdeep => .remaining ?_
      exact prospect_blockFrom (ih levels' (floor + 1) (by omega) (by omega))
        (.statementWithin levels) [] d.rest
        ⟨hdeep, fun hends => hready₁.excuse_of (hrest ▸ hends)⟩ (by omega)

theorem blockProspect_block (excuse : Prop) (more : List PlacedToken) :
    BlockProspect excuse Parser.block Parser.block 0 more :=
  blockProspect_blockWithin (maxDepth + 1) (maxDepth + 1) 0 (by decide) (by decide)

/-- A program ends where its tokens do. -/
theorem programFrom_of_nil {c : Cursor} (h : c.rest = []) (found : List Stmt)
    (rounds : List PlacedToken) :
    programFrom found rounds c = .ok ({ statements := found.reverse, result := none }, c) := by
  cases rounds with
  | nil => rfl
  | cons _ rounds => exact bind_of_ok (peek_of_nil h)

theorem prospect_programFrom (found : List Stmt) (rounds : List PlacedToken) {c : Cursor}
    (hready : Ready excuse c) (hrounds : c.rest.length ≤ rounds.length) :
    Prospect excuse True (programFrom found rounds) (programFrom found (rounds ++ more)) c more := by
  induction rounds generalizing found c with
  | nil =>
      have hnil : c.rest = [] := List.length_eq_zero_iff.mp (Nat.le_zero.mp hrounds)
      exact .ended (programFrom_of_nil hnil found []) hnil trivial
  | cons t rounds ih =>
      by_cases hnil : c.rest = []
      · exact .ended (programFrom_of_nil hnil found _) hnil trivial
      obtain ⟨t', rest, hcons⟩ := Cursor.exists_rest hnil
      rw [List.cons_append, programFrom, programFrom]
      refine .peek hcons ?_
      refine (prospect_statement (blockProspect_block excuse more) hready (Nat.zero_le _) hnil).bind
        (fun s c' hread => ?_) fun s c' hread hend _ => ?_
      · have hready' := (hready.step (.statementWithin (maxDepth + 1)) hread).1
        have hlength := (takes_statement (takes_blockWithin (maxDepth + 1))).length_le hread
        have hless : c'.rest.length ≤ rounds.length := by
          rw [List.length_cons] at hrounds
          omega
        split
        · exact .pure
        · exact ih _ hready' hless
      · split
        · exact .pure hend trivial
        · exact .inl ⟨_, _, programFrom_of_nil hend _ rounds, hend, trivial⟩

end Statements

end Parser

open ReplDaemon.Script.Parser

namespace Program

theorem programFrom_of_error {tokens : List PlacedToken} {e : ParseError}
    (h : ofTokens tokens = .error e) : programFrom [] tokens (.start tokens) = .error e := by
  have hmap : (programFrom [] tokens (.start tokens)).map (·.1) = .error e := h
  cases hread : programFrom [] tokens (.start tokens) with
  | error e' =>
      rw [hread] at hmap
      cases hmap
      rfl
  | ok x =>
      rw [hread] at hmap
      cases hmap

theorem prospect_ofTokens (tokens more : List PlacedToken) :
    Prospect (EndsOpen tokens) True (programFrom [] tokens) (programFrom [] (tokens ++ more))
      (.start tokens) more :=
  prospect_programFrom [] tokens ⟨Nat.zero_le _, id⟩ (Nat.le_refl _)

/-- An error that says that the tokens are wrong is final, unless it is for the depth behind something
opened. -/
theorem ofTokens_append_of_error {tokens : List PlacedToken} {e : ParseError}
    (h : ofTokens tokens = .error e) (hfinal : e.IsFinal) (more : List PlacedToken) :
    (∃ e' : ParseError, ofTokens (tokens ++ more) = .error e' ∧ e.Alike e') ∨
      EndsOpen tokens ∧ ∃ position : Position, e = .tooDeep position := by
  have hread := programFrom_of_error h
  cases prospect_ofTokens tokens more with
  | read hp hq => cases hread.symm.trans hp
  | ended hp hrest hloose => cases hread.symm.trans hp
  | refused hp hq halike =>
      cases hread.symm.trans hp
      have hmore : ofTokens (tokens ++ more) =
          (programFrom [] (tokens ++ more) (.start (tokens ++ more))).map (·.1) := rfl
      have hstart : (Cursor.start tokens).extend more = .start (tokens ++ more) := rfl
      rw [hstart] at hq
      rw [hq] at hmore
      exact .inl ⟨_, hmore, halike⟩
  | unfinished hp hopen =>
      cases hread.symm.trans hp
      exact absurd hfinal hopen
  | excused hp hexcuse =>
      cases hread.symm.trans hp
      exact .inr ⟨hexcuse, _, rfl⟩

/-- A syntax error is final: with more tokens behind, a token that is not the one expected and a wrong
assignment target are reported again as they were, and a nesting that is too deep stays too deep,
unless the tokens end with something opened that may be closed at once. -/
theorem ofTokens_append_of_syntaxError (tokens more : List PlacedToken) :
    (∀ (expected : Expected) (found : Token) (position : Position),
      ofTokens tokens = .error (.unexpected expected found position) →
        ofTokens (tokens ++ more) = .error (.unexpected expected found position)) ∧
    (∀ position : Position, ofTokens tokens = .error (.invalidTarget position) →
      ofTokens (tokens ++ more) = .error (.invalidTarget position)) ∧
    ∀ position : Position, ofTokens tokens = .error (.tooDeep position) → ¬ EndsOpen tokens →
      ∃ position' : Position, ofTokens (tokens ++ more) = .error (.tooDeep position') := by
  refine ⟨fun expected found position h => ?_, fun position h => ?_, fun position h hends => ?_⟩
  · rcases ofTokens_append_of_error h trivial more with ⟨e', herror, halike⟩ | ⟨_, _, hdeep⟩
    · cases halike
      exact herror
    · cases hdeep
  · rcases ofTokens_append_of_error h trivial more with ⟨e', herror, halike⟩ | ⟨_, _, hdeep⟩
    · cases halike
      exact herror
    · cases hdeep
  · rcases ofTokens_append_of_error h trivial more with ⟨e', herror, halike⟩ | ⟨hopen, _⟩
    · cases halike with
      | same => exact ⟨position, herror⟩
      | tooDeep _ position' => exact ⟨position', herror⟩
    · exact absurd hopen hends

set_option maxRecDepth 4000 in
/-- Two numbers, an assignment to a number, and as many signs as there are levels. -/
theorem ofTokens_append_of_syntaxError_signs :
    (let one : PlacedToken := ⟨.int 1, .start⟩
     let assign : PlacedToken := ⟨.operator .assign, ⟨1, 2⟩⟩
     let signs : List PlacedToken := .replicate maxDepth ⟨.operator .minus, .start⟩
     (ofTokens [one, one] = .error (.unexpected (.delimiter .semicolon) (.int 1) .start) ∧
      ofTokens ([one, one] ++ [assign]) =
        .error (.unexpected (.delimiter .semicolon) (.int 1) .start)) ∧
     (ofTokens [one, assign] = .error (.invalidTarget .start) ∧
      ofTokens ([one, assign] ++ [one]) = .error (.invalidTarget .start)) ∧
     ofTokens signs = .error (.tooDeep .start) ∧ ¬ EndsOpen signs ∧
     ∃ position' : Position, ofTokens (signs ++ [one]) = .error (.tooDeep position')) := by
  have hsigns : ofTokens (.replicate maxDepth ⟨.operator .minus, .start⟩) = .error (.tooDeep .start) := by
    cbv
  have hends : ¬ EndsOpen (.replicate maxDepth ⟨.operator .minus, .start⟩) := by
    rintro ⟨t, hlast, hopens⟩
    cases hlast
    cases hopens
  exact ⟨⟨rfl, (ofTokens_append_of_syntaxError _ _).1 _ _ _ rfl⟩,
    ⟨rfl, (ofTokens_append_of_syntaxError _ _).2.1 _ rfl⟩, hsigns, hends,
    (ofTokens_append_of_syntaxError _ _).2.2 _ hsigns hends⟩

end Program

end ReplDaemon.Script
