import ReplDaemon.Proofs.Script.Program.CompletedExpressions
import ReplDaemon.Proofs.Script.Program.OpenBlocks
import ReplDaemon.Proofs.Script.Program.Programs

/-!
# Programs that can be completed

Statements, blocks and programs that the tokens end in can be completed, unless a declaration is stuck:
its name, its equal sign and a `null` for its value are added where they are missing, an expression that
is open is completed, and every block that is open is closed.
-/

namespace ReplDaemon.Script

namespace Parser

section Statements

variable {levels : Nat} {c : Cursor}

theorem succeeds_emptyBlock {rest : List Token} (hlevels : maxDepth < c.depth + levels)
    (hdepth : c.depth < maxDepth)
    (htokens : c.tokens = .delimiter .openBrace :: .delimiter .closeBrace :: rest) :
    Succeeds (blockWithin levels) c rest := by
  have hblock : Stmt.ReadsBlock [] := Stmt.readsBlock nofun
  have hread := hblock c.depth levels hlevels c rest (Nat.le_refl _) (Nat.le_of_lt hdepth) htokens
    trivial
  exact hread.succeeds (by rw [Stmt.allNeed]; omega)

/-- What is missing in a declaration can be added, if it is not at the last level. -/
theorem completes_letHeader (hlevels : maxDepth < c.depth + levels) (hdepth : c.depth < maxDepth)
    (h : LetHeader c.tokens) : Completes EndsBlock (statement (blockWithin levels)) c := by
  have hcompletes (name : String) (closing : List Token)
      (hwhole : c.tokens ++ closing = (Stmt.declare name (.literal .null)).tokens) :
      Completes EndsBlock (statement (blockWithin levels)) c := by
    refine ⟨unplaced closing, fun more hmore => ?_⟩
    have htokens : (c.extend (unplaced closing ++ more)).tokens =
        (Stmt.declare name (.literal .null)).tokens ++ more.map (·.token) := by
      rw [Cursor.tokens_extend, List.map_append, map_token_unplaced, ← List.append_assoc, hwhole]
    have hread := Stmt.readsBack_declare name (.literal .null) c.depth levels hlevels
      (c.extend (unplaced closing ++ more)) _ (Nat.le_refl _) (Nat.le_of_lt hdepth) htokens hmore.noElse
    exact hread.succeeds hdepth
  rcases h with hlet | ⟨name, hlet⟩
  · exact hcompletes "x" [.identifier "x", .operator .assign, nullToken, .delimiter .semicolon]
      (by rw [hlet]; rfl)
  · exact hcompletes name [.operator .assign, nullToken, .delimiter .semicolon] (by rw [hlet]; rfl)

theorem mendable_expression (hdepth : c.depth ≤ maxDepth) :
    Mendable False (Stops topLevel) expression c := by
  have hlevels : maxDepth < 0 + (maxDepth + 1) := by omega
  exact mendable_expressionWithin hlevels (Nat.zero_le _) hdepth

variable {α : Type}

/-- The end of the tokens closes a statement. -/
theorem terminator_ne_unexpectedEnd : terminator c ≠ .error .unexpectedEnd := by
  obtain ⟨rest, last, depth⟩ := c
  cases rest with
  | nil => exact nofun
  | cons t rest =>
      obtain ⟨token, position⟩ := t
      cases token with
      | delimiter d => cases d <;> exact nofun
      | _ => exact nofun

theorem mendable_value (f : Expr → α) (hdepth : c.depth ≤ maxDepth) :
    Mendable False EndsBlock
      (do
        let value ← expression
        discard terminator
        return f value) c := by
  simp only [discard_terminator]
  refine .bind .expression hdepth (fun more => prospect_of_depth _ c more hdepth)
    (mendable_expression hdepth) (fun _ => ⟨[], fun rest hends => hends.stops topLevel, ?_⟩)
    fun value c' _ _ => (Mendable.of_ne terminator_ne_unexpectedEnd).map
  intro value d rest hd _ hends
  have hrest : d.tokens = rest := hd
  exact ⟨f value, d, closed_of_endsBlock _ (hrest ▸ hends), hrest⟩

theorem mendable_afterExpression (start : Position) (e : Expr) (hdepth : c.depth ≤ maxDepth)
    (hnil : c.rest ≠ []) : Mendable False EndsBlock (afterExpression start e) c := by
  have hevaluate : Mendable False EndsBlock (do return (Stmt.evaluate e, ← terminator)) c :=
    (Mendable.of_ne terminator_ne_unexpectedEnd).map
  obtain ⟨⟨token, position⟩, rest, hcons⟩ := Cursor.exists_rest hnil
  refine .peek hcons ?_
  cases token with
  | operator o =>
      cases o with
      | assign =>
          refine .discard_next hnil fun c₁ hnext => ?_
          have hdepth₁ := Orderly.discard_next.balanced.depth_eq hdepth hnext
          cases Target.ofExpr? e with
          | none => exact .throw nofun
          | some target => exact mendable_value _ (by omega)
      | _ => exact hevaluate
  | _ => exact hevaluate

theorem mendable_expressionStatement (hdepth : c.depth ≤ maxDepth) (hnil : c.rest ≠ []) :
    Mendable False EndsBlock expressionStatement c := by
  obtain ⟨t, rest, hcons⟩ := Cursor.exists_rest hnil
  have hposition (more : List PlacedToken) : (c.extend more).position = c.position := by
    rw [Cursor.position, Cursor.position, Cursor.rest_extend, hcons]
    rfl
  have hbehind (more : List PlacedToken) : expressionStatement (c.extend more) =
      (expression >>= fun e => afterExpression c.position e) (c.extend more) := by
    rw [← hposition more]
    rfl
  refine .of_eq hbehind ?_
  refine .bind .expression hdepth (fun more => prospect_of_depth _ c more hdepth)
    (mendable_expression hdepth) (fun _ => ⟨[], fun rest hends => hends.stops topLevel, ?_⟩)
    fun e c' hread hnil' => ?_
  · intro e d rest hd _ hends
    have hrest : d.tokens = rest := hd
    have hclosed := afterExpression_of_endsBlock c.position e (hrest ▸ hends)
    obtain ⟨⟨s, atEnd⟩, d', hread, hpure⟩ := exists_of_bind_ok hclosed
    cases hpure
    exact ⟨_, d, hread, hrest⟩
  · have hdepth' := Orderly.expression.balanced.depth_eq hdepth hread
    exact mendable_afterExpression _ e (by omega) hnil'

variable {floor : Nat}

/-- What the reader of blocks can do, so that statements can rely on it. -/
structure BlockMends (levels floor : Nat) : Prop where
  lt_levels : maxDepth < floor + levels
  mendable : ∀ c : Cursor, floor ≤ c.depth → c.depth < maxDepth →
    Mendable (StuckBlock c) (fun _ => True) (blockWithin levels) c

theorem prospect_blockWithin (hlevels : maxDepth < floor + levels) (hfloor : floor ≤ c.depth)
    (hdepth : c.depth ≤ maxDepth) (more : List PlacedToken) :
    Prospect True (¬ True) (blockWithin levels) (blockWithin levels) c more :=
  ((blockProspect_blockWithin levels levels floor hlevels hlevels).prospect c (.of_depth hdepth)
    hfloor).mono id False.elim

/-- A condition and what stands behind it, which begins with a block. -/
theorem mendable_condition {stuck : Prop} {f : Expr → Parser α} (hdepth : c.depth ≤ maxDepth)
    (hcloses : ∀ (condition : Expr) (d : Cursor) (rest : List Token), c.depth < maxDepth →
      d.tokens = .delimiter .openBrace :: .delimiter .closeBrace :: rest → d.depth = c.depth →
      EndsBlock rest → Succeeds (f condition) d rest)
    (hf : ∀ (condition : Expr) (c' : Cursor), expression c = .ok (condition, c') →
      c'.depth = c.depth → c.depth < maxDepth → Mendable stuck EndsBlock (f condition) c') :
    Mendable stuck EndsBlock (expression >>= f) c := by
  have hroom (hne : ∀ position : Position, expression c ≠ .error (.tooDeep position)) :
      c.depth < maxDepth := depth_lt_of_ne_tooDeep (by omega) hne
  refine .bind .expression hdepth (fun more => prospect_of_depth _ c more hdepth)
    ((mendable_expression hdepth).mono False.elim fun _ => id)
    (fun hne => ⟨[.delimiter .openBrace, .delimiter .closeBrace], ?_⟩) fun condition c' hread _ => ?_
  · exact ⟨fun rest _ => .delimiter _ _ (by decide) (by decide), fun condition d rest hd hdown hends =>
      hcloses condition d rest (hroom hne) hd hdown hends⟩
  · exact hf condition c' hread (Orderly.expression.balanced.depth_eq hdepth hread)
      (hroom (by rw [hread]; exact nofun))

theorem mendable_ifFrom (hblock : BlockMends levels floor) (rounds : Nat) (hfloor : floor ≤ c.depth)
    (hdepth : c.depth ≤ maxDepth) :
    Mendable (StuckIf c) EndsBlock (ifFrom (blockWithin levels) rounds) c := by
  have hlevels := hblock.lt_levels
  induction rounds generalizing c with
  | zero => exact .tooDeep
  | succ rounds ih =>
      refine mendable_condition hdepth ?_ ?_
      · intro condition d rest hlt hd hdown hends
        refine (succeeds_emptyBlock (by omega) (by omega) hd).bind (.blockWithin levels) (by omega)
          fun body e he _ => ?_
        exact ⟨_, e, afterBody_of_noElse _ rounds condition body (he ▸ hends.noElse), he⟩
      intro condition c₁ hcondition hdepth₁ hlt
      refine .bind (.blockWithin levels) (by omega)
        (fun more => prospect_blockWithin hlevels (by omega) (by omega) more)
        ((hblock.mendable c₁ (by omega) (by omega)).mono (·.body hcondition) fun _ => id)
        (fun _ => ⟨[], fun _ _ => trivial, ?_⟩) fun body c₂ hbody hnil₂ => ?_
      · intro body d rest hd _ hends
        have hrest : d.tokens = rest := hd
        exact ⟨_, d, afterBody_of_noElse _ rounds condition body (hrest ▸ hends.noElse), hrest⟩
      have hdepth₂ := (Orderly.blockWithin levels).balanced.depth_eq (by omega) hbody
      have hbody' := block_of_blockWithin (by omega) (by omega) hbody
      change Mendable _ _ (afterBody (blockWithin levels) rounds condition body) c₂
      obtain ⟨⟨token, position⟩, rest, hcons⟩ := Cursor.exists_rest hnil₂
      refine .peek hcons ?_
      cases token with
      | keyword k =>
          cases k with
          | elseWord =>
              refine .discard_next hnil₂ fun c₃ hnext => ?_
              have helse := Took.of_discard_next hcons hnext
              have hdepth₃ := Orderly.discard_next.balanced.depth_eq (by omega) hnext
              by_cases hnil₃ : c₃.rest = []
              · refine fun _ => .inr (.of_nil [.delimiter .openBrace, .delimiter .closeBrace] hnil₃ ?_)
                intro d rest hd hdown _
                refine .of_read (peek_of_tokens hd) ?_
                exact (succeeds_emptyBlock (by omega) (by omega) hd).bind (.blockWithin levels)
                  (by omega) fun _ e he _ => ⟨_, e, rfl, he⟩
              have halternative : Mendable (StuckIf c) EndsBlock
                  (do return Stmt.ifElse condition body (← blockWithin levels)) c₃ :=
                ((hblock.mendable c₃ (by omega) (by omega)).mono
                  (·.alternative hcondition hbody' helse) fun _ _ => trivial).map
              obtain ⟨⟨token', position'⟩, rest', hcons'⟩ := Cursor.exists_rest hnil₃
              refine .peek hcons' ?_
              cases token' with
              | keyword k' =>
                  cases k' with
                  | ifWord =>
                      refine .discard_next hnil₃ fun c₄ hnext' => ?_
                      have hif := Took.of_discard_next hcons' hnext'
                      have hdepth₄ := Orderly.discard_next.balanced.depth_eq (by omega) hnext'
                      have horderly : Orderly (ifFrom (blockWithin levels) rounds) :=
                        ⟨(bounded_ifFrom (deeper_blockWithin levels) rounds).balanced,
                          (takes_ifFrom (takes_blockWithin levels) rounds).mono (Nat.zero_le 1)⟩
                      refine (Mendable.nested horderly (fun hlt more => ?_) fun hlt => ?_).map
                      · exact (prospect_ifFrom (blockProspect_blockWithin levels levels floor hlevels
                          hlevels) rounds (.of_depth (c := { c₄ with depth := c₄.depth + 1 }) hlt)
                          (Nat.le_succ_of_le (by omega))).mono id
                          fun helse hends => helse hends.noElse
                      · exact (ih (c := { c₄ with depth := c₄.depth + 1 })
                          (Nat.le_succ_of_le (by omega)) hlt).mono (·.chained hcondition hbody' helse hif)
                          fun _ => id
                  | _ => exact halternative
              | _ => exact halternative
          | _ => exact .pure
      | _ => exact .pure

theorem mendable_statement (hblock : BlockMends levels floor) (hfloor : floor ≤ c.depth)
    (hdepth : c.depth ≤ maxDepth) (hnil : c.rest ≠ []) :
    Mendable (Stuck c) EndsBlock (statement (blockWithin levels)) c := by
  have hlevels := hblock.lt_levels
  by_cases hheader : LetHeader c.tokens
  · intro _
    by_cases hlt : c.depth < maxDepth
    · exact .inr (completes_letHeader (by omega) hlt hheader)
    · exact .inl (.here hheader (by omega))
  have hexpression : Mendable (Stuck c) EndsBlock expressionStatement c :=
    (mendable_expressionStatement hdepth hnil).mono False.elim fun _ => id
  obtain ⟨⟨token, position⟩, rest, hcons⟩ := Cursor.exists_rest hnil
  refine .peek hcons ?_
  cases token with
  | keyword k =>
      cases k with
      | letWord =>
          refine .discard_next hnil fun c₁ hnext => ?_
          have hlet := Took.of_discard_next hcons hnext
          have hdepth₁ := Orderly.discard_next.balanced.depth_eq hdepth hnext
          have hnil₁ : c₁.rest ≠ [] := fun hend => hheader <| .inl <| by
            rw [hlet.tokens, Cursor.tokens_of_rest_nil hend]
          refine .seq (fun _ => .name) (name_ne_unexpectedEnd hnil₁) fun name c₂ hname => ?_
          have hdepth₂ := Orderly.name.balanced.depth_eq (by omega) hname
          have hnil₂ : c₂.rest ≠ [] := fun hend => hheader <| .inr ⟨name, by
            rw [hlet.tokens, (Took.of_name hname).tokens, Cursor.tokens_of_rest_nil hend]⟩
          refine .next hnil₂ fun t c₃ hnext' => ?_
          have hdepth₃ := Orderly.next.balanced.depth_eq (by omega) hnext'
          obtain ⟨token, position⟩ := t
          cases token with
          | operator o =>
              cases o with
              | assign =>
                  exact (mendable_value _ (by omega)).mono False.elim fun _ => id
              | _ => exact .throw nofun
          | _ => exact .throw nofun
      | ifWord =>
          refine .discard_next hnil fun c₁ hnext => ?_
          have hif := Took.of_discard_next hcons hnext
          have hdepth₁ := Orderly.discard_next.balanced.depth_eq hdepth hnext
          exact ((mendable_ifFrom hblock maxRounds (by omega) (by omega)).mono (·.stuck hif)
            fun _ => id).map
      | whileWord =>
          refine .discard_next hnil fun c₁ hnext => ?_
          have hwhile := Took.of_discard_next hcons hnext
          have hdepth₁ := Orderly.discard_next.balanced.depth_eq hdepth hnext
          refine mendable_condition (by omega) ?_ ?_
          · intro condition d rest hlt hd hdown _
            exact (succeeds_emptyBlock (by omega) (by omega) hd).bind (.blockWithin levels) (by omega)
              fun _ e he _ => ⟨_, e, rfl, he⟩
          · intro condition c₂ hcondition hdepth₂ _
            exact ((hblock.mendable c₂ (by omega) (by omega)).mono (·.loop hwhile hcondition)
              fun _ _ => trivial).map
      | _ => exact hexpression
  | delimiter d =>
      cases d with
      | semicolon => exact .discard_next hnil fun _ _ => .pure
      | _ => exact hexpression
  | _ => exact hexpression

end Statements

section Blocks

variable {levels floor : Nat} {c : Cursor} {block : Parser (List Stmt)}

/-- The statements of a block, with as many rounds as there are tokens. -/
def statementsBehind (block : Parser (List Stmt)) (found : List Stmt) : Parser (List Stmt) := do
  blockFrom block found (← remaining)

/-- Rounds beyond the number of tokens make no difference. -/
theorem blockFrom_congr_rounds (hstatement : Takes 1 (statement block)) (found : List Stmt)
    (rounds rounds' : List PlacedToken) (h : c.rest.length ≤ rounds.length)
    (h' : c.rest.length ≤ rounds'.length) :
    blockFrom block found rounds c = blockFrom block found rounds' c := by
  by_cases hnil : c.rest = []
  · rw [blockFrom_of_nil hnil, blockFrom_of_nil hnil]
  have hpos : 0 < c.rest.length := List.length_pos_iff.mpr hnil
  induction rounds generalizing found rounds' c with
  | nil => exact absurd h (Nat.not_le.mpr hpos)
  | cons _ rounds ih =>
      cases rounds' with
      | nil => exact absurd h' (Nat.not_le.mpr hpos)
      | cons _ rounds' =>
          rw [List.length_cons] at h h'
          rw [blockFrom, blockFrom]
          refine bind_congr fun closed c₁ heat => ?_
          have hle₁ := Takes.eat.length_le heat
          split
          · rfl
          refine bind_congr fun t c₂ hpeek => ?_
          have hle₂ := Takes.peek.length_le hpeek
          split
          · rfl
          refine bind_congr fun s c₃ hread => ?_
          have hle₃ := hstatement.length_le hread
          obtain ⟨s, atEnd⟩ := s
          dsimp only
          by_cases hnil₃ : c₃.rest = []
          · rw [blockFrom_of_nil hnil₃, blockFrom_of_nil hnil₃]
          · exact ih _ rounds' (by omega) (by omega) hnil₃ (List.length_pos_iff.mpr hnil₃)

/-- One round of the statements of a block. -/
theorem statementsBehind_eq (hstatement : Takes 1 (statement block)) (found : List Stmt)
    (hnil : c.rest ≠ []) :
    statementsBehind block found c = (do
      if ← eat .closeBrace then return found.reverse
      let s ← plainStatement block
      statementsBehind block (s :: found)) c := by
  obtain ⟨t, rest, hcons⟩ := Cursor.exists_rest hnil
  have hrounds : statementsBehind block found c = blockFrom block found c.rest c := rfl
  have hlength : c.rest.length = rest.length + 1 := by rw [hcons, List.length_cons]
  rw [hrounds, hcons, blockFrom]
  cases hstarts : startsWith .closeBrace c.tokens with
  | true =>
      have heat := eat_of_startsWith hcons hstarts
      rw [bind_of_ok heat, bind_of_ok heat]
      rfl
  | false =>
      have heat := eat_apply hstarts
      rw [bind_of_ok heat, bind_of_ok heat]
      have hpeek : peek c = .ok (some t.token, c) := by
        rw [peek, hcons]
        rfl
      simp only [Bool.false_eq_true, if_false, plainStatement, bind_assoc, pure_bind]
      rw [bind_of_ok hpeek]
      refine bind_congr fun s c' hread => ?_
      have hle := hstatement.length_le hread
      exact blockFrom_congr_rounds hstatement _ rest c'.rest (by omega) (Nat.le_refl _)

theorem Orderly.plainStatement (levels : Nat) :
    Orderly (Parser.plainStatement (Parser.blockWithin levels)) := by
  have hstatement := Orderly.statementWithin levels
  refine ⟨fun d hd => (hstatement.balanced d hd).bind fun s _ => ?_,
    hstatement.takes.before fun _ => .pure⟩
  exact .pure trivial

theorem Orderly.statementsBehind (levels : Nat) :
    Orderly (Parser.statementsBehind (Parser.blockWithin levels) []) := by
  refine ⟨fun d hd => ?_, Takes.remaining.after fun rounds =>
    takes_blockFrom (takes_blockWithin levels) [] rounds⟩
  refine Ensures.remaining.bind fun rounds _ => ?_
  exact (ensures_blockFrom (deeper_blockWithin levels) (Nat.add_sub_of_le hd) [] rounds
    fun s hs => absurd hs List.not_mem_nil).mono fun _ _ => trivial

/-- Statements that the tokens end in are completed, and the block is closed. -/
theorem mendable_statementsBehind (hblock : BlockMends levels floor) (found : List Stmt)
    (hfloor : floor ≤ c.depth) (hdepth : c.depth ≤ maxDepth) :
    Mendable (Stuck c) (fun _ => True) (statementsBehind (blockWithin levels) found) c := by
  have hlevels := hblock.lt_levels
  have htakes := takes_statement (takes_blockWithin levels)
  have hclosed (found : List Stmt) (d : Cursor) (rest : List Token)
      (hd : d.tokens = .delimiter .closeBrace :: rest) :
      Succeeds (statementsBehind (blockWithin levels) found) d rest := by
    have hnil : d.rest ≠ [] := by
      intro hnil
      rw [Cursor.tokens_of_rest_nil hnil] at hd
      cases hd
    obtain ⟨a, e, hread, hrest⟩ := succeeds_eat_close hd (f := fun closed => do
      if closed then return found.reverse
      let s ← plainStatement (blockWithin levels)
      statementsBehind (blockWithin levels) (s :: found)) rfl
    exact ⟨a, e, (statementsBehind_eq htakes found hnil).trans hread, hrest⟩
  induction hlength : c.rest.length using Nat.strong_induction_on generalizing found c with
  | h length ih =>
      by_cases hnil : c.rest = []
      · exact fun _ => .inr (.of_nil [.delimiter .closeBrace] hnil fun d rest hd _ _ =>
          hclosed found d rest hd)
      refine .of_eq (fun more => statementsBehind_eq htakes found (by simp [hnil])) ?_
      refine .eat hnil (fun c' _ => .pure) fun _ => ?_
      have hprospect (more : List PlacedToken) :
          Prospect True (¬ EndsBlock (more.map (·.token))) (plainStatement (blockWithin levels))
            (plainStatement (blockWithin levels)) c more :=
        prospect_plainStatement (blockProspect_blockWithin levels levels floor hlevels hlevels)
          (.of_depth hdepth) hfloor hnil
      refine .bind (.plainStatement levels) hdepth hprospect
        (mendable_statement hblock hfloor hdepth hnil).map
        (fun _ => ⟨[.delimiter .closeBrace], fun rest _ => .inr ⟨rest, rfl⟩,
          fun s d rest hd _ _ => hclosed (s :: found) d rest hd⟩) fun s c' hread hnil' => ?_
      have hdepth' := (Orderly.plainStatement levels).balanced.depth_eq hdepth hread
      obtain ⟨atEnd, hstatement⟩ := plainStatement_eq_ok.mp hread
      have hless := htakes.length_le hstatement
      have hwhole := statement_of_within (by omega) hdepth hstatement hnil'
      exact (ih c'.rest.length (by omega) (s :: found) (by omega) (by omega) rfl).mono
        (·.behind hwhole) fun _ => id

theorem mendable_blockWithin (hlevels : maxDepth < floor + levels) (hfloor : floor ≤ c.depth)
    (hdepth : c.depth < maxDepth) :
    Mendable (StuckBlock c) (fun _ => True) (blockWithin levels) c := by
  induction levels generalizing floor c with
  | zero => omega
  | succ levels ih =>
      by_cases hnil : c.rest = []
      · exact fun _ => .inr (.of_nil [.delimiter .openBrace, .delimiter .closeBrace] hnil
          fun d rest hd hdown _ => succeeds_emptyBlock (by omega) (by omega) hd)
      rw [blockWithin]
      refine .expect hnil fun c₁ hexpect => ?_
      have hopen := Took.of_expect hexpect
      have hdepth₁ := Orderly.expect.balanced.depth_eq (Nat.le_of_lt hdepth) hexpect
      have hblock : BlockMends levels (floor + 1) :=
        ⟨by omega, fun d hd hd' => @ih (floor + 1) d (by omega) hd hd'⟩
      refine .nested (.statementsBehind levels) (fun hlt more => ?_) fun hlt => ?_
      · have hinside : BlockProspect True (blockWithin levels) (blockWithin levels) (floor + 1) more :=
          blockProspect_blockWithin levels levels (floor + 1) hblock.lt_levels hblock.lt_levels
        have hprospect := prospect_blockFrom hinside (.statementWithin levels) [] c₁.rest
          (.of_depth (c := { c₁ with depth := c₁.depth + 1 }) hlt) (Nat.succ_le_succ (by omega))
        exact (Prospect.remaining hprospect).mono id False.elim
      · exact (mendable_statementsBehind (c := { c₁ with depth := c₁.depth + 1 }) hblock []
          (Nat.succ_le_succ (by omega)) hlt).mono (fun hstuck => ⟨c₁, hopen, hstuck⟩) fun _ => id

end Blocks

section Programs

variable {c : Cursor}

/-- The statements of a program, with as many rounds as there are tokens. -/
def programBehind (found : List Stmt) : Parser Program := do
  programFrom found (← remaining)

theorem programBehind_of_nil (found : List Stmt) (h : c.rest = []) :
    programBehind found c = .ok ({ statements := found.reverse, result := none }, c) :=
  programFrom_of_nil h found c.rest

theorem programFrom_congr_rounds (found : List Stmt) (rounds rounds' : List PlacedToken)
    (h : c.rest.length ≤ rounds.length) (h' : c.rest.length ≤ rounds'.length) :
    programFrom found rounds c = programFrom found rounds' c := by
  by_cases hnil : c.rest = []
  · rw [programFrom_of_nil hnil, programFrom_of_nil hnil]
  have hpos : 0 < c.rest.length := List.length_pos_iff.mpr hnil
  induction rounds generalizing found rounds' c with
  | nil => exact absurd h (Nat.not_le.mpr hpos)
  | cons _ rounds ih =>
      cases rounds' with
      | nil => exact absurd h' (Nat.not_le.mpr hpos)
      | cons _ rounds' =>
          rw [List.length_cons] at h h'
          rw [programFrom, programFrom]
          refine bind_congr fun t c₁ hpeek => ?_
          have hle₁ := Takes.peek.length_le hpeek
          split
          · rfl
          refine bind_congr fun s c₂ hread => ?_
          have hle₂ := (takes_statement (takes_blockWithin (maxDepth + 1))).length_le hread
          split
          · rfl
          by_cases hnil₂ : c₂.rest = []
          · rw [programFrom_of_nil hnil₂, programFrom_of_nil hnil₂]
          · exact ih _ rounds' (by omega) (by omega) hnil₂ (List.length_pos_iff.mpr hnil₂)

/-- One round of the statements of a program. -/
theorem programBehind_eq (found : List Stmt) (hnil : c.rest ≠ []) :
    programBehind found c = (do
      match ← statement Parser.block with
      | (.evaluate e, true) => return { statements := found.reverse, result := some e }
      | (s, _) => programBehind (s :: found) : Parser Program) c := by
  obtain ⟨t, rest, hcons⟩ := Cursor.exists_rest hnil
  have hrounds : programBehind found c = programFrom found c.rest c := rfl
  have hlength : c.rest.length = rest.length + 1 := by rw [hcons, List.length_cons]
  have hpeek : peek c = .ok (some t.token, c) := by
    rw [peek, hcons]
    rfl
  rw [hrounds, hcons, programFrom, bind_of_ok hpeek]
  refine bind_congr fun s c' hread => ?_
  have hle := (takes_statement (takes_blockWithin (maxDepth + 1))).length_le hread
  obtain ⟨s, atEnd⟩ := s
  have hrest := programFrom_congr_rounds (s :: found) rest c'.rest (by omega) (Nat.le_refl _)
  cases s <;> cases atEnd <;> first | rfl | exact hrest

theorem blockMends_block : BlockMends (maxDepth + 1) 0 :=
  ⟨by omega, fun _ hfloor hdepth => mendable_blockWithin (by omega) hfloor hdepth⟩

/-- Programs that the tokens end in are completed. -/
theorem mendable_programBehind (found : List Stmt) (hdepth : c.depth ≤ maxDepth) :
    Mendable (Stuck c) (· = []) (programBehind found) c := by
  induction hlength : c.rest.length using Nat.strong_induction_on generalizing found c with
  | h length ih =>
      by_cases hnil : c.rest = []
      · exact .of_ne (by rw [programBehind_of_nil found hnil]; exact nofun)
      refine .of_eq (fun more => programBehind_eq found (by simp [hnil])) ?_
      have hprospect (more : List PlacedToken) : Prospect True (¬ more.map (·.token) = [])
          (statement Parser.block) (statement Parser.block) c more := by
        by_cases hmore : more = []
        · rw [hmore]
          exact .refl_nil
        · refine (prospect_statement (blockProspect_block True more) (.of_depth hdepth)
            (Nat.zero_le _) hnil).mono id fun _ => ?_
          rwa [List.map_eq_nil_iff]
      have hstatement : Mendable (Stuck c) (· = []) (statement Parser.block) c :=
        (mendable_statement blockMends_block (Nat.zero_le _) hdepth hnil).mono id fun _ => .inl
      refine .bind (.statementWithin (maxDepth + 1)) hdepth hprospect hstatement
        (fun _ => ⟨[], fun rest hrest => hrest, ?_⟩) fun s c' hread hnil' => ?_
      · intro s d rest hd _ hrest
        have hend : d.rest = [] := by
          rw [hrest] at hd
          exact List.map_eq_nil_iff.mp hd
        have hdone : d.tokens = rest := hd
        split
        · exact ⟨_, d, rfl, hdone⟩
        · exact ⟨_, d, programBehind_of_nil _ hend, hdone⟩
      · have hdepth' := (Orderly.statementWithin (maxDepth + 1)).balanced.depth_eq hdepth hread
        have hless := (takes_statement (takes_blockWithin (maxDepth + 1))).length_le hread
        split
        · exact .pure
        · exact (ih c'.rest.length (by omega) _ (by omega) rfl).mono (·.behind hread) fun _ => id

end Programs

end Parser

end ReplDaemon.Script
