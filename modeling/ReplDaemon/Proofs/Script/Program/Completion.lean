import ReplDaemon.Proofs.Script.Program.CompletedPrograms

/-!
# Incomplete programs can be completed

Tokens that end too early for a program can be completed by more of them, unless they end in the header
of a declaration under as many open blocks and chained `if`s as there are levels. Nothing completes
those, since the value of the declaration is too deep whatever it is.
-/

namespace ReplDaemon.Script

namespace Parser

section Fails

variable {α β : Type} {bad : ParseError → Prop} {p : Parser α} {c d : Cursor}

/-- The reader fails with one of certain errors. -/
def FailsWith (bad : ParseError → Prop) (p : Parser α) (c : Cursor) : Prop :=
  ∃ e : ParseError, p c = .error e ∧ bad e

theorem FailsWith.bind {f : α → Parser β} (h : FailsWith bad p c) : FailsWith bad (p >>= f) c := by
  obtain ⟨e, herror, hbad⟩ := h
  exact ⟨e, bind_of_error herror, hbad⟩

theorem FailsWith.after {f : α → Parser β} {a : α} (hread : p c = .ok (a, d))
    (h : FailsWith bad (f a) d) : FailsWith bad (p >>= f) c := by
  obtain ⟨e, herror, hbad⟩ := h
  exact ⟨e, (bind_of_ok hread).trans herror, hbad⟩

theorem FailsWith.of_eq {q : Parser α} (heq : p c = q d) (h : FailsWith bad q d) :
    FailsWith bad p c := by
  obtain ⟨e, herror, hbad⟩ := h
  exact ⟨e, heq.trans herror, hbad⟩

end Fails

section Dooms

variable {more : List PlacedToken} {bad : ParseError → Prop} {c c₁ d : Cursor}

/-- With some tokens added, neither a block nor a program can be read from here to its end. -/
structure Dooms (more : List PlacedToken) (bad : ParseError → Prop) (c : Cursor) : Prop where
  rest_ne_nil : c.rest ≠ []
  block : ∀ (levels : Nat) (found : List Stmt), maxDepth < c.depth + levels →
    FailsWith bad (statementsBehind (blockWithin levels) found) (c.extend more)
  program : ∀ found : List Stmt, FailsWith bad (programBehind found) (c.extend more)

theorem takes_statement_block : Takes 1 (statement Parser.block) :=
  takes_statement (takes_blockWithin (maxDepth + 1))

/-- No expression starts with the end of a block or with an `else`. -/
theorem expression_of_stray {token : Token} {rest : List Token}
    (hstray : token = .delimiter .closeBrace ∨ token = .keyword .elseWord)
    (h : c.tokens = token :: rest) : ∃ e : ParseError, expression c = .error e := by
  by_cases hlt : c.depth < maxDepth
  · let d : Cursor := { c with depth := c.depth + 1 }
    have htokens : d.tokens = token :: rest := h
    have hdescend : descend c = .ok (⟨⟩, d) := if_pos hlt
    have hunary : ∃ e : ParseError, unary (postfixed (expressionWithin maxDepth)) d = .error e := by
      obtain ⟨⟨found, position⟩, d', rfl, hnext, _⟩ := exists_next htokens
      have hprimary : primary (expressionWithin maxDepth) d =
          .error (.unexpected .expression found position) := by
        rcases hstray with rfl | rfl <;> exact bind_of_ok hnext
      have hnone : unaryOp? d = .ok (none, d) := by
        rcases hstray with rfl | rfl <;> exact bind_of_ok (peek_of_tokens htokens)
      exact ⟨_, (bind_of_ok hnone).trans (bind_of_error hprimary)⟩
    obtain ⟨e, herror⟩ := hunary
    exact ⟨_, (bind_of_ok hdescend).trans (bind_of_error (chain_of_error herror BinaryOp.loosest))⟩
  · exact ⟨_, bind_of_error (if_neg hlt)⟩

theorem statement_of_stray {token : Token} {rest : List Token}
    (hstray : token = .delimiter .closeBrace ∨ token = .keyword .elseWord)
    (h : c.tokens = token :: rest) : ∃ e : ParseError, statement Parser.block c = .error e := by
  obtain ⟨e, herror⟩ := expression_of_stray hstray h
  have hget : (get : Parser Cursor) c = .ok (c, c) := rfl
  refine ⟨e, ?_⟩
  rw [statement, bind_of_ok (peek_of_tokens h)]
  rcases hstray with rfl | rfl <;> exact (bind_of_ok hget).trans (bind_of_error herror)

/-- The end of a block is no statement. -/
theorem startsWith_of_statement {x : (Stmt × Bool) × Cursor}
    (h : statement Parser.block c = .ok x) : startsWith .closeBrace c.tokens = false := by
  by_contra hstarts
  obtain ⟨t, rest, hcons⟩ := Cursor.exists_rest (takes_statement_block.ne_nil h)
  have htoken := token_of_startsWith hcons (Bool.not_eq_false _ ▸ hstarts)
  have htokens : c.tokens = .delimiter .closeBrace :: rest.map (·.token) := by
    rw [Cursor.tokens, hcons, List.map_cons, htoken]
  obtain ⟨e, herror⟩ := statement_of_stray (.inl rfl) htokens
  cases h.symm.trans herror

/-- No statement begins with an `else`. -/
theorem noElse_of_statement {x : (Stmt × Bool) × Cursor} (h : statement Parser.block c = .ok x) :
    NoElse c.tokens := by
  intro helse
  obtain ⟨rest, htokens⟩ := List.head?_eq_some_iff.mp helse
  obtain ⟨e, herror⟩ := statement_of_stray (.inr rfl) htokens
  cases h.symm.trans herror

theorem Dooms.of_statement (hrest : c.rest ≠ [])
    (hbrace : startsWith .closeBrace c.tokens = false)
    (h : ∀ levels : Nat, maxDepth < c.depth + levels →
      FailsWith bad (statement (blockWithin levels)) (c.extend more)) : Dooms more bad c := by
  have hextend := Cursor.rest_extend_ne_nil hrest more
  have heat := eat_apply ((Cursor.startsWith_extend hrest .closeBrace more).trans hbrace)
  refine ⟨hrest, fun levels found hlevels => ?_, fun found => ?_⟩
  · have htakes := takes_statement (takes_blockWithin levels)
    have hplain : FailsWith bad (plainStatement (blockWithin levels)) (c.extend more) :=
      (h levels hlevels).bind
    exact .of_eq (statementsBehind_eq htakes found hextend) (.after heat hplain.bind)
  · have hstatement : FailsWith bad (statement Parser.block) (c.extend more) :=
      h (maxDepth + 1) (by omega)
    exact .of_eq (programBehind_eq found hextend) hstatement.bind

theorem Dooms.behind {s : Stmt × Bool} (hdepth : c.depth ≤ maxDepth)
    (hstatement : statement Parser.block c = .ok (s, c₁)) (h : Dooms more bad c₁) :
    Dooms more bad c := by
  have hrest : c.rest ≠ [] := takes_statement_block.ne_nil hstatement
  have hsame := (Orderly.statementWithin _).balanced.depth_eq hdepth hstatement
  have hread (levels : Nat) (hlevels : maxDepth < c.depth + levels) :
      statement (blockWithin levels) (c.extend more) = .ok (s, c₁.extend more) := by
    have hblock : BlockProspect True Parser.block (blockWithin levels) c.depth more :=
      blockProspect_blockWithin (maxDepth + 1) levels c.depth (by omega) hlevels
    exact (prospect_statement hblock (.of_depth hdepth) (Nat.le_refl _) hrest).read_of_ok hstatement
      (.inl h.rest_ne_nil)
  obtain ⟨s, atEnd⟩ := s
  obtain rfl : atEnd = false := by
    cases atEnd with
    | false => rfl
    | true => exact absurd (Tells.statement _ c c₁ s hstatement) h.rest_ne_nil
  have hbrace := startsWith_of_statement hstatement
  have hextend := Cursor.rest_extend_ne_nil hrest more
  have heat := eat_apply ((Cursor.startsWith_extend hrest .closeBrace more).trans hbrace)
  refine ⟨hrest, fun levels found hlevels => ?_, fun found => ?_⟩
  · have htakes := takes_statement (takes_blockWithin levels)
    have hplain := plainStatement_eq_ok.mpr ⟨false, hread levels hlevels⟩
    exact .of_eq (statementsBehind_eq htakes found hextend)
      (.after heat (.after hplain (h.block levels (s :: found) (by omega))))
  · refine .of_eq (programBehind_eq found hextend) (.after (hread (maxDepth + 1) (by omega)) ?_)
    cases s <;> exact h.program _

theorem expression_extend {condition : Expr} (h : expression c = .ok (condition, c₁))
    (hrest : c₁.rest ≠ []) (more : List PlacedToken) :
    expression (c.extend more) = .ok (condition, c₁.extend more) := by
  have hready : Ready True c := .of_depth (Nat.le_of_lt (depth_lt_of_expression h))
  exact (prospect_expression hready).read_of_ok h (.inl hrest)

theorem block_extend {body : List Stmt} (levels : Nat) (hlevels : maxDepth < c.depth + levels)
    (hdepth : c.depth ≤ maxDepth) (h : Parser.block c = .ok (body, c₁)) (more : List PlacedToken) :
    blockWithin levels (c.extend more) = .ok (body, c₁.extend more) := by
  have hblock : BlockProspect True Parser.block (blockWithin levels) c.depth more :=
    blockProspect_blockWithin (maxDepth + 1) levels c.depth (by omega) hlevels
  exact (hblock.prospect c (.of_depth hdepth) (Nat.le_refl _)).read_of_ok h (.inr id)

/-- A block that leads to something doomed is not read. -/
theorem Dooms.failsWith_block (levels : Nat) (hlevels : maxDepth < c.depth + levels)
    (hopen : Took (.delimiter .openBrace) c d) (hdepth : c.depth < maxDepth)
    (h : Dooms more bad { d with depth := d.depth + 1 }) :
    FailsWith bad (blockWithin levels) (c.extend more) := by
  have hsame := hopen.depth_eq
  obtain ⟨levels, rfl⟩ : ∃ n, levels = n + 1 := ⟨levels - 1, by omega⟩
  have hlt : (d.extend more).depth < maxDepth := by
    rw [Cursor.depth_extend]
    omega
  have hdescend : descend (d.extend more) =
      .ok (⟨⟩, ({ d with depth := d.depth + 1 } : Cursor).extend more) := if_pos hlt
  have hstatements := h.block levels [] (by simp only; omega)
  exact .after (hopen.extend more).expect (.after hdescend (FailsWith.bind hstatements))

/-- An `if` that leads to something doomed is not read. -/
theorem EntersIf.failsWith_ifFrom {levels n : Nat} (hlevels : maxDepth < c.depth + levels)
    (henters : EntersIf n c d) (h : Dooms more bad d) {rounds : Nat} (hrounds : n ≤ rounds) :
    FailsWith bad (ifFrom (blockWithin levels) rounds) (c.extend more) := by
  induction henters generalizing rounds with
  | body hcondition hopen =>
      obtain ⟨rounds, rfl⟩ : ∃ n, rounds = n + 1 := ⟨rounds - 1, by omega⟩
      have hlt := depth_lt_of_expression hcondition
      have hdepth₁ := depth_eq_of_expression hcondition
      have hbody := h.failsWith_block levels (by omega) hopen (by omega)
      exact .after (expression_extend hcondition hopen.rest_ne_nil more) hbody.bind
  | alternative hcondition hbody helse hopen =>
      obtain ⟨rounds, rfl⟩ : ∃ n, rounds = n + 1 := ⟨rounds - 1, by omega⟩
      have hlt := depth_lt_of_expression hcondition
      have hdepth₁ := depth_eq_of_expression hcondition
      have hrest₁ := (takes_blockWithin (maxDepth + 1)).ne_nil hbody
      have hdepth₂ := (Orderly.blockWithin _).balanced.depth_eq (by omega) hbody
      have hdepth₃ := helse.depth_eq
      have halternative := h.failsWith_block levels (by omega) hopen (by omega)
      have hfront := block_extend levels (by omega) (by omega) hbody more
      refine .after (expression_extend hcondition hrest₁ more) (.after hfront ?_)
      refine .after (helse.extend more).peek (.after (helse.extend more).discard_next ?_)
      exact .after (hopen.extend more).peek halternative.bind
  | @chained condition body n c c₁ c₂ c₃ c₄ d hcondition hbody helse hif _ ih =>
      obtain ⟨rounds, rfl⟩ : ∃ n, rounds = n + 1 := ⟨rounds - 1, by omega⟩
      have hlt := depth_lt_of_expression hcondition
      have hdepth₁ := depth_eq_of_expression hcondition
      have hrest₁ := (takes_blockWithin (maxDepth + 1)).ne_nil hbody
      have hdepth₂ := (Orderly.blockWithin _).balanced.depth_eq (by omega) hbody
      have hdepth₃ := helse.depth_eq
      have hdepth₄ := hif.depth_eq
      have hfront := block_extend levels (by omega) (by omega) hbody more
      have hlt₄ : (c₄.extend more).depth < maxDepth := by
        rw [Cursor.depth_extend]
        omega
      have hdescend : descend (c₄.extend more) =
          .ok (⟨⟩, ({ c₄ with depth := c₄.depth + 1 } : Cursor).extend more) := if_pos hlt₄
      have hinner : FailsWith bad (ifFrom (blockWithin levels) rounds) _ :=
        ih (by simp only; omega) h (by omega)
      have hnested : FailsWith bad (nested (ifFrom (blockWithin levels) rounds)) (c₄.extend more) :=
        .after hdescend hinner.bind
      refine .after (expression_extend hcondition hrest₁ more) (.after hfront ?_)
      refine .after (helse.extend more).peek (.after (helse.extend more).discard_next ?_)
      exact .after (hif.extend more).peek (.after (hif.extend more).discard_next hnested.bind)

theorem Reaches.dooms {n : Nat} (hreaches : Reaches n c d) (hdepth : c.depth ≤ maxDepth)
    (h : Dooms more bad d) : Dooms more bad c := by
  induction hreaches with
  | here c => exact h
  | behind hstatement _ ih =>
      have hsame := (Orderly.statementWithin _).balanced.depth_eq hdepth hstatement
      exact (ih (by omega) h).behind hdepth hstatement
  | branch hif henters _ ih =>
      have hdepth₁ := hif.depth_eq
      obtain ⟨hdepth₂, hle⟩ := henters.depth_eq
      have hinside := ih hle h
      refine .of_statement hif.rest_ne_nil (by rw [hif.tokens]; rfl) fun levels hlevels => ?_
      have hbranches : FailsWith bad (ifFrom (blockWithin levels) maxRounds) _ :=
        henters.failsWith_ifFrom (by omega) hinside (by rw [maxRounds]; omega)
      exact .after (hif.extend more).peek (.after (hif.extend more).discard_next hbranches.bind)
  | loop hwhile hcondition hopen _ ih =>
      have hdepth₁ := hwhile.depth_eq
      have hlt := depth_lt_of_expression hcondition
      have hdepth₂ := depth_eq_of_expression hcondition
      have hdepth₃ := hopen.depth_eq
      have hinside := ih (by simp only; omega) h
      refine .of_statement hwhile.rest_ne_nil (by rw [hwhile.tokens]; rfl) fun levels hlevels => ?_
      have hbody := hinside.failsWith_block levels (by omega) hopen (by omega)
      exact .after (hwhile.extend more).peek (.after (hwhile.extend more).discard_next
        (.after (expression_extend hcondition hopen.rest_ne_nil more) hbody.bind))

theorem LetHeader.exists_rest (h : LetHeader c.tokens) :
    ∃ rest : List Token, c.tokens = .keyword .letWord :: rest := by
  rcases h with hlet | ⟨name, hlet⟩
  · exact ⟨_, hlet⟩
  · exact ⟨_, hlet⟩

/-- In the header of a declaration, a token is missing. -/
theorem LetHeader.statement_eq (h : LetHeader c.tokens) (levels : Nat) :
    statement (blockWithin levels) c = .error .unexpectedEnd := by
  have next_eq {d : Cursor} (hd : d.tokens = []) : next d = .error .unexpectedEnd :=
    next_of_nil (List.map_eq_nil_iff.mp hd)
  rcases h with hlet | ⟨name, hlet⟩
  · obtain ⟨⟨_, position⟩, c₁, rfl, hnext, hc₁, _⟩ := exists_next hlet
    have hskip := Took.discard_next ⟨position, hnext⟩
    rw [statement, bind_of_ok (peek_of_tokens hlet)]
    exact (bind_of_ok hskip).trans (bind_of_error (bind_of_error (next_eq hc₁)))
  · obtain ⟨⟨_, position⟩, c₁, rfl, hnext, hc₁, _⟩ := exists_next hlet
    obtain ⟨⟨_, position₁⟩, c₂, rfl, hnext₁, hc₂, _⟩ := exists_next hc₁
    have hskip := Took.discard_next ⟨position, hnext⟩
    have hname : Parser.name c₁ = .ok (name, c₂) := bind_of_ok hnext₁
    rw [statement, bind_of_ok (peek_of_tokens hlet)]
    exact (bind_of_ok hskip).trans ((bind_of_ok hname).trans (bind_of_error (next_eq hc₂)))

/-- At the last level, the value of a declaration is too deep. -/
theorem LetHeader.failsWith_statement (h : LetHeader c.tokens) (hdepth : c.depth = maxDepth)
    (levels : Nat) :
    FailsWith (fun _ => True) (statement (blockWithin levels)) (c.extend more) := by
  obtain ⟨rest, htokens⟩ := h.exists_rest
  have hextend : (c.extend more).tokens = .keyword .letWord :: (rest ++ more.map (·.token)) := by
    rw [Cursor.tokens_extend, htokens, List.cons_append]
  cases hread : statement (blockWithin levels) (c.extend more) with
  | error e => exact ⟨e, hread, trivial⟩
  | ok x =>
      rw [statement, bind_of_ok (peek_of_tokens hextend)] at hread
      obtain ⟨_, c₁, hlet, hread⟩ := exists_of_bind_ok hread
      have hdepth₁ : c₁.depth = c.depth := (Ensures.next.discard _ c₁ _ rfl hlet).1
      obtain ⟨name, c₂, hname, hread⟩ := exists_of_bind_ok hread
      have hdepth₂ := (Ensures.name _ c₂ _ rfl hname).1
      obtain ⟨⟨token, position⟩, c₃, hnext, hread⟩ := exists_of_bind_ok hread
      have hdepth₃ := (Ensures.next _ c₃ _ rfl hnext).1
      cases token with
      | operator o =>
          cases o with
          | assign =>
              obtain ⟨value, c₄, hvalue, _⟩ := exists_of_bind_ok hread
              have hlt := depth_lt_of_expression hvalue
              omega
          | _ => cases hread
      | _ => cases hread

theorem LetHeader.dooms (h : LetHeader c.tokens)
    (hfails : ∀ levels : Nat, FailsWith bad (statement (blockWithin levels)) (c.extend more)) :
    Dooms more bad c := by
  obtain ⟨rest, htokens⟩ := h.exists_rest
  have hrest : c.rest ≠ [] := by
    intro hnil
    rw [Cursor.tokens_of_rest_nil hnil] at htokens
    cases htokens
  exact .of_statement hrest (by rw [htokens]; rfl) fun levels _ => hfails levels

end Dooms

end Parser

open ReplDaemon.Script.Parser

namespace Program

/-- The tokens end in the header of a declaration, under a number of open blocks and chained `if`s. -/
def EndsInLetHeader (n : Nat) (tokens : List PlacedToken) : Prop :=
  ∃ d : Cursor, Reaches n (.start tokens) d ∧ LetHeader d.tokens

theorem ofTokens_eq_ok {tokens : List PlacedToken} {p : Program} :
    ofTokens tokens = .ok p ↔ ∃ d : Cursor, programBehind [] (.start tokens) = .ok (p, d) := by
  have hrun : ofTokens tokens = (programBehind [] (.start tokens)).map Prod.fst := rfl
  rw [hrun]
  cases programBehind [] (.start tokens) with
  | error e => exact ⟨nofun, nofun⟩
  | ok x =>
      constructor
      · intro h
        cases h
        exact ⟨x.2, rfl⟩
      · rintro ⟨d, h⟩
        cases h
        rfl

/-- In the header of a declaration, the tokens end too early, at the last level as elsewhere. -/
theorem EndsInLetHeader.ofTokens_eq {n : Nat} {tokens : List PlacedToken}
    (h : EndsInLetHeader n tokens) : ofTokens tokens = .error .unexpectedEnd := by
  obtain ⟨d, hreaches, hheader⟩ := h
  have hdooms : Dooms [] (· = .unexpectedEnd) d := hheader.dooms fun levels =>
    ⟨_, by rw [Cursor.extend_nil, hheader.statement_eq levels], rfl⟩
  obtain ⟨_, herror, rfl⟩ := (hreaches.dooms (Nat.zero_le _) hdooms).program []
  have hrun : ofTokens tokens = (programBehind [] (.start tokens)).map Prod.fst := rfl
  rw [Cursor.extend_nil] at herror
  rw [hrun, herror]
  rfl

/-- At the last level, nothing completes it. -/
theorem EndsInLetHeader.ofTokens_append_ne {tokens : List PlacedToken}
    (h : EndsInLetHeader maxDepth tokens) (more : List PlacedToken) (p : Program) :
    ofTokens (tokens ++ more) ≠ .ok p := by
  intro hread
  obtain ⟨d, hreaches, hheader⟩ := h
  have hdepth : d.depth = 0 + maxDepth := hreaches.depth_eq (Nat.zero_le _)
  have hdooms : Dooms more (fun _ => True) d :=
    hheader.dooms (hheader.failsWith_statement (hdepth.trans (Nat.zero_add _)))
  obtain ⟨e, herror, _⟩ := (hreaches.dooms (Nat.zero_le _) hdooms).program []
  obtain ⟨d', hbehind⟩ := ofTokens_eq_ok.mp hread
  cases herror.symm.trans hbehind

/-- Tokens that end too early for a program can be completed, except when they end in the header of a
declaration that stands under as many open blocks and chained `if`s as there are levels. -/
theorem ofTokens_completable_iff (tokens : List PlacedToken)
    (h : ofTokens tokens = .error .unexpectedEnd) :
    (∃ (more : List PlacedToken) (p : Program), ofTokens (tokens ++ more) = .ok p) ↔
      ¬ EndsInLetHeader maxDepth tokens := by
  have hend : programBehind [] (.start tokens) = .error .unexpectedEnd := programFrom_of_error h
  constructor
  · rintro ⟨more, p, hread⟩ hheader
    exact hheader.ofTokens_append_ne more p hread
  · intro hheader
    rcases mendable_programBehind [] (Nat.zero_le _) hend with ⟨n, d, hreaches, hlet, hdeep⟩ | hcompletes
    · have hdepth : d.depth = 0 + n := hreaches.depth_eq (Nat.zero_le _)
      obtain rfl : n = maxDepth := by omega
      exact absurd ⟨d, hreaches, hlet⟩ hheader
    · obtain ⟨closing, hclosing⟩ := hcompletes
      obtain ⟨p, d, hread, _⟩ := hclosing [] rfl
      rw [List.append_nil] at hread
      exact ⟨closing, p, ofTokens_eq_ok.mpr ⟨d, hread⟩⟩

/-- Loops that are open, one in the other. -/
def openLoops : Nat → List Token
  | 0 => []
  | n + 1 => .keyword .whileWord :: nullToken :: .delimiter .openBrace :: openLoops n

theorem exists_reaches_openLoops (n : Nat) {c : Cursor} {rest : List Token}
    (hdepth : c.depth + n ≤ maxDepth) (h : c.tokens = openLoops n ++ rest) :
    ∃ d : Cursor, Reaches n c d ∧ d.tokens = rest := by
  induction n generalizing c with
  | zero => exact ⟨c, .here c, h⟩
  | succ n ih =>
      obtain ⟨⟨_, position₁⟩, c₁, rfl, hwhile, hc₁, hdepth₁⟩ := exists_next h
      have hread : Succeeds expression c₁ (.delimiter .openBrace :: (openLoops n ++ rest)) :=
        succeeds_null (by omega) (by omega) hc₁ (.delimiter _ _ (by decide) (by decide))
      obtain ⟨condition, c₂, hcondition, hc₂⟩ := hread
      have hdepth₂ := depth_eq_of_expression hcondition
      obtain ⟨⟨_, position₃⟩, c₃, rfl, hopen, hc₃, hdepth₃⟩ := exists_next hc₂
      obtain ⟨d, hreaches, hd⟩ := @ih { c₃ with depth := c₃.depth + 1 } (by simp only; omega) hc₃
      exact ⟨d, .loop ⟨position₁, hwhile⟩ hcondition ⟨position₃, hopen⟩ hreaches, hd⟩

/-- A declaration in as many loops as there are levels. -/
theorem endsInLetHeader_openLoops {n : Nat} (hn : n ≤ maxDepth) :
    EndsInLetHeader n (unplaced (openLoops n ++ [.keyword .letWord])) := by
  have htokens : (Cursor.start (unplaced (openLoops n ++ [.keyword .letWord]))).tokens =
      openLoops n ++ [.keyword .letWord] := map_token_unplaced _
  obtain ⟨d, hreaches, hd⟩ :=
    exists_reaches_openLoops n ((Nat.le_of_eq (Nat.zero_add n)).trans hn) htokens
  exact ⟨d, hreaches, .inl hd⟩

/-- An opening parenthesis can be completed, and a declaration at the last level cannot. -/
theorem ofTokens_completable_iff_loops :
    (let opened : List PlacedToken := [⟨.delimiter .openParen, .start⟩]
     ofTokens opened = .error .unexpectedEnd ∧
      ∃ (more : List PlacedToken) (p : Program), ofTokens (opened ++ more) = .ok p) ∧
    (let stuck : List PlacedToken := unplaced (openLoops maxDepth ++ [.keyword .letWord])
     ofTokens stuck = .error .unexpectedEnd ∧
      ¬ ∃ (more : List PlacedToken) (p : Program), ofTokens (stuck ++ more) = .ok p) := by
  have hopened : ofTokens [⟨.delimiter .openParen, .start⟩] = .error .unexpectedEnd := rfl
  have hstuck : EndsInLetHeader maxDepth (unplaced (openLoops maxDepth ++ [.keyword .letWord])) :=
    endsInLetHeader_openLoops (Nat.le_refl _)
  refine ⟨⟨hopened, (ofTokens_completable_iff _ hopened).mpr ?_⟩, hstuck.ofTokens_eq,
    fun hcompletes => (ofTokens_completable_iff _ hstuck.ofTokens_eq).mp hcompletes hstuck⟩
  rintro ⟨d, hreaches, hheader⟩
  obtain ⟨rest, hlet⟩ := hheader.exists_rest
  generalize maxDepth = n at hreaches
  cases hreaches with
  | here => cases hlet
  | behind hstatement => cases hstatement
  | branch hif => cases hif.tokens
  | loop hwhile => cases hwhile.tokens

end Program

end ReplDaemon.Script
