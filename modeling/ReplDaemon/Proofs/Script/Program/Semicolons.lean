import ReplDaemon.Proofs.Script.Program.Extension

/-!
# Expressions hold no semicolons

No reader of an expression takes a semicolon, so an expression that is read to the end of the tokens
shows that the last of them is none.
-/

namespace ReplDaemon.Script

/-- If there are tokens, the last one is a semicolon. -/
def Closed (tokens : List Token) : Prop :=
  ∀ t ∈ tokens.getLast?, t = .delimiter .semicolon

theorem Closed.of_suffix {tokens tokens' : List Token} (h : Closed tokens)
    (hsuffix : tokens' <:+ tokens) : Closed tokens' := by
  obtain ⟨front, rfl⟩ := hsuffix
  intro t ht
  refine h t ?_
  rw [Option.mem_def] at ht ⊢
  rw [List.getLast?_append, ht]
  rfl

namespace Parser

variable {α β : Type}

theorem exists_of_startsWith {d : Delimiter} {tokens : List Token} (h : startsWith d tokens = true) :
    ∃ rest : List Token, tokens = .delimiter d :: rest := by
  rw [startsWith.eq_def] at h
  split at h
  · next e rest => exact ⟨rest, by rw [eq_of_beq h]⟩
  · cases h

/-- A binary operator that is seen is an operator token that comes next. -/
theorem binaryOp?_eq_ok {looseness : Nat} {c c' : Cursor} {op : Option BinaryOp}
    (h : binaryOp? looseness c = .ok (op, c')) :
    c' = c ∧ (op = none ∨ ∃ (o : Operator) (rest : List Token), c.tokens = .operator o :: rest) := by
  rw [binaryOp?, bind_of_ok (peek_apply c)] at h
  rcases htokens : c.tokens with _ | ⟨t, rest⟩
  · rw [htokens] at h
    cases h
    exact ⟨rfl, .inl rfl⟩
  · rw [htokens] at h
    cases t <;> cases h <;> exact ⟨rfl, by simp⟩

/-- A unary operator that is seen is an operator token that comes next. -/
theorem unaryOp?_eq_ok {c c' : Cursor} {op : Option UnaryOp} (h : unaryOp? c = .ok (op, c')) :
    c' = c ∧ (op = none ∨ ∃ (o : Operator) (rest : List Token), c.tokens = .operator o :: rest) := by
  rw [unaryOp?, bind_of_ok (peek_apply c)] at h
  rcases htokens : c.tokens with _ | ⟨t, rest⟩
  · rw [htokens] at h
    cases h
    exact ⟨rfl, .inl rfl⟩
  · rw [htokens] at h
    cases t <;> cases h <;> exact ⟨rfl, by simp⟩

/-- If the reader succeeds, there is no semicolon among the tokens that it takes. -/
def Unbroken (p : Parser α) (c : Cursor) : Prop :=
  ∀ (a : α) (c' : Cursor), p c = .ok (a, c') →
    ∃ taken : List Token, c.tokens = taken ++ c'.tokens ∧ .delimiter .semicolon ∉ taken

namespace Unbroken

variable {p : Parser α} {c : Cursor} {close : Delimiter}

/-- Nothing is taken. -/
theorem none (h : ∀ (a : α) (c' : Cursor), p c = .ok (a, c') → c'.rest = c.rest) : Unbroken p c := by
  intro a c' hread
  refine ⟨[], ?_, List.not_mem_nil⟩
  rw [Cursor.tokens, Cursor.tokens, h a c' hread, List.nil_append]

theorem error {e : ParseError} (h : p c = .error e) : Unbroken p c := by
  intro a c' hread
  cases h.symm.trans hread

theorem pure {a : α} : Unbroken (Pure.pure a) c := by
  refine .none fun b c' hread => ?_
  cases hread
  rfl

theorem bind {f : α → Parser β} (h : Unbroken p c)
    (hf : ∀ (a : α) (c' : Cursor), p c = .ok (a, c') → Unbroken (f a) c') :
    Unbroken (p >>= f) c := by
  intro b d hread
  obtain ⟨a, c', hp, hfa⟩ := exists_of_bind_ok hread
  obtain ⟨first, hfirst, hnone⟩ := h a c' hp
  obtain ⟨second, hsecond, hnone'⟩ := hf a c' hp b d hfa
  refine ⟨first ++ second, ?_, ?_⟩
  · rw [hfirst, hsecond, List.append_assoc]
  · rw [List.mem_append]
    exact not_or.mpr ⟨hnone, hnone'⟩

theorem after {f : α → Parser β} (h : Unbroken p c) (hf : ∀ (a : α) (d : Cursor), Unbroken (f a) d) :
    Unbroken (p >>= f) c :=
  h.bind fun a c' _ => hf a c'

theorem remaining : Unbroken Parser.remaining c :=
  .none fun _ _ hread => by cases hread; rfl

theorem descend : Unbroken Parser.descend c := by
  refine .none fun a c' hread => ?_
  obtain ⟨-, rfl⟩ := descend_eq_ok hread
  rfl

theorem ascend {levels : Nat} : Unbroken (Parser.ascend levels) c := by
  refine .none fun a c' hread => ?_
  unfold Parser.ascend at hread
  split at hread
  · cases hread
    rfl
  · cases hread

theorem nested (h : ∀ d : Cursor, Unbroken p d) : Unbroken (Parser.nested p) c :=
  descend.after fun _ d => (h d).after fun _ _ => ascend.after fun _ _ => pure

/-- A token that is no semicolon is taken. -/
theorem next {token : Token} {rest : List Token} (h : c.tokens = token :: rest)
    (hother : token ≠ .delimiter .semicolon) : Unbroken Parser.next c := by
  intro t c' hread
  refine ⟨[token], ?_, fun hmem => hother (List.mem_singleton.mp hmem).symm⟩
  have htokens : c.tokens = t.token :: c'.tokens := by
    rw [Cursor.tokens, next_eq_ok hread]
    rfl
  rw [List.singleton_append, (List.cons.inj (h.symm.trans htokens)).1]
  exact htokens

/-- What follows a token goes on only if that is no semicolon. -/
theorem next_bind {f : PlacedToken → Parser β}
    (hf : ∀ (t : PlacedToken) (d : Cursor), t.token ≠ .delimiter .semicolon → Unbroken (f t) d)
    (hstop : ∀ (t : PlacedToken) (d : Cursor), t.token = .delimiter .semicolon →
      ∃ e : ParseError, f t d = .error e) : Unbroken (Parser.next >>= f) c := by
  intro b d hread
  obtain ⟨t, c', hnext, hft⟩ := exists_of_bind_ok hread
  have hother : t.token ≠ .delimiter .semicolon := by
    intro hsemicolon
    obtain ⟨e, herror⟩ := hstop t c' hsemicolon
    cases herror.symm.trans hft
  have htokens : c.tokens = t.token :: c'.tokens := by
    rw [Cursor.tokens, next_eq_ok hnext]
    rfl
  exact (next htokens hother).bind (fun t' c'' hnext' => by
    cases hnext.symm.trans hnext'
    exact hf t c' hother) b d hread

theorem discard_next {token : Token} {rest : List Token} (h : c.tokens = token :: rest)
    (hother : token ≠ .delimiter .semicolon) : Unbroken (discard Parser.next : Parser PUnit) c :=
  (next h hother).after fun _ _ => pure

theorem expect (h : close ≠ .semicolon) : Unbroken (Parser.expect close) c := by
  refine next_bind (fun t d _ => ?_) fun t d hsemicolon => ?_
  · cases t.token with
    | delimiter e =>
        dsimp only
        split
        · exact pure
        · exact error rfl
    | _ => exact error rfl
  · rw [hsemicolon]
    have hne : (Delimiter.semicolon == close) = false := beq_eq_false_iff_ne.mpr (Ne.symm h)
    dsimp only
    rw [hne]
    exact ⟨_, rfl⟩

theorem atDelimiter {f : Bool → Parser β} (hfalse : Unbroken (f false) c)
    (htrue : ∀ rest : List Token, c.tokens = .delimiter close :: rest → Unbroken (f true) c) :
    Unbroken (Parser.atDelimiter close >>= f) c := by
  intro b d hread
  rw [bind_of_ok (atDelimiter_apply close c)] at hread
  cases hstarts : startsWith close c.tokens with
  | false => exact hfalse b d (hstarts ▸ hread)
  | true =>
      obtain ⟨rest, hrest⟩ := exists_of_startsWith hstarts
      exact htrue rest hrest b d (hstarts ▸ hread)

theorem eat (h : close ≠ .semicolon) : Unbroken (Parser.eat close) c := by
  refine .atDelimiter pure fun rest hrest => ?_
  have hother : Token.delimiter close ≠ .delimiter .semicolon := fun heq => h (Token.delimiter.inj heq)
  exact (discard_next hrest hother).after fun _ _ => pure

theorem itemsFrom (h : ∀ d : Cursor, Unbroken p d) (hclose : close ≠ .semicolon) (found : List α)
    (rounds : List PlacedToken) : Unbroken (Parser.itemsFrom p close found rounds) c := by
  induction rounds generalizing found c with
  | nil => exact error rfl
  | cons _ rounds ih =>
      refine (eat hclose).after fun closed d => ?_
      split
      · exact pure
      · refine (expect (by decide)).after fun _ d => (eat hclose).after fun closed' d => ?_
        split
        · exact pure
        · exact (h d).after fun a d => ih (a :: found)

theorem items (h : ∀ d : Cursor, Unbroken p d) (hclose : close ≠ .semicolon) :
    Unbroken (Parser.items p close) c := by
  refine (eat hclose).after fun closed d => ?_
  split
  · exact pure
  · exact (h d).after fun a d => remaining.after fun rounds d => itemsFrom h hclose [a] rounds

end Unbroken

section Expressions

variable {operand expression : Parser Expr} {c : Cursor}

theorem unbroken_chainFrom (h : ∀ d : Cursor, Unbroken operand d) (looseness links : Nat) (lhs : Expr)
    (rounds : Nat) : Unbroken (chainFrom operand looseness links lhs rounds) c := by
  induction rounds generalizing links lhs c with
  | zero => exact .error rfl
  | succ rounds ih =>
      refine .bind (.none fun _ _ hop => congrArg _ (binaryOp?_eq_ok hop).1) fun op d hop => ?_
      cases op with
      | none => exact Unbroken.ascend.after fun _ _ => .pure
      | some op =>
          obtain ⟨rfl, hnone | ⟨o, rest, hrest⟩⟩ := binaryOp?_eq_ok hop
          · cases hnone
          · exact (Unbroken.discard_next hrest nofun).after fun _ d => Unbroken.descend.after fun _ d =>
              (h d).after fun rhs d => ih (links + 1) (.binary op lhs rhs)

theorem unbroken_chain (h : ∀ d : Cursor, Unbroken operand d) (looseness : Nat) (c : Cursor) :
    Unbroken (chain operand looseness) c := by
  induction looseness generalizing c with
  | zero => exact h c
  | succ looseness ih =>
      exact (ih c).after fun lhs d => unbroken_chainFrom ih (looseness + 1) 0 lhs maxRounds

theorem unbroken_unary (h : ∀ d : Cursor, Unbroken operand d) (c : Cursor) :
    Unbroken (unary operand) c := by
  have hfrom (rounds : Nat) (c : Cursor) : Unbroken (unaryFrom operand rounds) c := by
    induction rounds generalizing c with
    | zero => exact .error rfl
    | succ rounds ih =>
        refine .bind (.none fun _ _ hop => congrArg _ (unaryOp?_eq_ok hop).1) fun op d hop => ?_
        cases op with
        | none => exact h d
        | some op =>
            obtain ⟨rfl, hnone | ⟨o, rest, hrest⟩⟩ := unaryOp?_eq_ok hop
            · cases hnone
            · exact (Unbroken.discard_next hrest nofun).after fun _ d =>
                (Unbroken.nested ih).after fun _ _ => .pure
  exact hfrom maxRounds c

theorem unbroken_linksFrom (h : ∀ d : Cursor, Unbroken expression d) (links : Nat) (e : Expr)
    (rounds : Nat) (c : Cursor) : Unbroken (linksFrom expression links e rounds) c := by
  induction rounds generalizing links e c with
  | zero => exact .error rfl
  | succ rounds ih =>
      refine (Unbroken.eat (by decide)).after fun isIndex d => ?_
      split
      · exact Unbroken.descend.after fun _ d => (h d).after fun position d =>
          (Unbroken.expect (by decide)).after fun _ d => ih (links + 1) (.index e position) d
      · refine .atDelimiter (Unbroken.ascend.after fun _ _ => .pure) fun rest hrest => ?_
        refine (Unbroken.next hrest nofun).after fun t d => ?_
        split
        · exact (Unbroken.items h (by decide)).after fun arguments d => ih links (.call _ arguments) d
        · exact .error rfl

theorem unbroken_primary (h : ∀ d : Cursor, Unbroken expression d) (c : Cursor) :
    Unbroken (primary expression) c := by
  have hentry (d : Cursor) : Unbroken (entry expression) d :=
    (h d).after fun key d => (Unbroken.expect (by decide)).after fun _ d =>
      (h d).after fun value _ => .pure
  refine .next_bind (fun t d _ => ?_) fun t d hsemicolon => ?_
  · split
    case h_9 => exact (h d).after fun _ _ => (Unbroken.expect (by decide)).after fun _ _ => .pure
    case h_10 => exact (Unbroken.items h (by decide)).after fun _ _ => .pure
    case h_11 => exact (Unbroken.items hentry (by decide)).after fun _ _ => .pure
    case h_12 => exact .error rfl
    all_goals exact .pure
  · rw [hsemicolon]
    exact ⟨_, rfl⟩

theorem unbroken_expressionWithin (levels : Nat) (c : Cursor) :
    Unbroken (expressionWithin levels) c := by
  induction levels generalizing c with
  | zero => exact .error rfl
  | succ levels ih =>
      have hpostfixed (d : Cursor) : Unbroken (postfixed (expressionWithin levels)) d :=
        (unbroken_primary ih d).after fun e d => unbroken_linksFrom ih 0 e maxRounds d
      exact .nested (unbroken_chain (unbroken_unary hpostfixed) BinaryOp.loosest)

end Expressions

/-- Where the last token is a semicolon, an expression is not all there is. -/
theorem rest_ne_nil_of_expression {c c' : Cursor} {e : Expr} (h : expression c = .ok (e, c'))
    (hclosed : Closed c.tokens) : c'.rest ≠ [] := by
  intro hnil
  obtain ⟨taken, htaken, hnone⟩ := unbroken_expressionWithin (maxDepth + 1) c e c' h
  rw [Cursor.tokens_of_rest_nil hnil, List.append_nil] at htaken
  obtain ⟨t, rest, hcons⟩ := Cursor.exists_rest (takes_expression.ne_nil h)
  cases hlast : c.tokens.getLast? with
  | none =>
      rw [List.getLast?_eq_none_iff, Cursor.tokens, hcons] at hlast
      cases hlast
  | some t =>
      rw [hclosed t hlast, htaken] at hlast
      exact hnone (List.mem_of_getLast? hlast)

end Parser

end ReplDaemon.Script
