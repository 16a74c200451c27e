import ReplDaemon.Proofs.Script.Program.Reading

/-!
# The tokens around expressions

What an expression begins with and what may follow it decide which way a reader goes. The levels that
an expression needs leave room for the rounds that its chains and indices take.
-/

namespace ReplDaemon.Script

/-- Whether a primary expression begins with a token. -/
def Token.opensPrimary : Token → Bool
  | .int _ | .float _ | .text _ | .char _ | .identifier _ => true
  | .keyword k => k == .trueWord || k == .falseWord || k == .nullWord
  | .delimiter d => d == .openParen || d == .openBracket || d == .openMap
  | .operator _ => false

/-- Whether an expression begins with a token. -/
def Token.opens : Token → Bool
  | .operator o => o == .minus || o == .not
  | t => t.opensPrimary

theorem Token.opens_of_opensPrimary {t : Token} (h : t.opensPrimary = true) : t.opens = true := by
  cases t with
  | operator o => cases h
  | _ => exact h

theorem Literal.opensPrimary_token (l : Literal) : l.token.opensPrimary = true := by
  rcases l with _ | (_ | _) | _ | _ | _ | _ <;> rfl

/-- Tokens begin like an expression, or even like a primary one. -/
structure Opens (primary : Prop) (tokens : List Token) : Prop where
  exists_head : ∃ (t : Token) (rest : List Token), tokens = t :: rest ∧ t.opens = true ∧
    (primary → t.opensPrimary = true)

theorem Opens.of_primary {primary : Prop} {t : Token} {rest : List Token}
    (h : t.opensPrimary = true) : Opens primary (t :: rest) :=
  ⟨t, rest, rfl, Token.opens_of_opensPrimary h, fun _ => h⟩

theorem Opens.append {primary : Prop} {tokens : List Token} (h : Opens primary tokens)
    (rest : List Token) : Opens primary (tokens ++ rest) := by
  obtain ⟨t, tail, rfl, ht⟩ := h
  exact ⟨t, tail ++ rest, rfl, ht⟩

theorem Opens.enclosed {level : Nat} {tokens : List Token} (h : Opens (level = 0) tokens)
    (allowed : Nat) : Opens (level = 0 ∨ allowed < level) (enclosed allowed level tokens) := by
  unfold Script.enclosed
  split
  · next hle =>
      obtain ⟨t, rest, htokens, hopens, hprimary⟩ := h
      refine ⟨t, rest, htokens, hopens, fun hor => hprimary ?_⟩
      omega
  · exact .of_primary rfl

namespace Expr

theorem opens_tokens : (e : Expr) → Opens (e.level = 0) e.tokens
  | .literal l => .of_primary l.opensPrimary_token
  | .var _ => .of_primary rfl
  | .list _ => .of_primary rfl
  | .map _ => .of_primary rfl
  | .unary op _ => ⟨_, _, rfl, by cases op <;> rfl, fun h => by cases h⟩
  | .binary op lhs rhs => by
      have h := ((opens_tokens lhs).enclosed (op.looseness + 1)).append
        (.operator op.operator :: enclosed op.looseness rhs.level rhs.tokens)
      obtain ⟨t, rest, htokens, hopens, _⟩ := h
      exact ⟨t, rest, htokens, hopens, fun h => by cases h⟩
  | .call _ _ => .of_primary rfl
  | .index base position => by
      have h := ((opens_tokens base).enclosed 0).append
        (.delimiter .openBracket :: position.tokens ++ [.delimiter .closeBracket])
      obtain ⟨t, rest, htokens, hopens, hprimary⟩ := h
      refine ⟨t, rest, ?_, hopens, fun _ => hprimary ?_⟩
      · rw [← htokens, tokens, List.append_assoc]
      · omega

/-- The tokens of an expression begin as they should: with no operator where nothing below an operator
is allowed, or where none is at the top. -/
theorem opens_tokensIn (allowed : Nat) (e : Expr) :
    Opens (e.level = 0 ∨ allowed < e.level) (e.tokensIn allowed) :=
  e.opens_tokens.enclosed allowed

theorem tokensIn_top (e : Expr) : e.tokensIn topLevel = e.tokens :=
  if_pos e.level_le

theorem needIn_top (e : Expr) : e.needIn topLevel = e.need :=
  if_pos e.level_le

/-- A place may allow more without a difference unless the expression is of the greater level. -/
theorem tokensIn_succ {allowed : Nat} {e : Expr} (h : e.level ≠ allowed + 1) :
    e.tokensIn (allowed + 1) = e.tokensIn allowed := by
  unfold tokensIn enclosed
  by_cases hle : e.level ≤ allowed
  · rw [if_pos hle, if_pos (by omega)]
  · rw [if_neg hle, if_neg (by omega)]

theorem needIn_succ {allowed : Nat} {e : Expr} (h : e.level ≠ allowed + 1) :
    e.needIn (allowed + 1) = e.needIn allowed := by
  unfold needIn needWithin
  by_cases hle : e.level ≤ allowed
  · rw [if_pos hle, if_pos (by omega)]
  · rw [if_neg hle, if_neg (by omega)]

theorem itemTokens_eq (items : List Expr) : itemTokens items = items.map tokens := by
  induction items with
  | nil => rfl
  | cons e rest ih => rw [itemTokens, List.map_cons, ih]

theorem entryTokens_eq (entries : List (Expr × Expr)) : entryTokens entries =
    entries.map fun entry => entry.1.tokens ++ .delimiter .colon :: entry.2.tokens := by
  induction entries with
  | nil => rfl
  | cons entry rest ih => rw [entryTokens, List.map_cons, ih]

theorem itemNeed_eq (items : List Expr) : itemNeed items = Parser.most (·.need + 1) items := by
  induction items with
  | nil => rfl
  | cons e rest ih => rw [itemNeed, Parser.most, ih]

theorem entryNeed_eq (entries : List (Expr × Expr)) : entryNeed entries =
    Parser.most (fun entry => max (entry.1.need + 1) (entry.2.need + 1)) entries := by
  induction entries with
  | nil => rfl
  | cons entry rest ih => rw [entryNeed, Parser.most, ih]

/-- Every link of a chain is one of the levels that the chain needs. -/
theorem links_le_needIn (looseness : Nat) (e : Expr) :
    e.links looseness ≤ e.needIn (looseness + 1) := by
  cases e with
  | binary op lhs rhs =>
      by_cases h : op.looseness = looseness
      · have hfits : (binary op lhs rhs).level ≤ looseness + 1 :=
          Nat.le_of_eq (congrArg (· + 1) h)
        rw [needIn, needWithin, if_pos hfits, links, if_pos h, need, h]
        omega
      · rw [links, if_neg h]
        exact Nat.zero_le _
  | _ => exact Nat.zero_le _

theorem indices_le_needIn (e : Expr) : e.indices ≤ e.needIn 0 := by
  cases e with
  | index base position =>
      have hfits : (index base position).level ≤ 0 := Nat.le_refl 0
      rw [needIn, needWithin, if_pos hfits, indices, need]
      omega
  | _ => exact Nat.zero_le _

/-- The rounds that the indices and calls behind what is indexed first take. -/
def rounds : Expr → Nat
  | .index base _ => base.rounds + 1
  | .call _ _ => 1
  | _ => 0

theorem rounds_le : (e : Expr) → e.rounds ≤ e.indices + 1
  | .index base _ => by
      have h := rounds_le base
      simp only [rounds, indices]
      omega
  | .call _ _ => Nat.le_refl 1
  | .literal _ | .var _ | .list _ | .map _ | .unary _ _ | .binary _ _ _ => Nat.zero_le _

end Expr

namespace Parser

/-- What may follow an expression in a place that allows a level: nothing that would go on with it
there. -/
structure Stops (allowed : Nat) (rest : List Token) : Prop where
  noIndex : startsWith .openBracket rest = false
  noCall : startsWith .openParen rest = false
  noOperator : ∀ (o : Operator) (tail : List Token) (op : BinaryOp),
    rest = .operator o :: tail → BinaryOp.ofOperator? o = some op → allowed ≤ op.looseness

namespace Stops

theorem mono {allowed allowed' : Nat} {rest : List Token} (h : Stops allowed rest)
    (hle : allowed' ≤ allowed) : Stops allowed' rest :=
  ⟨h.noIndex, h.noCall, fun o tail op hrest hop => Nat.le_trans hle (h.noOperator o tail op hrest hop)⟩

theorem nil (allowed : Nat) : Stops allowed [] :=
  ⟨rfl, rfl, fun _ _ _ h => by cases h⟩

theorem delimiter (allowed : Nat) {d : Delimiter} (rest : List Token) (hindex : d ≠ .openBracket)
    (hcall : d ≠ .openParen) : Stops allowed (.delimiter d :: rest) :=
  ⟨beq_eq_false_iff_ne.mpr hindex, beq_eq_false_iff_ne.mpr hcall, fun _ _ _ h => by cases h⟩

theorem assign (allowed : Nat) (rest : List Token) : Stops allowed (.operator .assign :: rest) := by
  refine ⟨rfl, rfl, fun o tail op h hop => ?_⟩
  cases h
  cases hop

theorem operator (op : BinaryOp) (rest : List Token) :
    Stops op.looseness (.operator op.operator :: rest) := by
  refine ⟨rfl, rfl, fun o tail op' h hop => ?_⟩
  cases h
  rw [BinaryOp.ofOperator?_operator, Option.some.injEq] at hop
  exact Nat.le_of_eq (congrArg _ hop)

end Stops

/-- The reader for a place that allows a level. -/
def readerAt (inner : Parser Expr) : Nat → Parser Expr
  | 0 => postfixed inner
  | level + 1 => chain (unary (postfixed inner)) level

theorem binaryOp?_of_stops {looseness : Nat} {c : Cursor} (h : Stops (looseness + 1) c.tokens) :
    binaryOp? looseness c = .ok (none, c) := by
  rw [binaryOp?, bind_of_ok (peek_apply c)]
  rcases htokens : c.tokens with _ | ⟨t, tail⟩
  · rfl
  · cases t with
    | operator o =>
        have hnone : (BinaryOp.ofOperator? o).filter (·.looseness == looseness) = none := by
          rw [Option.filter_eq_none_iff]
          intro op hop
          have hle := h.noOperator o tail op htokens hop
          simp only [beq_iff_eq]
          omega
        change Except.ok ((BinaryOp.ofOperator? o).filter (·.looseness == looseness), c) = _
        rw [hnone]
    | _ => rfl

theorem binaryOp?_of_operator {op : BinaryOp} {c : Cursor} {rest : List Token}
    (h : c.tokens = .operator op.operator :: rest) :
    binaryOp? op.looseness c = .ok (some op, c) := by
  rw [binaryOp?, bind_of_ok (peek_apply c), h]
  change Except.ok ((BinaryOp.ofOperator? op.operator).filter (·.looseness == op.looseness), c) = _
  rw [BinaryOp.ofOperator?_operator, Option.filter_some, if_pos (beq_self_eq_true _)]

theorem unaryOp?_of_opens {c : Cursor} (h : Opens True c.tokens) :
    unaryOp? c = .ok (none, c) := by
  obtain ⟨t, rest, htokens, _, hprimary⟩ := h
  rw [unaryOp?, bind_of_ok (peek_apply c), htokens]
  cases t with
  | operator o => cases hprimary trivial
  | _ => rfl

theorem unaryOp?_of_operator {op : UnaryOp} {c : Cursor} {rest : List Token}
    (h : c.tokens = .operator op.operator :: rest) : unaryOp? c = .ok (some op, c) := by
  rw [unaryOp?, bind_of_ok (peek_apply c), h]
  change Except.ok (UnaryOp.ofOperator? op.operator, c) = _
  rw [UnaryOp.ofOperator?_operator]

end Parser

end ReplDaemon.Script
