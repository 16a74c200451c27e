import ReplDaemon.Proofs.Script.Program.Lookahead

/-!
# Reading expressions

An expression is read back from its tokens. The readers of the levels build on each other, so the
argument climbs with them: from what can be indexed over unary operators to the chains of each
looseness, then to whole expressions, and from there to expressions in parentheses.
-/

namespace ReplDaemon.Script

open ReplDaemon.Script.Parser

namespace Parser

variable {α : Type} {c : Cursor} {rest : List Token}

theorem linksFrom_succ (inner : Parser Expr) (links : Nat) (e : Expr) (rounds : Nat) :
    linksFrom inner links e (rounds + 1) = (do
      if ← eat .openBracket then
        descend
        let position ← inner
        expect .closeBracket
        linksFrom inner (links + 1) (.index e position) rounds
      else if ← atDelimiter .openParen then
        let t ← next
        match e with
        | .var name =>
          let arguments ← items inner .closeParen
          linksFrom inner links (.call name arguments) rounds
        | _ => reject (.delimiter .semicolon) t
      else
        ascend links
        return e) := rfl

/-- An index is read one level deeper. -/
theorem becomes_index {inner : Parser Expr} {floor : Nat} {position : Expr}
    (hread : Reads floor inner position.tokens (Stops topLevel) (position.need + 1) position)
    (links : Nat) (e : Expr) (rounds : Nat) (hfloor : floor ≤ c.depth) (hdepth : c.depth ≤ maxDepth)
    (htokens : c.tokens =
      .delimiter .openBracket :: position.tokens ++ .delimiter .closeBracket :: rest) :
    Becomes (linksFrom inner links e (rounds + 1)) c
      (linksFrom inner (links + 1) (.index e position) rounds) rest (c.depth + 1)
      (c.depth + 1 + (position.need + 1)) := by
  rw [linksFrom_succ]
  apply becomes_eat htokens
  intro d hd hdown
  rw [if_pos rfl]
  apply becomes_descend (by omega) (by omega)
  intro d' hlt hd' hdeep
  have hread := hread d' (.delimiter .closeBracket :: rest) (by omega) (by omega) (hd'.trans hd)
    (.delimiter _ _ (by decide) (by decide))
  have hclose (e' : Cursor) (_ : d'.depth + (position.need + 1) ≤ maxDepth)
      (he : e'.tokens = .delimiter .closeBracket :: rest) (hup : e'.depth = d'.depth) :
      Becomes (expect .closeBracket >>= fun _ =>
        linksFrom inner (links + 1) (.index e position) rounds) e'
        (linksFrom inner (links + 1) (.index e position) rounds) rest (c.depth + 1) 0 :=
    becomes_expect he fun d'' hd'' hup' => .refl hd'' (by omega)
  exact .reaching (hread.seq hclose) (by omega)

/-- A call is read behind a name. -/
theorem becomes_call {inner : Parser Expr} {floor need : Nat} {spelt : List Token}
    {arguments : List Expr}
    (hread : Reads floor (items inner .closeParen) spelt (fun _ => True) need arguments)
    (links : Nat) (name : String) (rounds : Nat) (hfloor : floor ≤ c.depth)
    (hdepth : c.depth ≤ maxDepth) (htokens : c.tokens = .delimiter .openParen :: spelt ++ rest) :
    Becomes (linksFrom inner links (.var name) (rounds + 1)) c
      (linksFrom inner links (.call name arguments) rounds) rest c.depth (c.depth + need) := by
  have hindex : startsWith .openBracket c.tokens = false := by
    rw [htokens]
    rfl
  have hcall : atDelimiter .openParen c = .ok (true, c) := by
    rw [atDelimiter_apply, htokens]
    rfl
  rw [linksFrom_succ]
  refine .after (eat_apply hindex) (.after hcall ?_)
  rw [if_pos rfl]
  apply becomes_next htokens
  intro t d _ hd hdown
  have hread := hread d rest (by omega) (by omega) hd trivial
  refine .reaching (hread.seq fun e _ he hup => .refl he (by omega)) (by omega)

/-- What stops the indices leaves the expression as it is. -/
theorem becomes_linksFrom_stop {inner : Parser Expr} {links depth : Nat} {e : Expr} {rounds : Nat}
    (htokens : c.tokens = rest) (hdepth : c.depth = depth + links) (hstops : Stops 0 rest) :
    Becomes (linksFrom inner links e (rounds + 1)) c (pure e) rest depth 0 := by
  have hindex : startsWith .openBracket c.tokens = false := by rw [htokens, hstops.noIndex]
  have hcall : atDelimiter .openParen c = .ok (false, c) := by
    rw [atDelimiter_apply, htokens, hstops.noCall]
  rw [linksFrom_succ]
  refine .after (eat_apply hindex) (.after hcall ?_)
  simp only [Bool.false_eq_true, if_false]
  exact becomes_ascend (by omega) fun d hd hup => .refl (hd.trans htokens) (by omega)

theorem chainFrom_succ (operand : Parser Expr) (looseness links : Nat) (lhs : Expr) (rounds : Nat) :
    chainFrom operand looseness links lhs (rounds + 1) = (do
      match ← binaryOp? looseness with
      | none =>
        ascend links
        return lhs
      | some op =>
        discard next
        descend
        let rhs ← operand
        chainFrom operand looseness (links + 1) (.binary op lhs rhs) rounds) := rfl

/-- A link of a chain is read one level deeper. -/
theorem becomes_link {operand : Parser Expr} {floor looseness : Nat} {op : BinaryOp} {rhs : Expr}
    (hop : op.looseness = looseness)
    (hread : Reads floor operand (rhs.tokensIn looseness) (Stops looseness) (rhs.needIn looseness)
      rhs)
    (links : Nat) (lhs : Expr) (rounds : Nat) (hfloor : floor ≤ c.depth) (hdepth : c.depth ≤ maxDepth)
    (htokens : c.tokens = .operator op.operator :: rhs.tokensIn looseness ++ rest)
    (hstops : Stops looseness rest) :
    Becomes (chainFrom operand looseness links lhs (rounds + 1)) c
      (chainFrom operand looseness (links + 1) (.binary op lhs rhs) rounds) rest (c.depth + 1)
      (c.depth + 1 + rhs.needIn looseness) := by
  subst hop
  rw [chainFrom_succ]
  refine .after (binaryOp?_of_operator htokens) ?_
  apply becomes_discard htokens
  intro d hd hdown
  apply becomes_descend (by omega) (by omega)
  intro d' hlt hd' hdeep
  have hread := hread d' rest (by omega) (by omega) (hd'.trans hd) hstops
  exact .reaching (hread.seq fun e _ he hup => .refl he (by omega)) (by omega)

/-- What stops a chain leaves the expression as it is. -/
theorem becomes_chainFrom_stop {operand : Parser Expr} {looseness links depth : Nat} {e : Expr}
    {rounds : Nat} (htokens : c.tokens = rest) (hdepth : c.depth = depth + links)
    (hstops : Stops (looseness + 1) rest) :
    Becomes (chainFrom operand looseness links e (rounds + 1)) c (pure e) rest depth 0 := by
  rw [chainFrom_succ]
  refine .after (binaryOp?_of_stops (htokens ▸ hstops)) ?_
  exact becomes_ascend (by omega) fun d hd hup => .refl (hd.trans htokens) (by omega)

theorem unaryFrom_succ (operand : Parser Expr) (rounds : Nat) :
    unaryFrom operand (rounds + 1) = (do
      match ← unaryOp? with
      | none => operand
      | some op =>
        discard next
        let e ← nested (unaryFrom operand rounds)
        return .unary op e) := rfl

/-- The operand of a unary operator is read one level deeper. -/
theorem Reads.unary {operand : Parser Expr} {floor rounds need : Nat} {spelt : List Token}
    {follow : List Token → Prop} {e : Expr}
    (h : Reads (floor + 1) (unaryFrom operand rounds) spelt follow need e) (op : UnaryOp) :
    Reads floor (unaryFrom operand (rounds + 1)) (.operator op.operator :: spelt) follow (need + 1)
      (.unary op e) := by
  intro c rest hfloor hdepth htokens hfollow
  rw [unaryFrom_succ]
  refine .after (unaryOp?_of_operator htokens) ?_
  apply becomes_discard htokens
  intro d hd hdown
  have hread := h.nested d rest (by omega) (by omega) hd hfollow
  exact .reaching (hread.seq fun e' _ he hup => .refl he (by omega)) (by omega)

/-- Without an operator, there is just the operand. -/
theorem Reads.operand {operand : Parser Expr} {floor need : Nat} {spelt : List Token}
    {follow : List Token → Prop} {e : Expr} (h : Reads floor operand spelt follow need e)
    (hopens : Opens True spelt) (rounds : Nat) :
    Reads floor (unaryFrom operand (rounds + 1)) spelt follow need e := by
  intro c rest hfloor hdepth htokens hfollow
  have hnone : unaryOp? c = .ok (none, c) := by
    refine unaryOp?_of_opens ?_
    rw [htokens]
    exact hopens.append rest
  rw [unaryFrom_succ]
  exact .after hnone (h c rest hfloor hdepth htokens hfollow)

theorem Reads.follow {p : Parser α} {floor need : Nat} {spelt : List Token}
    {follow follow' : List Token → Prop} {a : α} (h : Reads floor p spelt follow need a)
    (himp : ∀ rest : List Token, follow' rest → follow rest) :
    Reads floor p spelt follow' need a :=
  fun c rest hfloor hdepth htokens hfollow =>
    h c rest hfloor hdepth htokens (himp rest hfollow)

/-- Nothing is claimed above the depth that is accepted. -/
theorem Reads.of_deep {p : Parser α} {floor need : Nat} {spelt : List Token}
    {follow : List Token → Prop} {a : α} (h : maxDepth < floor) :
    Reads floor p spelt follow need a :=
  fun _ _ hfloor hdepth _ _ => absurd (Nat.le_trans hfloor hdepth) (by omega)

/-- After as many rounds as there can be links, one is left to find the end. -/
theorem maxRounds_sub {n : Nat} (h : n ≤ maxDepth + 1) :
    maxRounds - n = maxRounds - (n + 1) + 1 := by
  unfold maxRounds
  omega

theorem postfixed_eq (inner : Parser Expr) :
    postfixed inner = (primary inner >>= fun e => linksFrom inner 0 e maxRounds) := rfl

end Parser

namespace Expr

/-- The expression is read in places that allow a level. -/
def ReadsIn (e : Expr) (allowed : Nat) : Prop :=
  ∀ floor levels : Nat, maxDepth < floor + levels →
    Reads floor (readerAt (expressionWithin levels) allowed) (e.tokensIn allowed) (Stops allowed)
      (e.needIn allowed) e

/-- The expression is read as a whole. -/
def ReadsWhole (e : Expr) : Prop :=
  ∀ floor levels : Nat, maxDepth < floor + levels →
    Reads floor (expressionWithin levels) e.tokens (Stops topLevel) (e.need + 1) e

/-- The expression is read as the base of more indices. -/
def ReadsIndices (e : Expr) : Prop :=
  ∀ floor levels : Nat, maxDepth < floor + levels → ∀ (c : Cursor) (rest : List Token),
    floor ≤ c.depth → c.depth ≤ maxDepth → c.tokens = e.tokensIn 0 ++ rest →
      Becomes (postfixed (expressionWithin levels)) c
        (linksFrom (expressionWithin levels) e.indices e (maxRounds - e.rounds)) rest
        (c.depth + e.indices) (c.depth + e.needIn 0)

/-- The expression is read as an operand of more unary operators. -/
def ReadsOperand (e : Expr) : Prop :=
  ∀ floor levels rounds : Nat, maxDepth < floor + levels → maxDepth + 1 < floor + rounds →
    Reads floor (unaryFrom (postfixed (expressionWithin levels)) rounds) (e.tokensIn 1) (Stops 1)
      (e.needIn 1) e

/-- The expression is read as the left part of a longer chain, whose operators have one looseness more
than `tighter`. -/
def ReadsChain (e : Expr) (tighter : Nat) : Prop :=
  ∀ floor levels : Nat, maxDepth < floor + levels → ∀ (c : Cursor) (rest : List Token),
    floor ≤ c.depth → c.depth ≤ maxDepth → c.tokens = e.tokensIn (tighter + 2) ++ rest →
      Stops (tighter + 1) rest →
        Becomes (readerAt (expressionWithin levels) (tighter + 2)) c
          (chainFrom (readerAt (expressionWithin levels) (tighter + 1)) (tighter + 1)
            (e.links (tighter + 1)) e (maxRounds - e.links (tighter + 1)))
          rest (c.depth + e.links (tighter + 1)) (c.depth + e.needIn (tighter + 2))

variable {e : Expr}

theorem ReadsIndices.readsIn (h : e.ReadsIndices) : e.ReadsIn 0 := by
  intro floor levels hlevels c rest hfloor hdepth htokens hstops
  have hread := h floor levels hlevels c rest hfloor hdepth htokens
  have hstop (d : Cursor) (hle : c.depth + e.needIn 0 ≤ maxDepth) (hd : d.tokens = rest)
      (hdeep : d.depth = c.depth + e.indices) :
      Becomes (linksFrom (expressionWithin levels) e.indices e (maxRounds - e.rounds)) d (pure e) rest
        c.depth 0 := by
    have hrounds := e.rounds_le
    have hindices := e.indices_le_needIn
    rw [maxRounds_sub (by omega)]
    exact becomes_linksFrom_stop hd hdeep hstops
  exact .reaching (hread.trans hstop) (by omega)

theorem ReadsIn.readsOperand (h : e.ReadsIn 0) (hlevel : e.level ≠ 1) : e.ReadsOperand := by
  intro floor levels rounds hlevels hrounds
  rw [tokensIn_succ hlevel, needIn_succ hlevel]
  cases rounds with
  | zero => exact .of_deep (by omega)
  | succ rounds =>
      have hopens : Opens True (e.tokensIn 0) := by
        obtain ⟨t, rest, htokens, hopens, hprimary⟩ := e.opens_tokensIn 0
        exact ⟨t, rest, htokens, hopens, fun _ => hprimary (by omega)⟩
      exact ((h floor levels hlevels).operand hopens rounds).follow
        fun rest hstops => hstops.mono (Nat.zero_le 1)

theorem ReadsOperand.unary (h : e.ReadsOperand) (op : UnaryOp) : (Expr.unary op e).ReadsOperand := by
  intro floor levels rounds hlevels hrounds
  cases rounds with
  | zero => exact .of_deep (by omega)
  | succ rounds => exact (h (floor + 1) levels rounds (by omega) (by omega)).unary op

theorem ReadsOperand.readsIn (h : e.ReadsOperand) : e.ReadsIn 1 :=
  fun floor levels hlevels => h floor levels maxRounds hlevels (by unfold maxRounds; omega)

theorem links_eq_zero {looseness : Nat} (h : e.level ≠ looseness + 1) : e.links looseness = 0 := by
  cases e with
  | binary op lhs rhs => exact if_neg fun he => h (congrArg (· + 1) he)
  | _ => rfl

theorem readerAt_succ (inner : Parser Expr) (tighter : Nat) :
    readerAt inner (tighter + 2) = (readerAt inner (tighter + 1) >>= fun lhs =>
      chainFrom (readerAt inner (tighter + 1)) (tighter + 1) 0 lhs maxRounds) := rfl

theorem ReadsIn.readsChain {tighter : Nat} (h : e.ReadsIn (tighter + 1))
    (hlevel : e.level ≠ tighter + 2) : e.ReadsChain tighter := by
  intro floor levels hlevels c rest hfloor hdepth htokens hstops
  rw [tokensIn_succ hlevel] at htokens
  rw [links_eq_zero hlevel, needIn_succ hlevel, readerAt_succ]
  exact (h floor levels hlevels c rest hfloor hdepth htokens hstops).bind _

theorem ReadsChain.binary {tighter : Nat} {lhs rhs : Expr} (hlhs : lhs.ReadsChain tighter)
    (hrhs : rhs.ReadsIn (tighter + 1)) {op : BinaryOp} (hop : op.looseness = tighter + 1) :
    (Expr.binary op lhs rhs).ReadsChain tighter := by
  intro floor levels hlevels c rest hfloor hdepth htokens hstops
  have hfits : (Expr.binary op lhs rhs).level ≤ tighter + 2 := Nat.le_of_eq (congrArg (· + 1) hop)
  rw [tokensIn, enclosed, if_pos hfits, tokens, List.append_assoc] at htokens
  have hneed : (Expr.binary op lhs rhs).need =
      max (lhs.needIn (tighter + 2)) (lhs.links (tighter + 1) + 1 + rhs.needIn (tighter + 1)) := by
    rw [need, hop]
    rfl
  rw [needIn, needWithin, if_pos hfits, links, if_pos hop, hneed]
  have hnext : Stops (tighter + 1)
      (.operator op.operator :: enclosed op.looseness rhs.level rhs.tokens ++ rest) := by
    rw [← hop]
    exact .operator op _
  rw [hop] at htokens hnext
  have hread := hlhs floor levels hlevels c _ hfloor hdepth htokens hnext
  have hlink (d : Cursor) (hle : c.depth + lhs.needIn (tighter + 2) ≤ maxDepth)
      (hd : d.tokens =
        .operator op.operator :: enclosed (tighter + 1) rhs.level rhs.tokens ++ rest)
      (hdeep : d.depth = c.depth + lhs.links (tighter + 1)) :
      Becomes (chainFrom (readerAt (expressionWithin levels) (tighter + 1)) (tighter + 1)
          (lhs.links (tighter + 1)) lhs (maxRounds - lhs.links (tighter + 1))) d
        (chainFrom (readerAt (expressionWithin levels) (tighter + 1)) (tighter + 1)
          (lhs.links (tighter + 1) + 1) (.binary op lhs rhs)
          (maxRounds - (lhs.links (tighter + 1) + 1)))
        rest (c.depth + (lhs.links (tighter + 1) + 1))
        (c.depth + (lhs.links (tighter + 1) + 1) + rhs.needIn (tighter + 1)) := by
    have hlinks : lhs.links (tighter + 1) ≤ lhs.needIn (tighter + 2) := lhs.links_le_needIn _
    rw [maxRounds_sub (by omega : lhs.links (tighter + 1) ≤ maxDepth + 1), ← Nat.add_assoc, ← hdeep]
    exact becomes_link hop (hrhs floor levels hlevels) _ lhs _ (by omega) (by omega) hd hstops
  exact .reaching (hread.trans hlink) (by omega)

theorem ReadsChain.readsIn {tighter : Nat} (h : e.ReadsChain tighter) :
    e.ReadsIn (tighter + 2) := by
  intro floor levels hlevels c rest hfloor hdepth htokens hstops
  have hread := h floor levels hlevels c rest hfloor hdepth htokens (hstops.mono (by omega))
  have hstop (d : Cursor) (hle : c.depth + e.needIn (tighter + 2) ≤ maxDepth) (hd : d.tokens = rest)
      (hdeep : d.depth = c.depth + e.links (tighter + 1)) :
      Becomes (chainFrom (readerAt (expressionWithin levels) (tighter + 1)) (tighter + 1)
        (e.links (tighter + 1)) e (maxRounds - e.links (tighter + 1))) d (pure e) rest c.depth 0 := by
    have hlinks : e.links (tighter + 1) ≤ e.needIn (tighter + 2) := e.links_le_needIn _
    rw [maxRounds_sub (by omega)]
    exact becomes_chainFrom_stop hd hdeep hstops
  exact .reaching (hread.trans hstop) (by omega)

/-- What is read in a place that allows the level of the expression is read where more is allowed. -/
theorem ReadsIn.of_le {allowed allowed' : Nat} (h : e.ReadsIn allowed) (hpos : 0 < allowed)
    (hlevel : e.level ≤ allowed) (hle : allowed ≤ allowed') : e.ReadsIn allowed' := by
  induction hle with
  | refl => exact h
  | @step m hle ih =>
      obtain ⟨tighter, rfl⟩ : ∃ tighter, m = tighter + 1 := ⟨m - 1, by simp at hle; omega⟩
      have hneq : e.level ≠ tighter + 2 := by
        simp at hle
        omega
      exact (ih.readsChain hneq).readsIn

theorem ReadsIn.readsWhole (h : e.ReadsIn topLevel) : e.ReadsWhole := by
  intro floor levels hlevels
  cases levels with
  | zero => exact .of_deep (by omega)
  | succ levels =>
      have hread := h (floor + 1) levels (by omega)
      rw [tokensIn_top, needIn_top] at hread
      exact hread.nested

end Expr

end ReplDaemon.Script
