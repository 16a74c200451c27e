import Mathlib.Order.Monotone.Basic
import ReplDaemon.Proofs.Script.Program.Descent

/-!
# The height of what is read

How high a syntax tree gets. The depth that a reader counts is not the height of what it reads: a chain
gives its levels back when it ends, while its tree stays the left operand of the next chain. So every
kind of chain adds up to as many levels as are left, and the bound is a sum over all the depths.
-/

namespace ReplDaemon.Script

mutual

/-- The most nodes with operands, parts or arguments that lie on one path through an expression. -/
def Expr.height : Expr → Nat
  | .literal _ => 0
  | .var _ => 0
  | .list items => Expr.itemHeight items + 1
  | .map entries => Expr.entryHeight entries + 1
  | .unary _ e => e.height + 1
  | .binary _ lhs rhs => max lhs.height rhs.height + 1
  | .call _ arguments => Expr.itemHeight arguments + 1
  | .index base position => max base.height position.height + 1

/-- The height of the highest item of a list. -/
def Expr.itemHeight : List Expr → Nat
  | [] => 0
  | e :: rest => max e.height (Expr.itemHeight rest)

/-- The height of the highest key or value of a map. -/
def Expr.entryHeight : List (Expr × Expr) → Nat
  | [] => 0
  | (key, value) :: rest => max (max key.height value.height) (Expr.entryHeight rest)

end

/-- The height of the expression in what an assignment changes. -/
def Target.height : Target → Nat
  | .variable _ => 0
  | .element _ position => position.height

mutual

/-- The most nodes on one path through a statement, conditions and loops counted in. -/
def Stmt.height : Stmt → Nat
  | .declare _ value => value.height
  | .assign target value => max target.height value.height
  | .ifThen condition body => max condition.height (Stmt.allHeight body) + 1
  | .ifElse condition body alternative =>
    max condition.height (max (Stmt.allHeight body) (Stmt.allHeight alternative)) + 1
  | .whileLoop condition body => max condition.height (Stmt.allHeight body) + 1
  | .evaluate e => e.height

/-- The height of the highest of several statements. -/
def Stmt.allHeight : List Stmt → Nat
  | [] => 0
  | s :: rest => max s.height (Stmt.allHeight rest)

end

/-- The height of the highest statement of a program, or of its result. -/
def Program.height (p : Program) : Nat :=
  max (Stmt.allHeight p.statements) (p.result.elim 0 Expr.height)

theorem Expr.itemHeight_le {bound : Nat} {items : List Expr} (h : ∀ e ∈ items, e.height ≤ bound) :
    Expr.itemHeight items ≤ bound := by
  induction items with
  | nil => exact Nat.zero_le bound
  | cons e rest ih =>
      rw [Expr.itemHeight]
      exact Nat.max_le.mpr
        ⟨h e List.mem_cons_self, ih fun e' he' => h e' (List.mem_cons_of_mem _ he')⟩

theorem Expr.entryHeight_le {bound : Nat} {entries : List (Expr × Expr)}
    (h : ∀ entry ∈ entries, max entry.1.height entry.2.height ≤ bound) :
    Expr.entryHeight entries ≤ bound := by
  induction entries with
  | nil => exact Nat.zero_le bound
  | cons entry rest ih =>
      rw [Expr.entryHeight]
      exact Nat.max_le.mpr
        ⟨h entry List.mem_cons_self, ih fun entry' he' => h entry' (List.mem_cons_of_mem _ he')⟩

theorem Stmt.allHeight_le {bound : Nat} {body : List Stmt} (h : ∀ s ∈ body, s.height ≤ bound) :
    Stmt.allHeight body ≤ bound := by
  induction body with
  | nil => exact Nat.zero_le bound
  | cons s rest ih =>
      rw [Stmt.allHeight]
      exact Nat.max_le.mpr
        ⟨h s List.mem_cons_self, ih fun s' hs' => h s' (List.mem_cons_of_mem _ hs')⟩

/-- The height that an expression can have with some levels left inside it. One more level allows a
list around the whole, an index behind it for each level but one, and for each of the six loosenesses
as many operators as there are levels. -/
def tallest : Nat → Nat
  | 0 => 1
  | levels + 1 => tallest levels + 7 * (levels + 1)

/-- The height that the parts of a list, a map, a call or an `if` can have. -/
def tallestPart : Nat → Nat
  | 0 => 0
  | levels + 1 => tallest levels

/-- The height that a primary expression with its indices and calls can have. -/
def tallestPostfixed : Nat → Nat
  | 0 => 1
  | levels + 1 => tallest levels + levels + 1

/-- The height that a statement can have. -/
def tallestStatement : Nat → Nat
  | 0 => 0
  | levels + 1 => tallest levels + 1

theorem tallestPart_mono : Monotone tallestPart := by
  apply monotone_nat_of_le_succ
  intro levels
  cases levels with
  | zero => exact Nat.zero_le _
  | succ levels =>
      simp only [tallestPart, tallest]
      omega

theorem tallestPart_of_pos {levels : Nat} (h : 0 < levels) :
    tallestPart levels = tallest (levels - 1) := by
  cases levels with
  | zero => cases h
  | succ levels => rfl

theorem tallestPostfixed_strictMono : StrictMono tallestPostfixed := by
  apply strictMono_nat_of_lt_succ
  intro levels
  cases levels with
  | zero => decide
  | succ levels =>
      simp only [tallestPostfixed, tallest]
      omega

theorem tallestPostfixed_add (levels : Nat) :
    tallestPostfixed levels + BinaryOp.loosest * levels = tallest levels := by
  cases levels with
  | zero => rfl
  | succ levels =>
      simp only [tallestPostfixed, tallest, BinaryOp.loosest]
      omega

/-- Indices leave one level for the expression in the last of them. -/
theorem le_tallestPostfixed {levels links : Nat} (h : links = 0 ∨ links < levels) :
    tallestPart levels + 1 + links ≤ tallestPostfixed levels := by
  cases levels with
  | zero =>
      simp only [tallestPart, tallestPostfixed]
      omega
  | succ levels =>
      simp only [tallestPart, tallestPostfixed]
      omega

theorem tallestStatement_of_pos {levels : Nat} (h : 0 < levels) :
    tallestStatement levels = tallestPart levels + 1 := by
  cases levels with
  | zero => cases h
  | succ levels => rfl

theorem tallestStatement_le (levels : Nat) : tallestStatement levels ≤ tallest levels := by
  cases levels with
  | zero => exact Nat.zero_le _
  | succ levels =>
      simp only [tallestStatement, tallest]
      omega

namespace Parser

variable {α : Type} {bound : Nat → Nat}

/-- At every depth, the reader reads nothing higher than the bound for the levels left. -/
def Bounded (height : α → Nat) (bound : Nat → Nat) (p : Parser α) : Prop :=
  ∀ d levels : Nat, d + levels = maxDepth → Ensures d d p fun a => height a ≤ bound levels

/-- At every depth, the reader goes a level deeper and reads something that is no higher than a part
can be. -/
def Deeper (height : α → Nat) (p : Parser α) : Prop :=
  ∀ d levels : Nat, d + levels = maxDepth →
    Ensures d d p fun a => 0 < levels ∧ height a ≤ tallestPart levels

/-- A chain of operators gets no higher than its left operand and its links, and no link is higher than
the levels allow. -/
theorem ensures_chainFrom {operand : Parser Expr} (hmono : Monotone bound)
    (h : Bounded Expr.height bound operand) {looseness d levels : Nat} (hlevels : d + levels = maxDepth)
    (links : Nat) (lhs : Expr) (rounds : Nat) (hlinks : links ≤ levels)
    (hlhs : lhs.height ≤ bound levels + links) :
    Ensures (d + links) d (chainFrom operand looseness links lhs rounds) fun e =>
      e.height ≤ bound levels + levels := by
  induction rounds generalizing links lhs with
  | zero => exact .error
  | succ rounds ih =>
      apply Ensures.binaryOp?.bind
      intro op _
      cases op with
      | none => exact Ensures.ascend.bind fun _ _ => .pure (by omega)
      | some op =>
          apply Ensures.next.discard.bind
          intro _ _
          apply Ensures.descend.bind
          intro _ hlt
          have hleft : d + links + 1 + (levels - links - 1) = maxDepth := by omega
          apply (h _ _ hleft).bind
          intro rhs hrhs
          have hright : bound (levels - links - 1) ≤ bound levels := hmono (by omega)
          have hheight : (Expr.binary op lhs rhs).height ≤ bound levels + (links + 1) := by
            rw [Expr.height]
            omega
          exact ih (links + 1) (.binary op lhs rhs) (by omega) hheight

/-- Every looseness adds one node for each level at most. -/
theorem bounded_chain {operand : Parser Expr} (hmono : Monotone bound)
    (h : Bounded Expr.height bound operand) (looseness : Nat) :
    Bounded Expr.height (fun levels => bound levels + looseness * levels)
      (chain operand looseness) := by
  induction looseness with
  | zero =>
      intro d levels hlevels
      apply (h d levels hlevels).mono
      intro e he
      change e.height ≤ bound levels + 0 * levels
      rwa [Nat.zero_mul]
  | succ looseness ih =>
      intro d levels hlevels
      have hmono' : Monotone fun levels => bound levels + looseness * levels :=
        fun l l' hle => Nat.add_le_add (hmono hle) (Nat.mul_le_mul_left looseness hle)
      apply (ih d levels hlevels).bind
      intro lhs hlhs
      apply (ensures_chainFrom hmono' ih hlevels 0 lhs maxRounds (Nat.zero_le _) hlhs).mono
      intro e he
      change e.height ≤ bound levels + (looseness + 1) * levels
      rwa [Nat.succ_mul, ← Nat.add_assoc]

/-- Unary operators add nothing where every level left raises the bound. -/
theorem bounded_unary {operand : Parser Expr} (hmono : StrictMono bound)
    (h : Bounded Expr.height bound operand) : Bounded Expr.height bound (unary operand) := by
  have hfrom (rounds : Nat) : Bounded Expr.height bound (unaryFrom operand rounds) := by
    induction rounds with
    | zero => exact fun _ _ _ => .error
    | succ rounds ih =>
        intro d levels hlevels
        apply Ensures.unaryOp?.bind
        intro op _
        cases op with
        | none => exact h d levels hlevels
        | some op =>
            have hnested (hlt : d < maxDepth) : Ensures (d + 1) (d + 1) (unaryFrom operand rounds)
                fun e => e.height ≤ bound (levels - 1) := ih (d + 1) (levels - 1) (by omega)
            apply Ensures.next.discard.bind
            intro _ _
            apply (Ensures.nested hnested).bind
            rintro e ⟨hlt, he⟩
            refine .pure ?_
            have hless : bound (levels - 1) < bound levels := hmono (by omega)
            rw [Expr.height]
            omega
  exact hfrom maxRounds

/-- The items of a list are no higher than parts can be, even if there is no level for any. -/
theorem Deeper.items {height : α → Nat} {p : Parser α} (h : Deeper height p) {d levels : Nat}
    (hlevels : d + levels = maxDepth) (close : Delimiter) :
    Ensures d d (items p close) fun list => ∀ a ∈ list, height a ≤ tallestPart levels :=
  ((h d levels hlevels).mono fun _ ha => ha.2).items

theorem Deeper.entry {p : Parser Expr} (h : Deeper Expr.height p) :
    Deeper (fun entry : Expr × Expr => max entry.1.height entry.2.height) (entry p) :=
  fun d levels hlevels => (h d levels hlevels).bind fun _ hkey => Ensures.expect.bind fun _ _ =>
    (h d levels hlevels).bind fun _ hvalue => .pure ⟨hkey.1, Nat.max_le.mpr ⟨hkey.2, hvalue.2⟩⟩

theorem bounded_primary {expression : Parser Expr} (h : Deeper Expr.height expression) :
    Bounded Expr.height (fun levels => tallestPart levels + 1) (primary expression) := by
  intro d levels hlevels
  apply Ensures.next.bind
  intro t _
  split
  -- What stands in parentheses, lists and maps; any other token is a whole expression, or none.
  case h_9 =>
    exact (h d levels hlevels).bind fun _ he => Ensures.expect.bind fun _ _ =>
      .pure (Nat.le_succ_of_le he.2)
  case h_10 =>
    exact (h.items hlevels .closeBracket).bind fun _ hlist =>
      .pure (Nat.succ_le_succ (Expr.itemHeight_le hlist))
  case h_11 =>
    exact (h.entry.items hlevels .closeBrace).bind fun _ hentries =>
      .pure (Nat.succ_le_succ (Expr.entryHeight_le hentries))
  case h_12 => exact .error
  all_goals exact .pure (Nat.zero_le _)

/-- Indices get no higher than what they index and their number. The expression in an index takes a
level of its own, so not every level left can be a link. -/
theorem ensures_linksFrom {expression : Parser Expr} (h : Deeper Expr.height expression)
    {d levels : Nat} (hlevels : d + levels = maxDepth) (links : Nat) (e : Expr) (rounds : Nat)
    (hlinks : links = 0 ∨ links < levels) (he : e.height ≤ tallestPart levels + 1 + links) :
    Ensures (d + links) d (linksFrom expression links e rounds) fun e' =>
      e'.height ≤ tallestPostfixed levels := by
  have hbelow (levels' : Nat) (hle : levels' ≤ levels) : tallestPart levels' ≤ tallestPart levels :=
    tallestPart_mono hle
  induction rounds generalizing links e with
  | zero => exact .error
  | succ rounds ih =>
      apply Ensures.eat.bind
      intro isIndex _
      split
      · apply Ensures.descend.bind
        intro _ hlt
        have hleft : d + links + 1 + (levels - links - 1) = maxDepth := by omega
        apply (h _ _ hleft).bind
        rintro position ⟨hpos, hposition⟩
        apply Ensures.expect.bind
        intro _ _
        have hle := hbelow (levels - links - 1) (by omega)
        have hheight : (Expr.index e position).height ≤ tallestPart levels + 1 + (links + 1) := by
          rw [Expr.height]
          omega
        exact ih (links + 1) (.index e position) (.inr (by omega)) hheight
      · apply Ensures.atDelimiter.bind
        intro isCall _
        split
        · apply Ensures.next.bind
          intro t _
          split
          · have hleft : d + links + (levels - links) = maxDepth := by omega
            apply (h.items hleft .closeParen).bind
            intro arguments harguments
            have hle := hbelow (levels - links) (Nat.sub_le _ _)
            have hitems := Expr.itemHeight_le harguments
            refine ih links (.call _ arguments) hlinks ?_
            rw [Expr.height]
            omega
          · exact .error
        · exact Ensures.ascend.bind fun _ _ => .pure (Nat.le_trans he (le_tallestPostfixed hlinks))

theorem bounded_postfixed {expression : Parser Expr} (h : Deeper Expr.height expression) :
    Bounded Expr.height tallestPostfixed (postfixed expression) := fun d levels hlevels =>
  (bounded_primary h d levels hlevels).bind fun e he =>
    ensures_linksFrom h hlevels 0 e maxRounds (.inl rfl) he

/-- However many levels are allowed, an expression keeps to the bound for the levels left. -/
theorem deeper_expressionWithin (allowed : Nat) : Deeper Expr.height (expressionWithin allowed) := by
  induction allowed with
  | zero => exact fun _ _ _ => .error
  | succ allowed ih =>
      intro d levels hlevels
      have hchain := bounded_chain tallestPostfixed_strictMono.monotone
        (bounded_unary tallestPostfixed_strictMono (bounded_postfixed ih)) BinaryOp.loosest
      have hnested (hlt : d < maxDepth) := hchain (d + 1) (levels - 1) (by omega)
      apply (Ensures.nested hnested).mono
      rintro e ⟨hlt, he⟩
      have hpos : 0 < levels := by omega
      have hle : e.height ≤ tallest (levels - 1) := he.trans_eq (tallestPostfixed_add _)
      rw [← tallestPart_of_pos hpos] at hle
      exact ⟨hpos, hle⟩

theorem deeper_expression : Deeper Expr.height expression :=
  deeper_expressionWithin (maxDepth + 1)

theorem height_ofExpr?_le {e : Expr} {target : Target} (h : Target.ofExpr? e = some target) :
    target.height ≤ e.height := by
  unfold Target.ofExpr? at h
  split at h
  · cases h
    exact Nat.zero_le _
  · cases h
    rw [Target.height, Expr.height]
    omega
  · cases h

/-- An `if` with everything chained to it by `else` is one higher than its parts, which are all a level
deeper. -/
theorem bounded_ifFrom {block : Parser (List Stmt)} (h : Deeper Stmt.allHeight block) (rounds : Nat) :
    Bounded Stmt.height tallestStatement (ifFrom block rounds) := by
  induction rounds with
  | zero => exact fun _ _ _ => .error
  | succ rounds ih =>
      intro d levels hlevels
      apply (deeper_expression d levels hlevels).bind
      rintro condition ⟨hpos, hcondition⟩
      apply (h d levels hlevels).bind
      rintro body ⟨_, hbody⟩
      have hlow := tallestStatement_of_pos hpos
      apply Ensures.peek.bind
      intro t _
      split
      · apply Ensures.next.discard.bind
        intro _ _
        apply Ensures.peek.bind
        intro t' _
        split
        · have hnested (hlt : d < maxDepth) := ih (d + 1) (levels - 1) (by omega)
          apply Ensures.next.discard.bind
          intro _ _
          apply (Ensures.nested hnested).bind
          rintro chained ⟨_, hchained⟩
          refine .pure ?_
          have hle := tallestStatement_le (levels - 1)
          rw [← tallestPart_of_pos hpos] at hle
          simp only [Stmt.height, Stmt.allHeight]
          omega
        · apply (h d levels hlevels).bind
          rintro alternative ⟨_, halternative⟩
          refine .pure ?_
          rw [Stmt.height]
          omega
      · refine .pure ?_
        rw [Stmt.height]
        omega

theorem bounded_statement {block : Parser (List Stmt)} (h : Deeper Stmt.allHeight block) :
    Bounded (fun x : Stmt × Bool => x.1.height) tallestStatement (statement block) := by
  intro d levels hlevels
  have hexpression := deeper_expression d levels hlevels
  apply Ensures.peek.bind
  intro t _
  split
  · -- A declaration.
    apply Ensures.next.discard.bind
    intro _ _
    apply Ensures.name.bind
    intro name _
    apply Ensures.next.bind
    intro t' _
    split
    · apply hexpression.bind
      rintro value ⟨hpos, hvalue⟩
      apply Ensures.terminator.discard.bind
      intro _ _
      refine .pure ?_
      rw [tallestStatement_of_pos hpos]
      exact Nat.le_succ_of_le hvalue
    · exact .error
  · -- An `if`.
    exact Ensures.next.discard.bind fun _ _ =>
      (bounded_ifFrom h maxRounds d levels hlevels).bind fun s hs => .pure hs
  · -- A loop.
    apply Ensures.next.discard.bind
    intro _ _
    apply hexpression.bind
    rintro condition ⟨hpos, hcondition⟩
    apply (h d levels hlevels).bind
    rintro body ⟨_, hbody⟩
    refine .pure ?_
    rw [tallestStatement_of_pos hpos]
    exact Nat.succ_le_succ (Nat.max_le.mpr ⟨hcondition, hbody⟩)
  · exact Ensures.next.discard.bind fun _ _ => .pure (Nat.zero_le _)
  · -- An expression, which may turn out to be what an assignment changes.
    apply Ensures.get.bind
    intro c _
    apply hexpression.bind
    rintro e ⟨hpos, he⟩
    apply Ensures.peek.bind
    intro t' _
    rw [tallestStatement_of_pos hpos]
    split
    · apply Ensures.next.discard.bind
      intro _ _
      split
      · next target htarget =>
          apply hexpression.bind
          rintro value ⟨_, hvalue⟩
          apply Ensures.terminator.discard.bind
          intro _ _
          refine .pure ?_
          have hle := height_ofExpr?_le htarget
          exact Nat.le_succ_of_le (Nat.max_le.mpr ⟨Nat.le_trans hle he, hvalue⟩)
      · exact .error
    · exact Ensures.terminator.bind fun ended _ => .pure (Nat.le_succ_of_le he)

theorem ensures_blockFrom {block : Parser (List Stmt)} (h : Deeper Stmt.allHeight block)
    {d levels : Nat} (hlevels : d + levels = maxDepth) (found : List Stmt)
    (rounds : List PlacedToken) (hfound : ∀ s ∈ found, s.height ≤ tallestStatement levels) :
    Ensures d d (blockFrom block found rounds) fun body =>
      Stmt.allHeight body ≤ tallestStatement levels := by
  induction rounds generalizing found with
  | nil => exact .error
  | cons _ rounds ih =>
      apply Ensures.eat.bind
      intro closed _
      split
      · exact .pure (Stmt.allHeight_le fun s hs => hfound s (List.mem_reverse.mp hs))
      · apply Ensures.peek.bind
        intro t _
        split
        · exact .error
        · exact (bounded_statement h d levels hlevels).bind fun ⟨s, _⟩ hs =>
            ih (s :: found) (List.forall_mem_cons.mpr ⟨hs, hfound⟩)

/-- However many levels are allowed, a block keeps to the bound for the levels left. -/
theorem deeper_blockWithin (allowed : Nat) : Deeper Stmt.allHeight (blockWithin allowed) := by
  induction allowed with
  | zero => exact fun _ _ _ => Ensures.expect.bind fun _ _ => .error
  | succ allowed ih =>
      intro d levels hlevels
      have hbody (hlt : d < maxDepth) : Ensures (d + 1) (d + 1)
          (remaining >>= fun rounds => blockFrom (blockWithin allowed) [] rounds)
          fun body => Stmt.allHeight body ≤ tallestStatement (levels - 1) :=
        Ensures.remaining.bind fun rounds _ =>
          ensures_blockFrom ih (by omega) [] rounds fun s hs => absurd hs List.not_mem_nil
      apply Ensures.expect.bind
      intro _ _
      apply (Ensures.nested hbody).mono
      rintro body ⟨hlt, hlow⟩
      have hpos : 0 < levels := by omega
      have hle := tallestStatement_le (levels - 1)
      rw [← tallestPart_of_pos hpos] at hle
      exact ⟨hpos, Nat.le_trans hlow hle⟩

/-- The statements of a program are no higher than the levels allow, and neither is its result. -/
theorem ensures_programFrom (found : List Stmt) (rounds : List PlacedToken)
    (hfound : ∀ s ∈ found, s.height ≤ tallestStatement maxDepth) :
    Ensures 0 0 (programFrom found rounds) fun p => p.height ≤ tallestStatement maxDepth := by
  have hstatements : Stmt.allHeight found.reverse ≤ tallestStatement maxDepth :=
    Stmt.allHeight_le fun s hs => hfound s (List.mem_reverse.mp hs)
  induction rounds generalizing found with
  | nil => exact .pure (Nat.max_le.mpr ⟨hstatements, Nat.zero_le _⟩)
  | cons _ rounds ih =>
      apply Ensures.peek.bind
      intro t _
      split
      · exact .pure (Nat.max_le.mpr ⟨hstatements, Nat.zero_le _⟩)
      · have hstatement := bounded_statement (deeper_blockWithin (maxDepth + 1)) 0 maxDepth
          (Nat.zero_add _)
        apply hstatement.bind
        intro x hx
        split
        · exact .pure (Nat.max_le.mpr ⟨hstatements, hx⟩)
        · next s ended _ =>
            have hnext : ∀ s' ∈ s :: found, s'.height ≤ tallestStatement maxDepth :=
              List.forall_mem_cons.mpr ⟨hx, hfound⟩
            exact ih (s :: found) hnext
              (Stmt.allHeight_le fun s' hs' => hnext s' (List.mem_reverse.mp hs'))

end Parser

/-- What is read from tokens is no higher than all the levels allow. -/
theorem Program.height_le {tokens : List PlacedToken} {p : Program} (h : ofTokens tokens = .ok p) :
    p.height ≤ tallestStatement maxDepth := by
  have hread : (Parser.programFrom [] tokens (.start tokens)).map (·.1) = .ok p := h
  have hensures := Parser.ensures_programFrom [] tokens fun s hs => absurd hs List.not_mem_nil
  cases heq : Parser.programFrom [] tokens (.start tokens) with
  | error e =>
      rw [heq] at hread
      cases hread
  | ok x =>
      rw [heq] at hread
      cases hread
      exact (hensures (.start tokens) x.2 x.1 rfl heq).2

end ReplDaemon.Script
