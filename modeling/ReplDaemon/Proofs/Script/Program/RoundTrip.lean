import ReplDaemon.Proofs.Script.Program.Programs

/-!
# The round trip of programs

A program of moderate size never needs too many levels, so it is read back from its tokens. What is
read from any tokens has the shape of the programs that are spelt.
-/

namespace ReplDaemon.Script

mutual

/-- The number of expressions in an expression, itself included. -/
def Expr.nodes : Expr → Nat
  | .literal _ => 1
  | .var _ => 1
  | .list items => Expr.itemNodes items + 1
  | .map entries => Expr.entryNodes entries + 1
  | .unary _ e => e.nodes + 1
  | .binary _ lhs rhs => lhs.nodes + rhs.nodes + 1
  | .call _ arguments => Expr.itemNodes arguments + 1
  | .index base position => base.nodes + position.nodes + 1

/-- The number of expressions in the items of a list. -/
def Expr.itemNodes : List Expr → Nat
  | [] => 0
  | e :: rest => e.nodes + Expr.itemNodes rest

/-- The number of expressions in the entries of a map. -/
def Expr.entryNodes : List (Expr × Expr) → Nat
  | [] => 0
  | (key, value) :: rest => key.nodes + value.nodes + Expr.entryNodes rest

end

/-- The number of expressions in what an assignment changes. -/
def Target.nodes : Target → Nat
  | .variable _ => 0
  | .element _ position => position.nodes

mutual

/-- The number of statements and expressions in a statement. -/
def Stmt.nodes : Stmt → Nat
  | .declare _ value => value.nodes + 1
  | .assign target value => target.nodes + value.nodes + 1
  | .ifThen condition body => condition.nodes + Stmt.allNodes body + 1
  | .ifElse condition body alternative =>
    condition.nodes + Stmt.allNodes body + Stmt.allNodes alternative + 1
  | .whileLoop condition body => condition.nodes + Stmt.allNodes body + 1
  | .evaluate e => e.nodes + 1

/-- The number of statements and expressions in several statements. -/
def Stmt.allNodes : List Stmt → Nat
  | [] => 0
  | s :: rest => s.nodes + Stmt.allNodes rest

end

/-- The number of statements and expressions in a program. -/
def Program.nodes (p : Program) : Nat :=
  Stmt.allNodes p.statements + p.result.elim 0 (·.nodes + 1)

theorem needWithin_le (allowed level need : Nat) : needWithin allowed level need ≤ need + 1 := by
  unfold needWithin
  split <;> omega

theorem Expr.links_le_nodes (looseness : Nat) : (e : Expr) → e.links looseness ≤ e.nodes
  | .binary op lhs rhs => by
      have h := links_le_nodes looseness lhs
      rw [links, nodes]
      split <;> omega
  | .literal _ | .var _ | .list _ | .map _ | .unary _ _ | .call _ _ | .index _ _ => Nat.zero_le _

theorem Expr.indices_le_nodes : (e : Expr) → e.indices ≤ e.nodes
  | .index base position => by
      have h := indices_le_nodes base
      rw [indices, nodes]
      omega
  | .literal _ | .var _ | .list _ | .map _ | .unary _ _ | .binary _ _ _ | .call _ _ => Nat.zero_le _

mutual

/-- An expression needs two levels for each of its parts at most. -/
theorem Expr.need_le : (e : Expr) → e.need + 2 ≤ 2 * e.nodes
  | .literal _ => Nat.le_refl 2
  | .var _ => Nat.le_refl 2
  | .list items => by
      have h := Expr.itemNeed_le items
      rw [need, nodes]
      omega
  | .map entries => by
      have h := Expr.entryNeed_le entries
      rw [need, nodes]
      omega
  | .unary _ e => by
      have h := Expr.need_le e
      have hwithin := needWithin_le 1 e.level e.need
      rw [need, nodes]
      omega
  | .binary op lhs rhs => by
      have hl := Expr.need_le lhs
      have hr := Expr.need_le rhs
      have hlinks := lhs.links_le_nodes op.looseness
      have hwithin := needWithin_le (op.looseness + 1) lhs.level lhs.need
      have hwithin' := needWithin_le op.looseness rhs.level rhs.need
      rw [need, nodes]
      omega
  | .call _ arguments => by
      have h := Expr.itemNeed_le arguments
      rw [need, nodes]
      omega
  | .index base position => by
      have hb := Expr.need_le base
      have hp := Expr.need_le position
      have hindices := base.indices_le_nodes
      have hwithin := needWithin_le 0 base.level base.need
      rw [need, nodes]
      omega

theorem Expr.itemNeed_le : (items : List Expr) → Expr.itemNeed items ≤ 2 * Expr.itemNodes items
  | [] => Nat.le_refl 0
  | e :: rest => by
      have h := Expr.need_le e
      have hrest := Expr.itemNeed_le rest
      rw [Expr.itemNeed, Expr.itemNodes]
      omega

theorem Expr.entryNeed_le : (entries : List (Expr × Expr)) →
    Expr.entryNeed entries ≤ 2 * Expr.entryNodes entries
  | [] => Nat.le_refl 0
  | (key, value) :: rest => by
      have hkey := Expr.need_le key
      have hvalue := Expr.need_le value
      have hrest := Expr.entryNeed_le rest
      rw [Expr.entryNeed, Expr.entryNodes]
      omega

end

theorem Target.need_expr_le (target : Target) : target.expr.need ≤ 2 * target.nodes := by
  cases target with
  | «variable» name => exact Nat.le_refl 0
  | element name position =>
      have h := position.need_le
      have hneed : (Target.element name position).expr.need = position.need + 2 := by
        simp only [expr, Expr.need, Expr.indices, needWithin, Expr.level, Nat.le_refl, if_true]
        omega
      rw [hneed, nodes]
      exact h

mutual

/-- A statement needs two levels for each of its parts at most. -/
theorem Stmt.need_le : (s : Stmt) → s.need ≤ 2 * s.nodes
  | .declare _ value => by
      have h := value.need_le
      rw [need, nodes]
      omega
  | .assign target value => by
      have ht := target.need_expr_le
      have hv := value.need_le
      rw [need, nodes]
      omega
  | .ifThen condition body => by
      have hc := condition.need_le
      have hb := Stmt.allNeed_le body
      rw [need, nodes]
      omega
  | .ifElse condition body alternative => by
      have hc := condition.need_le
      have hb := Stmt.allNeed_le body
      have ha := Stmt.allNeed_le alternative
      rw [need, nodes]
      omega
  | .whileLoop condition body => by
      have hc := condition.need_le
      have hb := Stmt.allNeed_le body
      rw [need, nodes]
      omega
  | .evaluate e => by
      have h := e.need_le
      rw [need, nodes]
      omega

theorem Stmt.allNeed_le : (body : List Stmt) → Stmt.allNeed body ≤ 2 * Stmt.allNodes body
  | [] => Nat.le_refl 0
  | s :: rest => by
      have h := Stmt.need_le s
      have hrest := Stmt.allNeed_le rest
      rw [Stmt.allNeed, Stmt.allNodes]
      omega

end

/-- A program needs two levels for each of its parts at most. -/
theorem Program.need_le (p : Program) : p.need ≤ 2 * p.nodes := by
  have h := Stmt.allNeed_le p.statements
  unfold Program.need Program.nodes resultNeed
  cases p.result with
  | none =>
      simp only [Option.elim]
      omega
  | some e =>
      have he := e.need_le
      simp only [Option.elim]
      omega

/-- A value without parts. -/
def Value.Scalar : Value → Prop
  | .null | .bool _ | .int _ | .float _ | .text _ | .char _ => True
  | _ => False

/-- The operators in front of an operand, as they are spelt. -/
def UnaryOp.operators : List Operator :=
  [.minus, .not]

/-- The operators between two operands, as they are spelt. -/
def BinaryOp.operators : List Operator :=
  [.or, .and, .equalEqual, .notEqual, .less, .lessEqual, .greater, .greaterEqual, .plus, .minus,
    .times, .divide, .percent]

mutual

/-- Literals are scalars, and operators are those that there are. -/
def Expr.Shaped : Expr → Prop
  | .literal l => Value.Scalar l.value
  | .var _ => True
  | .list items => Expr.AllShaped items
  | .map entries => Expr.EntriesShaped entries
  | .unary op e => op.operator ∈ UnaryOp.operators ∧ e.Shaped
  | .binary op lhs rhs => op.operator ∈ BinaryOp.operators ∧ lhs.Shaped ∧ rhs.Shaped
  | .call _ arguments => Expr.AllShaped arguments
  | .index base position => base.Shaped ∧ position.Shaped

/-- Several expressions are shaped. -/
def Expr.AllShaped : List Expr → Prop
  | [] => True
  | e :: rest => e.Shaped ∧ Expr.AllShaped rest

/-- The keys and values of a map are shaped. -/
def Expr.EntriesShaped : List (Expr × Expr) → Prop
  | [] => True
  | (key, value) :: rest => key.Shaped ∧ value.Shaped ∧ Expr.EntriesShaped rest

end

/-- A name or an element of what it names. -/
def Expr.IsTarget : Expr → Prop
  | .var _ => True
  | .index (.var _) _ => True
  | _ => False

mutual

/-- The expressions are shaped, and assignments go to names and to their elements. -/
def Stmt.Shaped : Stmt → Prop
  | .declare _ value => value.Shaped
  | .assign target value => target.expr.IsTarget ∧ target.expr.Shaped ∧ value.Shaped
  | .ifThen condition body => condition.Shaped ∧ Stmt.AllShaped body
  | .ifElse condition body alternative =>
    condition.Shaped ∧ Stmt.AllShaped body ∧ Stmt.AllShaped alternative
  | .whileLoop condition body => condition.Shaped ∧ Stmt.AllShaped body
  | .evaluate e => e.Shaped

/-- Several statements are shaped. -/
def Stmt.AllShaped : List Stmt → Prop
  | [] => True
  | s :: rest => s.Shaped ∧ Stmt.AllShaped rest

end

/-- The statements of a program one after the other; one that nothing closes is its result. -/
def Program.lines (p : Program) : List (Stmt ⊕ Expr) :=
  p.statements.map .inl ++ p.result.toList.map .inr

/-- The lines of a program are shaped, and only the last one may be a result. -/
def Program.Shaped (p : Program) : Prop :=
  (∀ line ∈ p.lines, line.elim Stmt.Shaped Expr.Shaped) ∧
    ∀ (before after : List (Stmt ⊕ Expr)) (e : Expr), p.lines = before ++ .inr e :: after → after = []

mutual

theorem Expr.shaped : (e : Expr) → e.Shaped
  | .literal l => by cases l <;> trivial
  | .var _ => trivial
  | .list items => Expr.allShaped items
  | .map entries => Expr.entriesShaped entries
  | .unary op e => ⟨by cases op <;> decide, e.shaped⟩
  | .binary op lhs rhs => by
      refine ⟨?_, lhs.shaped, rhs.shaped⟩
      rcases op with _ | _ | _ | _ | (_ | _ | _ | _) | (_ | _ | _ | _ | _) <;> decide
  | .call _ arguments => Expr.allShaped arguments
  | .index base position => ⟨base.shaped, position.shaped⟩

theorem Expr.allShaped : (items : List Expr) → Expr.AllShaped items
  | [] => trivial
  | e :: rest => ⟨e.shaped, Expr.allShaped rest⟩

theorem Expr.entriesShaped : (entries : List (Expr × Expr)) → Expr.EntriesShaped entries
  | [] => trivial
  | (key, value) :: rest => ⟨key.shaped, value.shaped, Expr.entriesShaped rest⟩

end

mutual

theorem Stmt.shaped : (s : Stmt) → s.Shaped
  | .declare _ value => value.shaped
  | .assign target value => ⟨by cases target <;> trivial, target.expr.shaped, value.shaped⟩
  | .ifThen condition body => ⟨condition.shaped, Stmt.allShaped body⟩
  | .ifElse condition body alternative =>
    ⟨condition.shaped, Stmt.allShaped body, Stmt.allShaped alternative⟩
  | .whileLoop condition body => ⟨condition.shaped, Stmt.allShaped body⟩
  | .evaluate e => e.shaped

theorem Stmt.allShaped : (body : List Stmt) → Stmt.AllShaped body
  | [] => trivial
  | s :: rest => ⟨s.shaped, Stmt.allShaped rest⟩

end

/-- The syntax tree has no room for anything else. -/
theorem Program.shaped (p : Program) : p.Shaped := by
  refine ⟨fun line _ => ?_, fun before after e h => ?_⟩
  · cases line with
    | inl s => exact s.shaped
    | inr e => exact e.shaped
  · have hstatement (l : List (Stmt ⊕ Expr)) : p.statements.map .inl ≠ before ++ .inr e :: l := by
      intro heq
      have hmem : Sum.inr e ∈ p.statements.map (Sum.inl : Stmt → Stmt ⊕ Expr) := by
        rw [heq]
        exact List.mem_append_right _ List.mem_cons_self
      obtain ⟨s, _, hs⟩ := List.mem_map.mp hmem
      cases hs
    unfold lines at h
    cases hresult : p.result with
    | none =>
        rw [hresult, Option.toList_none, List.map_nil, List.append_nil] at h
        exact absurd h (hstatement after)
    | some r =>
        rw [hresult] at h
        rcases after.eq_nil_or_concat with hafter | ⟨front, last, hafter⟩
        · exact hafter
        · rw [hafter, List.concat_eq_append, ← List.cons_append, ← List.append_assoc] at h
          exact absurd (List.append_inj_left' h rfl) (hstatement front)

end ReplDaemon.Script
