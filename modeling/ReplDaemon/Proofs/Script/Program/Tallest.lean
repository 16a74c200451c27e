import ReplDaemon.Proofs.Script.Program.Programs
import ReplDaemon.Proofs.Script.Program.Height

/-!
# The tallest programs

Towers of lists, indices and chains of operators use up every level that is left at each depth and are
accepted all the same, so the bound for the height of what is read is exact. It is far above the deepest
nesting accepted.
-/

namespace ReplDaemon.Script

namespace Expr

/-- The number one. -/
def one : Expr := .literal (.int 1)

/-- An expression with some indices behind it. -/
def indexed (base : Expr) : (count : Nat) → Expr
  | 0 => base
  | count + 1 => .index (base.indexed count) one

/-- An expression with a chain of one operator behind it. -/
def chained (op : BinaryOp) (lhs : Expr) : (links : Nat) → Expr
  | 0 => lhs
  | links + 1 => .binary op (lhs.chained op links) one

/-- The number one behind some signs. -/
def negated : (signs : Nat) → Expr
  | 0 => one
  | signs + 1 => .unary .negate (negated signs)

theorem height_indexed (base : Expr) (count : Nat) :
    (base.indexed count).height = base.height + count := by
  induction count with
  | zero => rfl
  | succ count ih =>
      rw [indexed, height, ih, show one.height = 0 from rfl]
      omega

theorem height_chained (op : BinaryOp) (lhs : Expr) (links : Nat) :
    (lhs.chained op links).height = lhs.height + links := by
  induction links with
  | zero => rfl
  | succ links ih =>
      rw [chained, height, ih, show one.height = 0 from rfl]
      omega

theorem height_negated (signs : Nat) : (negated signs).height = signs := by
  induction signs with
  | zero => rfl
  | succ signs ih => rw [negated, height, ih]

theorem level_indexed {base : Expr} (h : base.level = 0) (count : Nat) :
    (base.indexed count).level = 0 := by
  cases count with
  | zero => exact h
  | succ count => rfl

theorem indices_indexed {base : Expr} (h : base.indices = 0) (count : Nat) :
    (base.indexed count).indices = count := by
  induction count with
  | zero => exact h
  | succ count ih => rw [indexed, indices, ih]

theorem needWithin_of_le {allowed level need : Nat} (h : level ≤ allowed) :
    needWithin allowed level need = need :=
  if_pos h

/-- Indices need no more levels than there are, if one is left for the expression in the last. -/
theorem need_indexed_le {base : Expr} (hlevel : base.level = 0) (hindices : base.indices = 0)
    {need : Nat} (hneed : base.need ≤ need) {count : Nat} (hcount : count < need) :
    (base.indexed count).need ≤ need := by
  induction count with
  | zero => exact hneed
  | succ count ih =>
      have hrest := ih (Nat.lt_of_succ_lt hcount)
      rw [indexed, Expr.need, level_indexed hlevel, needWithin_of_le (Nat.le_refl 0),
        indices_indexed hindices, show one.need = 0 from rfl]
      omega

theorem level_chained_le {op : BinaryOp} {lhs : Expr} (h : lhs.level ≤ op.looseness) (links : Nat) :
    (lhs.chained op links).level ≤ op.looseness + 1 := by
  cases links with
  | zero => exact Nat.le_succ_of_le h
  | succ links => exact Nat.le_refl _

theorem links_chained {op : BinaryOp} {lhs : Expr} (h : lhs.level ≤ op.looseness) (links : Nat) :
    (lhs.chained op links).links op.looseness = links := by
  induction links with
  | zero => exact links_eq_zero (Nat.ne_of_lt (Nat.lt_succ_of_le h))
  | succ links ih => rw [chained, Expr.links, if_pos rfl, ih]

/-- A chain needs no more levels than its left operand and its links, whichever are more. -/
theorem need_chained_le {op : BinaryOp} {lhs : Expr} (hlevel : lhs.level ≤ op.looseness) {need : Nat}
    (hneed : lhs.need ≤ need) {links : Nat} (hlinks : links ≤ need) :
    (lhs.chained op links).need ≤ need := by
  induction links with
  | zero => exact hneed
  | succ links ih =>
      have hrest := ih (Nat.le_of_succ_le hlinks)
      have hone : needWithin op.looseness one.level one.need = 0 := needWithin_of_le (Nat.zero_le _)
      rw [chained, Expr.need, needWithin_of_le (level_chained_le hlevel links),
        links_chained hlevel, hone]
      omega

theorem level_negated_le (signs : Nat) : (negated signs).level ≤ 1 := by
  cases signs with
  | zero => exact Nat.zero_le 1
  | succ signs => exact Nat.le_refl 1

theorem need_negated (signs : Nat) : (negated signs).need = signs := by
  induction signs with
  | zero => rfl
  | succ signs ih => rw [negated, Expr.need, needWithin_of_le (level_negated_le signs), ih]

end Expr

/-- One operator of each looseness. -/
def BinaryOp.ofLooseness : (looseness : Nat) → BinaryOp
  | 0 | 1 => .arithmetic .multiply
  | 2 => .arithmetic .add
  | 3 => .compare .less
  | 4 => .equal
  | 5 => .and
  | _ => .or

theorem BinaryOp.looseness_ofLooseness :
    ∀ looseness < loosest, (ofLooseness (looseness + 1)).looseness = looseness + 1 := by
  decide

namespace Expr

/-- An expression with a chain of the same length for each looseness behind it, up to some
looseness. -/
def layered (base : Expr) (links : Nat) : (looseness : Nat) → Expr
  | 0 => base
  | looseness + 1 => (base.layered links looseness).chained (.ofLooseness (looseness + 1)) links

theorem height_layered (base : Expr) (links looseness : Nat) :
    (base.layered links looseness).height = base.height + looseness * links := by
  induction looseness with
  | zero => rw [layered, Nat.zero_mul, Nat.add_zero]
  | succ looseness ih => rw [layered, height_chained, ih, Nat.succ_mul, Nat.add_assoc]

/-- The chains of all loosenesses share their levels: each gives back what it took. -/
theorem need_layered_le {base : Expr} (hlevel : base.level ≤ 1) {need : Nat} (hneed : base.need ≤ need)
    {links : Nat} (hlinks : links ≤ need) (looseness : Nat) (hle : looseness ≤ BinaryOp.loosest) :
    (base.layered links looseness).level ≤ looseness + 1 ∧
      (base.layered links looseness).need ≤ need := by
  induction looseness with
  | zero => exact ⟨hlevel, hneed⟩
  | succ looseness ih =>
      obtain ⟨hlevel', hneed'⟩ := ih (Nat.le_of_succ_le hle)
      have hop := BinaryOp.looseness_ofLooseness looseness hle
      rw [← hop] at hlevel'
      refine ⟨?_, need_chained_le hlevel' hneed' hlinks⟩
      have hchained := level_chained_le hlevel' links
      rwa [hop] at hchained

/-- Lists in each other, each with as many indices and operators behind it as there are levels. -/
def tower : (levels : Nat) → Expr
  | 0 => .list []
  | levels + 1 =>
    ((list [tower levels]).indexed levels).layered (levels + 1) BinaryOp.loosest

/-- A tower is as tall as an expression can be. -/
theorem height_tower (levels : Nat) : (tower levels).height = tallest levels := by
  induction levels with
  | zero => rfl
  | succ levels ih =>
      rw [tower, height_layered, height_indexed, height, itemHeight, itemHeight, ih, tallest,
        BinaryOp.loosest]
      omega

theorem need_tower_le (levels : Nat) : (tower levels).need ≤ levels := by
  induction levels with
  | zero => exact Nat.le_refl 0
  | succ levels ih =>
      have hlist : (list [tower levels]).need ≤ levels + 1 := by
        rw [Expr.need, itemNeed, itemNeed]
        omega
      have hindexed : ((list [tower levels]).indexed levels).need ≤ levels + 1 :=
        need_indexed_le rfl rfl hlist (Nat.lt_succ_self levels)
      have hlevel : ((list [tower levels]).indexed levels).level ≤ 1 :=
        (level_indexed rfl levels).trans_le (Nat.zero_le 1)
      exact (need_layered_le hlevel hindexed (Nat.le_refl _) BinaryOp.loosest (Nat.le_refl _)).2

end Expr

namespace Program

/-- The tokens of a program, all in one place. -/
def placed (p : Program) : List PlacedToken :=
  p.tokens.map fun token => { token, position := .start }

theorem ofTokens_placed {p : Program} (h : p.need ≤ maxDepth) : ofTokens p.placed = .ok p := by
  have htokens : p.placed.map (·.token) = p.tokens := by
    rw [placed, List.map_map]
    exact List.map_id _
  rcases ofTokens_of_tokens htokens with ⟨_, hok⟩ | ⟨hlt, _⟩
  · exact hok
  · exact absurd h (Nat.not_le.mpr hlt)

/-- A condition as tall as the levels allow, and nothing to do. -/
def tall (levels : Nat) : Program where
  statements := [.ifThen (.tower levels) []]
  result := none

theorem need_tall_le (levels : Nat) : (tall levels).need ≤ levels + 1 := by
  have h := Expr.need_tower_le levels
  simp only [tall, need, Stmt.allNeed, Stmt.need, resultNeed, Option.elim]
  omega

theorem height_tall (levels : Nat) : (tall levels).height = tallestStatement (levels + 1) := by
  simp only [tall, height, Stmt.allHeight, Stmt.height, Option.elim, Expr.height_tower,
    tallestStatement, Nat.max_zero]

theorem tallestStatement_maxDepth : tallestStatement maxDepth = 56898 := by
  decide +kernel

/-- The programs that are accepted are at most 56898 nodes high, and no smaller bound holds for all of
them. -/
theorem height_bounded_iff (bound : Nat) :
    (∀ (tokens : List PlacedToken) (p : Program), ofTokens tokens = .ok p → p.height ≤ bound) ↔
      56898 ≤ bound := by
  rw [← tallestStatement_maxDepth]
  constructor
  · intro h
    have hok : ofTokens (tall 127).placed = .ok (tall 127) := ofTokens_placed (need_tall_le 127)
    have hle := h _ _ hok
    rwa [height_tall] at hle
  · intro h tokens p hok
    exact Nat.le_trans (height_le hok) h

/-- A product whose first factor has many signs in front of it. -/
def signedProduct : Program where
  statements := []
  result := some ((Expr.negated 126).chained (.arithmetic .multiply) 3)

theorem need_signedProduct_le : signedProduct.need ≤ maxDepth := by
  have hneed : ((Expr.negated 126).chained (.arithmetic .multiply) 3).need ≤ 126 :=
    Expr.need_chained_le (Expr.level_negated_le 126) (Nat.le_of_eq (Expr.need_negated 126)) (by decide)
  have hmax : maxDepth = 128 := rfl
  simp only [signedProduct, need, Stmt.allNeed, resultNeed, Option.elim]
  omega

theorem height_signedProduct : signedProduct.height = 129 := by
  have hheight : ((Expr.negated 126).chained (.arithmetic .multiply) 3).height = 129 := by
    rw [Expr.height_chained, Expr.height_negated]
  exact (Nat.zero_max _).trans hheight

/-- Signs and then factors: each of them keeps to the levels there are, but the tree has both on top of
each other. -/
theorem not_height_le_maxDepth :
    ∃ tokens : List PlacedToken,
      tokens.map (·.token) = List.replicate 126 (.operator .minus) ++
          [.int 1, .operator .times, .int 1, .operator .times, .int 1, .operator .times, .int 1] ∧
        ∃ p : Program, ofTokens tokens = .ok p ∧ ¬ p.height ≤ maxDepth := by
  refine ⟨signedProduct.placed, ?_, signedProduct, ofTokens_placed need_signedProduct_le, ?_⟩
  · rfl
  · rw [height_signedProduct]
    decide

end Program

end ReplDaemon.Script
