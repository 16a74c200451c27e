import ReplDaemon.Proofs.Script.Watch.Faultless

/-!
# Integer arithmetic

Expressions of integer literals, and what they come to. Over the integers without bounds every one has a
value, as long as nothing is divided by zero. A run gives that value where 64 bits hold it and the value
of each expression inside, and is an error everywhere else.
-/

namespace ReplDaemon.Script

/-- Whether 64 bits hold an integer. -/
def Fits (n : Int) : Prop :=
  -2 ^ 63 ≤ n ∧ n < 2 ^ 63

theorem fits_toInt (i : Int64) : Fits i.toInt :=
  ⟨i.le_toInt, i.toInt_lt⟩

theorem checkedInt_of_fits {n : Int} (h : Fits n) : checkedInt n = .ok (.int (.ofInt n)) :=
  if_pos ⟨h.1, Int.le_sub_one_of_lt h.2⟩

theorem checkedInt_of_not_fits {n : Int} (h : ¬ Fits n) : checkedInt n = .error .integerOverflow :=
  if_neg fun hn => h ⟨hn.1, Int.lt_of_le_sub_one hn.2⟩

/-- Only one quotient does not fit. -/
theorem fits_tdiv_iff {x y : Int} (hx : Fits x) (hy : y ≠ 0) :
    Fits (x.tdiv y) ↔ ¬ (x = -2 ^ 63 ∧ y = -1) := by
  constructor
  · rintro hfits ⟨rfl, rfl⟩
    exact absurd hfits.2 (by decide)
  · intro hnot
    obtain ⟨hlower, hupper⟩ := hx
    have habs := Int.natAbs_tdiv_le_natAbs x y
    by_cases hmin : x = -2 ^ 63
    · have hne : y.natAbs ≠ 1 ∨ y = 1 := by omega
      rcases hne with hne | rfl
      · -- a divisor other than one and minus one halves the dividend at least
        have hhalf : (x.tdiv y).natAbs ≤ x.natAbs / 2 := by
          rw [Int.natAbs_tdiv]
          exact Nat.div_le_div_left (by omega) (by decide)
        constructor <;> omega
      · rw [Int.tdiv_one]
        exact ⟨hlower, hupper⟩
    · constructor <;> omega

theorem fits_tmod {x y : Int} (hx : Fits x) : Fits (x.tmod y) := by
  obtain ⟨hlower, hupper⟩ := hx
  have habs : (x.tmod y).natAbs ≤ x.natAbs := by
    rw [Int.natAbs_tmod]
    exact Nat.mod_le _ _
  rcases Int.le_total 0 x with hsign | hsign
  · have hnonneg := Int.tmod_nonneg y hsign
    constructor <;> omega
  · have hnonpos : 0 ≤ -(x.tmod y) := by
      rw [← Int.neg_tmod]
      exact Int.tmod_nonneg y (by omega)
    constructor <;> omega

namespace Arithmetic

/-- What an operator computes on integers without bounds: a quotient is truncated towards zero, and the
remainder has the sign of the dividend. -/
def exact (op : Arithmetic) (x y : Int) : Int :=
  match op with
  | .add => x + y
  | .subtract => x - y
  | .multiply => x * y
  | .divide => x.tdiv y
  | .remainder => x.tmod y

/-- Whether an operator may be applied to two integers. There is no quotient by zero, and no remainder
where the quotient is too large. -/
def Admits (op : Arithmetic) (x y : Int) : Prop :=
  match op with
  | .add | .subtract | .multiply => True
  | .divide => y ≠ 0
  | .remainder => y ≠ 0 ∧ ¬ (x = -2 ^ 63 ∧ y = -1)

/-- Machine arithmetic is exact where the operator may be applied and the value fits. -/
theorem onInts_of_fits (op : Arithmetic) {a b : Int64} (hadmits : op.Admits a.toInt b.toInt)
    (hfits : Fits (op.exact a.toInt b.toInt)) :
    op.onInts a b = .ok (.int (.ofInt (op.exact a.toInt b.toInt))) := by
  cases op with
  | add | subtract | multiply => exact checkedInt_of_fits hfits
  | divide => exact (if_neg hadmits).trans (checkedInt_of_fits hfits)
  | remainder =>
      obtain ⟨hzero, hmin⟩ := hadmits
      have hquotient := checkedInt_of_fits ((fits_tdiv_iff (fits_toInt a) hzero).mpr hmin)
      simp only [onInts, if_neg hzero, hquotient]
      exact checkedInt_of_fits hfits

/-- The errors of integer arithmetic. -/
def errors : List RuntimeError :=
  [.divisionByZero, .integerOverflow]

/-- Everywhere else, machine arithmetic is an error. -/
theorem onInts_of_not_fits (op : Arithmetic) {a b : Int64}
    (h : ¬ (op.Admits a.toInt b.toInt ∧ Fits (op.exact a.toInt b.toInt))) :
    ∃ error ∈ errors, op.onInts a b = .error error := by
  cases op with
  | add | subtract | multiply =>
      exact ⟨.integerOverflow, by decide, checkedInt_of_not_fits fun hfits => h ⟨trivial, hfits⟩⟩
  | divide =>
      by_cases hzero : b.toInt = 0
      · exact ⟨.divisionByZero, by decide, if_pos hzero⟩
      · have hover := checkedInt_of_not_fits fun hfits => h ⟨hzero, hfits⟩
        exact ⟨.integerOverflow, by decide, (if_neg hzero).trans hover⟩
  | remainder =>
      by_cases hzero : b.toInt = 0
      · exact ⟨.divisionByZero, by decide, if_pos hzero⟩
      · -- the remainder itself always fits, so it is the quotient that does not
        have hover := checkedInt_of_not_fits fun hquotient =>
          h ⟨⟨hzero, (fits_tdiv_iff (fits_toInt a) hzero).mp hquotient⟩, fits_tmod (fits_toInt a)⟩
        refine ⟨.integerOverflow, by decide, ?_⟩
        simp only [onInts, if_neg hzero, hover]
        rfl

end Arithmetic

/-- An expression of integer literals. -/
inductive IntExpr where
  | literal (i : Int64)
  | negate (operand : IntExpr)
  | arithmetic (op : Arithmetic) (lhs rhs : IntExpr)

namespace IntExpr

/-- The expression of the language. -/
def toExpr : IntExpr → Expr
  | literal i => .literal (.int i)
  | negate operand => .unary .negate operand.toExpr
  | arithmetic op lhs rhs => .binary (.arithmetic op) lhs.toExpr rhs.toExpr

/-- The value over the integers without bounds; of no meaning where something is divided by zero. -/
def value : IntExpr → Int
  | literal i => i.toInt
  | negate operand => -operand.value
  | arithmetic op lhs rhs => op.exact lhs.value rhs.value

/-- The expressions inside an expression, and itself. -/
def parts : IntExpr → List IntExpr
  | literal i => [literal i]
  | negate operand => negate operand :: operand.parts
  | arithmetic op lhs rhs => arithmetic op lhs rhs :: (lhs.parts ++ rhs.parts)

/-- Whether the operator of an expression may be applied to the values of its operands. -/
def Admissible : IntExpr → Prop
  | literal _ | negate _ => True
  | arithmetic op lhs rhs => op.Admits lhs.value rhs.value

/-- Whether 64 bits hold the value of an expression and of each one inside, with no divisor that is zero
and no remainder of the least integer by minus one. -/
def Exact (e : IntExpr) : Prop :=
  ∀ part ∈ e.parts, part.Admissible ∧ Fits part.value

theorem exact_literal (i : Int64) : (literal i).Exact := by
  intro part hpart
  obtain rfl := List.mem_singleton.mp hpart
  exact ⟨trivial, fits_toInt i⟩

theorem exact_negate_iff (e : IntExpr) : (negate e).Exact ↔ e.Exact ∧ Fits (-e.value) := by
  simp only [Exact, parts, List.forall_mem_cons, Admissible, true_and, value]
  exact and_comm

theorem exact_arithmetic_iff (op : Arithmetic) (lhs rhs : IntExpr) :
    (arithmetic op lhs rhs).Exact ↔ (lhs.Exact ∧ rhs.Exact) ∧
      op.Admits lhs.value rhs.value ∧ Fits (op.exact lhs.value rhs.value) := by
  simp only [Exact, parts, List.forall_mem_cons, List.forall_mem_append, Admissible, value]
  exact and_comm

theorem Exact.fits {e : IntExpr} (h : e.Exact) : Fits e.value := by
  cases e <;> exact (h _ List.mem_cons_self).2

variable (vars : Bindings) (c : Context)

/-- What a run comes to: the value where it is exact, or an error of integer arithmetic. -/
theorem run_eq (e : IntExpr) :
    (e.Exact ∧ e.toExpr.run vars c = (.ok (.int (.ofInt e.value)), c)) ∨
      (¬ e.Exact ∧ ∃ error ∈ Arithmetic.errors, e.toExpr.run vars c = (.error (.failed error), c)) := by
  induction e with
  | literal i =>
      refine .inl ⟨exact_literal i, ?_⟩
      rw [value, Int64.ofInt_toInt]
      rfl
  | negate e ih =>
      rw [exact_negate_iff, toExpr, Expr.run]
      rcases ih with ⟨hexact, hrun⟩ | ⟨hnot, error, herror, hrun⟩
      · have hvalue := Int64.toInt_ofInt_of_le hexact.fits.1 hexact.fits.2
        rw [bind_apply_ok hrun, UnaryOp.apply, hvalue]
        by_cases hfits : Fits (-e.value)
        · rw [checkedInt_of_fits hfits]
          exact .inl ⟨⟨hexact, hfits⟩, rfl⟩
        · rw [checkedInt_of_not_fits hfits]
          exact .inr ⟨fun h => hfits h.2, .integerOverflow, by decide, rfl⟩
      · exact .inr ⟨fun h => hnot h.1, error, herror, bind_apply_error hrun⟩
  | arithmetic op lhs rhs ihl ihr =>
      rw [exact_arithmetic_iff, toExpr, Expr.run]
      rcases ihl with ⟨hl, hlrun⟩ | ⟨hnot, error, herror, hlrun⟩
      · rcases ihr with ⟨hr, hrrun⟩ | ⟨hnot, error, herror, hrrun⟩
        · have hlvalue := Int64.toInt_ofInt_of_le hl.fits.1 hl.fits.2
          have hrvalue := Int64.toInt_ofInt_of_le hr.fits.1 hr.fits.2
          rw [bind_apply_ok hlrun, bind_apply_ok hrrun]
          by_cases hop : op.Admits lhs.value rhs.value ∧ Fits (op.exact lhs.value rhs.value)
          · have hok := op.onInts_of_fits (a := .ofInt lhs.value) (b := .ofInt rhs.value)
              (by rw [hlvalue, hrvalue]; exact hop.1) (by rw [hlvalue, hrvalue]; exact hop.2)
            rw [hlvalue, hrvalue] at hok
            refine .inl ⟨⟨⟨hl, hr⟩, hop⟩, ?_⟩
            rw [Arithmetic.apply, hok]
            rfl
          · obtain ⟨error, herror, hfail⟩ := op.onInts_of_not_fits (a := .ofInt lhs.value)
              (b := .ofInt rhs.value) (by rw [hlvalue, hrvalue]; exact hop)
            refine .inr ⟨fun h => hop h.2, error, herror, ?_⟩
            rw [Arithmetic.apply, hfail]
            rfl
        · refine .inr ⟨fun h => hnot h.1.2, error, herror, ?_⟩
          rw [bind_apply_ok hlrun, bind_apply_error hrrun]
      · exact .inr ⟨fun h => hnot h.1.1, error, herror, bind_apply_error hlrun⟩

/-- Arithmetic that is exact or an error: a run comes to an integer just where the arithmetic is exact,
and then to its value; it is an error of integer arithmetic everywhere else; and no operation in it is
applied where it is not defined. -/
structure ExactOrError (e : IntExpr) : Prop where
  comes_to_iff (n : Int64) (d : Context) :
    e.toExpr.run vars c = (.ok (.int n), d) ↔ e.Exact ∧ n.toInt = e.value ∧ d = c
  fails : ¬ e.Exact → ∃ error, e.toExpr.run vars c = (.error (.failed error), c) ∧
    (error.message = "division by zero" ∨ error.message = "integer overflow")
  faultless (noted : List Value) (fault : Fault) :
    (e.toExpr.watched vars (c, noted)).1 ≠ .error (.fault fault)

theorem message_of_mem_errors {error : RuntimeError} (h : error ∈ Arithmetic.errors) :
    error.message = "division by zero" ∨ error.message = "integer overflow" := by
  simp only [Arithmetic.errors, List.mem_cons, List.not_mem_nil, or_false] at h
  rcases h with rfl | rfl
  · exact .inl rfl
  · exact .inr rfl

/-- Integer arithmetic is exact or an error. -/
theorem exactOrError (e : IntExpr) : e.ExactOrError vars c where
  comes_to_iff n d := by
    rcases e.run_eq vars c with ⟨hexact, hrun⟩ | ⟨hnot, error, -, hrun⟩
    · have hvalue := Int64.toInt_ofInt_of_le hexact.fits.1 hexact.fits.2
      rw [hrun]
      constructor
      · rintro ⟨⟩
        exact ⟨hexact, hvalue, rfl⟩
      · rintro ⟨-, hn, rfl⟩
        rw [← hn, Int64.ofInt_toInt]
    · rw [hrun]
      exact ⟨nofun, fun h => absurd h.1 hnot⟩
  fails hnot := by
    rcases e.run_eq vars c with ⟨hexact, -⟩ | ⟨-, error, herror, hrun⟩
    · exact absurd hexact hnot
    · exact ⟨error, hrun, message_of_mem_errors herror⟩
  faultless noted fault := by
    have hvars : vars.All fun _ => True := fun _ _ => trivial
    obtain ⟨seen, hwatched, -⟩ := e.toExpr.watched_mirrors .unconditional hvars c noted trivial
    rw [hwatched]
    rcases (e.toExpr.run vars c).1 with _ | _ <;> exact nofun

/-- The remainder of the least integer by minus one would be zero, but its quotient does not fit. -/
example :
    (arithmetic .remainder (arithmetic .subtract (negate (literal 9223372036854775807)) (literal 1))
      (negate (literal 1))).toExpr.run vars c = (.error (.failed .integerOverflow), c) := rfl

end IntExpr

end ReplDaemon.Script
