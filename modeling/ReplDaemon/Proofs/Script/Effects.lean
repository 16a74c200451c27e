import Mathlib.Tactic
import ReplDaemon.Script.Run

/-!
# What runs are built from

Every run of an expression is built from a few effects that follow one another, and so is every run of
a statement, with loops. What holds of the effects and is kept by sequences and loops therefore holds
of all programs, and need not be shown for each form of expression and statement.
-/

namespace ReplDaemon.Script

section Apply

variable {E S α β : Type}

theorem bind_apply (r : ExceptT E (StateM S) α) (f : α → ExceptT E (StateM S) β) (s : S) :
    (r >>= f) s =
      match r s with
      | (.ok a, t) => f a t
      | (.error e, t) => (.error e, t) := by
  show (ExceptT.bind r f) s = _
  simp only [ExceptT.bind, ExceptT.mk, bind, StateT.bind]
  rcases r s with ⟨o, t⟩
  cases o <;> rfl

theorem bind_apply_ok {r : ExceptT E (StateM S) α} {f : α → ExceptT E (StateM S) β}
    {s t : S} {a : α} (h : r s = (.ok a, t)) : (r >>= f) s = f a t := by
  rw [bind_apply, h]

theorem bind_apply_error {r : ExceptT E (StateM S) α} {f : α → ExceptT E (StateM S) β}
    {s t : S} {e : E} (h : r s = (.error e, t)) : (r >>= f) s = (.error e, t) := by
  rw [bind_apply, h]

theorem bind_eq_ok {r : ExceptT E (StateM S) α} {f : α → ExceptT E (StateM S) β} {s u : S} {b : β}
    (h : (r >>= f) s = (.ok b, u)) : ∃ a t, r s = (.ok a, t) ∧ f a t = (.ok b, u) := by
  rcases hr : r s with ⟨e | a, t⟩
  · rw [bind_apply_error hr] at h
    cases h
  · rw [bind_apply_ok hr] at h
    exact ⟨a, t, rfl, h⟩

theorem discard_eq_bind (r : ExceptT E (StateM S) α) :
    discard r = (r >>= fun _ => pure ⟨⟩) := by
  funext s
  rw [bind_apply]
  show (ExceptT.map (fun _ => PUnit.unit) r) s = _
  simp only [ExceptT.map, ExceptT.mk, bind, StateT.bind]
  rcases r s with ⟨o, t⟩
  cases o <;> rfl

theorem pure_apply (a : α) (s : S) : (pure a : ExceptT E (StateM S) α) s = (.ok a, s) := rfl

theorem throw_apply (e : E) (s : S) :
    (throw e : ExceptT E (StateM S) α) s = (.error e, s) := rfl

theorem get_apply (s : S) : (get : ExceptT E (StateM S) S) s = (.ok s, s) := rfl

theorem modify_apply (f : S → S) (s : S) :
    (modify f : ExceptT E (StateM S) PUnit) s = (.ok ⟨⟩, f s) := rfl

end Apply

namespace Run

variable {α : Type}

theorem fail_apply (e : RuntimeError) (c : Context) :
    (Run.fail e : Run α) c = (.error (.failed e), c) := rfl

theorem ofExcept_eq_ok {x : Except RuntimeError α} {a : α} {c d : Context}
    (h : Run.ofExcept x c = (.ok a, d)) : x = .ok a ∧ d = c := by
  cases x <;> cases h
  exact ⟨rfl, rfl⟩

theorem checkpoint_apply (c : Context) :
    checkpoint c = if c.cancelled then (.error .cancelled, c) else (.ok (), c.wait 1) := by
  rw [checkpoint, bind_apply, get_apply]
  by_cases h : c.cancelled
  · simp only [h, if_true]
    rfl
  · simp only [h]
    rfl

theorem sleepFor_apply (time : Nat) (c : Context) :
    sleepFor time c =
      if c.cancelled then (.error .cancelled, c)
      else if (c.sleep (time * millisecond)).1 then (.ok (), (c.sleep (time * millisecond)).2)
      else (.error .cancelled, (c.sleep (time * millisecond)).2) := by
  rw [sleepFor, bind_apply, get_apply]
  by_cases h : c.cancelled
  · simp only [h, if_true]
    rfl
  · simp only [h]
    rcases c.sleep (time * millisecond) with ⟨completed, d⟩
    cases completed <;> rfl

/-- Runs that are built from single effects. -/
inductive Built : {α : Type} → Run α → Prop where
  | pure {α : Type} (a : α) : Built (pure a : Run α)
  | fail {α : Type} (e : RuntimeError) : Built (Run.fail e : Run α)
  | checkpoint : Built checkpoint
  | sleep (time : Nat) : Built (sleepFor time)
  | print (s : String) : Built (modify (·.printLine s) : Run PUnit)
  | wait (time : Nat) : Built (modify (·.wait time) : Run PUnit)
  | bind {α β : Type} {r : Run α} {f : α → Run β} (head : Built r) (tail : ∀ a, Built (f a)) :
      Built (r >>= f)

theorem Built.ofExcept (x : Except RuntimeError α) : Built (Run.ofExcept x) := by
  cases x with
  | error e => exact .fail e
  | ok a => exact .pure a

end Run

theorem Builtin.call_built (f : Builtin) (arguments : List Value) :
    (f.call arguments).Built := by
  unfold Builtin.call
  split
  all_goals
    first
      | exact .pure _
      | exact .fail _
      | exact .ofExcept _
      | exact .bind (.print _) fun _ => .pure _
      | exact .bind (.ofExcept _) fun _ => .pure _
      | exact .bind (.ofExcept _) fun _ => .bind (.sleep _) fun _ => .pure _
      | exact .bind (.ofExcept _) fun _ => .bind (.wait _) fun _ => .pure _

theorem call_built (name : String) (arguments : List Value) : (call name arguments).Built := by
  unfold call
  split
  · exact Builtin.call_built _ arguments
  · exact .fail _

mutual

/-- The run of an expression is built from single effects. -/
theorem Expr.run_built (vars : Bindings) : (e : Expr) → (e.run vars).Built
  | .literal l => by
      rw [Expr.run]
      exact .pure _
  | .var name => by
      rw [Expr.run]
      split
      · exact .pure _
      · exact .fail _
  | .list items => by
      rw [Expr.run]
      exact .bind (runItems_built vars [] items) fun _ => .pure _
  | .map entries => by
      rw [Expr.run]
      exact .bind (runEntries_built vars [] entries) fun _ => .pure _
  | .unary op operand => by
      rw [Expr.run]
      exact .bind (Expr.run_built vars operand) fun _ => .ofExcept _
  | .binary .and lhs rhs => by
      rw [Expr.run]
      refine .bind (Expr.run_built vars lhs) fun a => ?_
      split
      · exact .bind (Expr.run_built vars rhs) fun _ => .pure _
      · exact .pure _
  | .binary .or lhs rhs => by
      rw [Expr.run]
      refine .bind (Expr.run_built vars lhs) fun a => ?_
      split
      · exact .pure _
      · exact .bind (Expr.run_built vars rhs) fun _ => .pure _
  | .binary .equal lhs rhs => by
      rw [Expr.run]
      exact .bind (Expr.run_built vars lhs) fun _ =>
        .bind (Expr.run_built vars rhs) fun _ => .pure _
  | .binary .notEqual lhs rhs => by
      rw [Expr.run]
      exact .bind (Expr.run_built vars lhs) fun _ =>
        .bind (Expr.run_built vars rhs) fun _ => .pure _
  | .binary (.compare op) lhs rhs => by
      rw [Expr.run]
      exact .bind (Expr.run_built vars lhs) fun _ =>
        .bind (Expr.run_built vars rhs) fun _ => .ofExcept _
  | .binary (.arithmetic op) lhs rhs => by
      rw [Expr.run]
      exact .bind (Expr.run_built vars lhs) fun _ =>
        .bind (Expr.run_built vars rhs) fun _ => .ofExcept _
  | .index base position => by
      rw [Expr.run]
      exact .bind (Expr.run_built vars base) fun _ =>
        .bind (Expr.run_built vars position) fun _ => .ofExcept _
  | .call name arguments => by
      rw [Expr.run]
      exact .bind (runArguments_built vars [] arguments) fun _ => call_built name _

theorem runItems_built (vars : Bindings) (found : List Value) :
    (items : List Expr) → (runItems vars found items).Built
  | [] => by
      rw [runItems]
      exact .pure _
  | e :: es => by
      rw [runItems]
      exact .bind (Expr.run_built vars e) fun _ =>
        .bind (.ofExcept _) fun v => runItems_built vars (v :: found) es

theorem runEntries_built (vars : Bindings) (found : List (Value × Value)) :
    (entries : List (Expr × Expr)) → (runEntries vars found entries).Built
  | [] => by
      rw [runEntries]
      exact .pure _
  | (k, e) :: es => by
      rw [runEntries]
      exact .bind (Expr.run_built vars k) fun _ => .bind (Expr.run_built vars e) fun _ =>
        .bind (.ofExcept _) fun _ => .bind (.ofExcept _) fun entries =>
          runEntries_built vars entries es

theorem runArguments_built (vars : Bindings) (found : List Value) :
    (arguments : List Expr) → (runArguments vars found arguments).Built
  | [] => by
      rw [runArguments]
      exact .pure _
  | e :: es => by
      rw [runArguments]
      exact .bind (Expr.run_built vars e) fun v => runArguments_built vars (v :: found) es

end

namespace Action

/-- Actions, for every bound on the rounds of their loops, that are built from runs and from reading and
setting variables. -/
inductive Built : {α : Type} → (Nat → Action α) → Prop where
  | pure {α : Type} (a : α) : Built (fun _ => (pure a : Action α))
  | ofRun {α : Type} {r : Bindings → Run α} (run : ∀ vars, (r vars).Built) :
      Built (fun _ => .ofRun r)
  | bindName (name : String) (value : Value) : Built (fun _ => bindName name value)
  | bindingOf (name : String) : Built (fun _ => bindingOf? name)
  | bind {α β : Type} {a : Nat → Action α} {f : α → Nat → Action β} (head : Built a)
      (tail : ∀ x, Built (f x)) : Built (fun rounds => a rounds >>= fun x => f x rounds)
  | loop {condition : Nat → Action Bool} {body : Nat → Action Unit} (test : Built condition)
      (round : Built body) :
      Built (fun rounds => repeatWhile (condition rounds) (body rounds) rounds)

theorem Built.discard {α : Type} {a : Nat → Action α} (h : Built a) :
    Built (fun rounds => Functor.discard (a rounds)) := by
  simp only [discard_eq_bind]
  exact .bind h fun _ => .pure _

end Action

theorem Expr.holds_built (e : Expr) : Action.Built (fun _ => e.holds) :=
  .bind (.ofRun fun vars => e.run_built vars) fun _ => .pure _

mutual

/-- The run of a statement is built from runs, variables and loops. -/
theorem Stmt.run_built : (s : Stmt) → Action.Built (fun rounds => s.run rounds)
  | .declare name e => by
      simp only [Stmt.run]
      exact .bind (.ofRun fun vars => e.run_built vars) fun v => .bindName name v
  | .assign (.variable name) e => by
      simp only [Stmt.run]
      exact .bind (Action.Built.discard (.bindingOf name)) fun _ =>
        .bind (.ofRun fun vars => e.run_built vars) fun v => .bindName name v
  | .assign (.element name position) e => by
      simp only [Stmt.run]
      exact .bind (.ofRun fun vars => position.run_built vars) fun i =>
        .bind (.ofRun fun vars => e.run_built vars) fun v => .bind (.bindingOf name) fun container =>
          .bind (.ofRun fun _ => .ofExcept _) fun container => .bindName name container
  | .ifThen condition body => by
      simp only [Stmt.run]
      refine .bind condition.holds_built fun b => ?_
      cases b with
      | true => exact runAll_built body
      | false => exact .pure _
  | .ifElse condition body alternative => by
      simp only [Stmt.run]
      refine .bind condition.holds_built fun b => ?_
      cases b with
      | true => exact runAll_built body
      | false => exact runAll_built alternative
  | .whileLoop condition body => by
      simp only [Stmt.run]
      exact .loop condition.holds_built (runAll_built body)
  | .evaluate e => by
      simp only [Stmt.run]
      exact .discard (.ofRun fun vars => e.run_built vars)

theorem runAll_built : (ss : List Stmt) → Action.Built (fun rounds => runAll rounds ss)
  | [] => by
      simp only [runAll]
      exact .pure _
  | s :: ss => by
      simp only [runAll]
      exact .bind (.ofRun fun _ => .checkpoint) fun _ =>
        .bind (Stmt.run_built s) fun _ => runAll_built ss

end

theorem Expr.result_built (e : Expr) : Action.Built (fun _ => e.result) := by
  unfold Expr.result
  refine .bind (.ofRun fun vars => e.run_built vars) fun v => ?_
  split
  · exact .pure _
  · exact .pure _

/-- The run of a program is built from runs, variables and loops. -/
theorem Program.run_built (p : Program) : Action.Built (fun rounds => p.run rounds) := by
  unfold Program.run
  refine .bind (runAll_built p.statements) fun _ => ?_
  split
  · exact .pure _
  · exact .bind (.ofRun fun _ => .checkpoint) fun _ => Expr.result_built _

end ReplDaemon.Script
