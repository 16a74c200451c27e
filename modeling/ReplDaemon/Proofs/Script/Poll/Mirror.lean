import ReplDaemon.Proofs.Script.InPlace.Agreement
import ReplDaemon.Proofs.Script.Poll.Run

/-!
# What is done with looks, and without

What looks for a cancellation is built from the same effects as what it stands for, one after the other:
from what does not look, from sleeps, and from what begins behind a checkpoint. What holds of these
effects and is kept by sequences therefore holds of all programs.
-/

namespace ReplDaemon.Script

variable {α β : Type}

/-- An action that does the same whatever is to become of the evaluation. -/
def Action.Oblivious (a : Action α) : Prop :=
  ∀ (s : Snapshot) (cancelAt : Option Instant),
    a (s.under cancelAt) =
      ((a (s.under none)).1, (a (s.under none)).2.snapshot.under cancelAt)

namespace Action.Oblivious

theorem pure (x : α) : Oblivious (Pure.pure x : Action α) :=
  fun _ _ => rfl

theorem throw (e : Stop) : Oblivious (MonadExcept.throw e : Action α) :=
  fun _ _ => rfl

theorem bind {a : Action α} {f : α → Action β} (h : a.Oblivious) (hf : ∀ x, (f x).Oblivious) :
    (a >>= f).Oblivious := by
  intro s cancelAt
  have hnever := h s none
  rw [bind_apply, bind_apply, h s cancelAt]
  generalize a (s.under none) = r at hnever ⊢
  obtain ⟨e | x, w⟩ := r
  · rfl
  · obtain ⟨-, hw⟩ := Prod.mk.inj hnever
    have hbehind := hf x w.snapshot cancelAt
    rwa [← hw] at hbehind

/-- One run after the other. -/
theorem seq {r : Run α} {f : α → Run β} (h : Oblivious (.ofRun fun _ => r))
    (hf : ∀ x, Oblivious (.ofRun fun _ => f x)) : Oblivious (.ofRun fun _ => r >>= f) := by
  rw [ofRun_bind (fun _ => r) fun x _ => f x]
  exact h.bind hf

theorem ofExcept (x : Except RuntimeError α) : Oblivious (.ofRun fun _ => .ofExcept x) := by
  intro s cancelAt
  cases x <;> rfl

theorem print (line : String) :
    Oblivious (.ofRun fun _ => (modify (·.printLine line) : Run PUnit)) :=
  fun _ _ => rfl

theorem wait (time : Nat) : Oblivious (.ofRun fun _ => (modify (·.wait time) : Run PUnit)) :=
  fun _ _ => rfl

theorem bindName (name : String) (value : Value) : Oblivious (bindName name value) :=
  fun _ _ => rfl

theorem bindingOf (name : String) : Oblivious (bindingOf? name) := by
  intro s cancelAt
  have hvars (cancelAt : Option Instant) : (s.under cancelAt).vars = s.vars := rfl
  rw [bindingOf?_apply, bindingOf?_apply, hvars, hvars]
  cases s.vars.find? name <;> rfl

end Action.Oblivious

/-- Only a sleep looks for a cancellation. -/
theorem Builtin.call_oblivious (f : Builtin) (arguments : List Value)
    (h : ∀ v, f = .sleep → arguments ≠ [v]) :
    Action.Oblivious (.ofRun fun _ => f.call arguments) := by
  unfold Builtin.call
  split
  case h_19 v => exact absurd rfl (h v rfl)
  all_goals
    first
      | exact .throw _
      | exact .pure _
      | exact .ofExcept _
      | exact .seq (.print _) fun _ => .pure _
      | exact .seq (.ofExcept _) fun _ => .pure _
      | exact .seq (.ofExcept _) fun _ => .seq (.wait _) fun _ => .pure _

namespace Poll

/-- Something that looks for a cancellation, and the action that it stands for. -/
inductive Mirrors : {α : Type} → Poll α → Action α → Prop
  | of {α : Type} {a : Action α} (ha : a.Oblivious) : Mirrors (.of a) a
  | sleep (time : Nat) : Mirrors (.nap (time * millisecond)) (.ofRun fun _ => sleepFor time)
  | start {α : Type} {p : Poll α} {a : Action α} (e : Event) (he : e.isStart = true)
      (h : Mirrors p a) :
      Mirrors (checkpoint >>= fun _ => note e >>= fun _ => p)
        ((Action.ofRun fun _ => Script.checkpoint) >>= fun _ => a)
  | bind {α β : Type} {p : Poll α} {a : Action α} {f : α → Poll β} {g : α → Action β}
      (head : Mirrors p a) (tail : ∀ x, Mirrors (f x) (g x)) : Mirrors (p >>= f) (a >>= g)

namespace Mirrors

theorem pure (x : α) : Mirrors (Pure.pure x : Poll α) (Pure.pure x) :=
  .of (a := Pure.pure x) fun _ _ => rfl

theorem throw (e : Stop) : Mirrors (MonadExcept.throw e : Poll α) (MonadExcept.throw e) :=
  .of (a := MonadExcept.throw e) fun _ _ => rfl

theorem ofExcept (x : Except RuntimeError α) :
    Mirrors (Poll.ofExcept x) (.ofRun fun _ => .ofExcept x) :=
  .of (.ofExcept x)

end Mirrors

end Poll

theorem Builtin.polled_mirrors (f : Builtin) (arguments : List Value) :
    Poll.Mirrors (f.polled arguments) (.ofRun fun _ => f.call arguments) := by
  unfold Builtin.polled
  split
  · simp only [Builtin.call, Action.ofRun_bind]
    exact .bind (.ofExcept _) fun _ => .bind (.sleep _) fun _ => .pure _
  · next hother => exact .of (f.call_oblivious arguments fun v hf ha => hother v hf ha)

theorem callPolled_mirrors (name : String) (arguments : List Value) :
    Poll.Mirrors (callPolled name arguments) (.ofRun fun _ => call name arguments) := by
  unfold callPolled call
  cases Builtin.ofName? name with
  | some f => exact f.polled_mirrors arguments
  | none => exact .of (.throw _)

mutual

theorem Expr.polled_mirrors : (e : Expr) → Poll.Mirrors e.polled (.ofRun (e.run ·))
  | .literal l => by
      simp only [Expr.polled, Expr.run, Action.ofRun_pure]
      exact .pure _
  | .var name => by
      rw [Expr.polled]
      have hbinding := Action.bindingOf?_eq name
      simp only [Expr.run]
      exact hbinding ▸ .of (.bindingOf name)
  | .list items => by
      simp only [Expr.polled, Expr.run, Action.ofRun_bind, Action.ofRun_pure]
      exact .bind (itemsPolled_mirrors [] items) fun _ => .pure _
  | .map entries => by
      simp only [Expr.polled, Expr.run, Action.ofRun_bind, Action.ofRun_pure]
      exact .bind (entriesPolled_mirrors [] entries) fun _ => .pure _
  | .unary op operand => by
      simp only [Expr.polled, Expr.run, Action.ofRun_bind]
      exact .bind (Expr.polled_mirrors operand) fun _ => .ofExcept _
  | .binary .and lhs rhs => by
      simp only [Expr.polled, Expr.run, Action.ofRun_bind, Action.ofRun_ite, Action.ofRun_pure]
      refine .bind (Expr.polled_mirrors lhs) fun a => ?_
      split
      · exact .bind (Expr.polled_mirrors rhs) fun _ => .pure _
      · exact .pure _
  | .binary .or lhs rhs => by
      simp only [Expr.polled, Expr.run, Action.ofRun_bind, Action.ofRun_ite, Action.ofRun_pure]
      refine .bind (Expr.polled_mirrors lhs) fun a => ?_
      split
      · exact .pure _
      · exact .bind (Expr.polled_mirrors rhs) fun _ => .pure _
  | .binary .equal lhs rhs => by
      simp only [Expr.polled, Expr.run, Action.ofRun_bind, Action.ofRun_pure]
      exact .bind (Expr.polled_mirrors lhs) fun _ => .bind (Expr.polled_mirrors rhs) fun _ => .pure _
  | .binary .notEqual lhs rhs => by
      simp only [Expr.polled, Expr.run, Action.ofRun_bind, Action.ofRun_pure]
      exact .bind (Expr.polled_mirrors lhs) fun _ => .bind (Expr.polled_mirrors rhs) fun _ => .pure _
  | .binary (.compare op) lhs rhs => by
      simp only [Expr.polled, Expr.run, Action.ofRun_bind]
      exact .bind (Expr.polled_mirrors lhs) fun _ =>
        .bind (Expr.polled_mirrors rhs) fun _ => .ofExcept _
  | .binary (.arithmetic op) lhs rhs => by
      simp only [Expr.polled, Expr.run, Action.ofRun_bind]
      exact .bind (Expr.polled_mirrors lhs) fun _ =>
        .bind (Expr.polled_mirrors rhs) fun _ => .ofExcept _
  | .index base position => by
      simp only [Expr.polled, Expr.run, Action.ofRun_bind]
      exact .bind (Expr.polled_mirrors base) fun _ =>
        .bind (Expr.polled_mirrors position) fun _ => .ofExcept _
  | .call name arguments => by
      simp only [Expr.polled, Expr.run, Action.ofRun_bind]
      exact .bind (argumentsPolled_mirrors [] arguments) fun _ => callPolled_mirrors name _

theorem itemsPolled_mirrors (found : List Value) : (items : List Expr) →
    Poll.Mirrors (itemsPolled found items) (.ofRun (runItems · found items))
  | [] => by
      simp only [itemsPolled, runItems, Action.ofRun_pure]
      exact .pure _
  | e :: es => by
      simp only [itemsPolled, runItems, Action.ofRun_bind]
      exact .bind (Expr.polled_mirrors e) fun _ =>
        .bind (.ofExcept _) fun v => itemsPolled_mirrors (v :: found) es

theorem entriesPolled_mirrors (found : List (Value × Value)) : (entries : List (Expr × Expr)) →
    Poll.Mirrors (entriesPolled found entries) (.ofRun (runEntries · found entries))
  | [] => by
      simp only [entriesPolled, runEntries, Action.ofRun_pure]
      exact .pure _
  | (k, e) :: es => by
      simp only [entriesPolled, runEntries, Action.ofRun_bind]
      exact .bind (Expr.polled_mirrors k) fun _ => .bind (Expr.polled_mirrors e) fun _ =>
        .bind (.ofExcept _) fun _ => .bind (.ofExcept _) fun entries =>
          entriesPolled_mirrors entries es

theorem argumentsPolled_mirrors (found : List Value) : (arguments : List Expr) →
    Poll.Mirrors (argumentsPolled found arguments) (.ofRun (runArguments · found arguments))
  | [] => by
      simp only [argumentsPolled, runArguments, Action.ofRun_pure]
      exact .pure _
  | e :: es => by
      simp only [argumentsPolled, runArguments, Action.ofRun_bind]
      exact .bind (Expr.polled_mirrors e) fun v => argumentsPolled_mirrors (v :: found) es

end

theorem Expr.holdsPolled_mirrors (e : Expr) : Poll.Mirrors e.holdsPolled e.holds :=
  .bind e.polled_mirrors fun _ => .pure _

namespace Poll

/-- What puts down that it begins, before it does what an action does. -/
def Begins (p : Poll α) (a : Action α) : Prop :=
  ∃ (e : Event) (inner : Poll α), e.isStart = true ∧ p = starting e inner ∧ Mirrors inner a

/-- What begins behind a checkpoint, with something behind it. -/
theorem Begins.mirrors {p : Poll α} {a : Action α} (h : Begins p a) {f : α → Poll β}
    {g : α → Action β} (tail : ∀ x, Mirrors (f x) (g x)) :
    Mirrors (checkpoint >>= fun _ => p >>= f)
      ((Action.ofRun fun _ => Script.checkpoint) >>= fun _ => a >>= g) := by
  obtain ⟨e, inner, he, rfl, hinner⟩ := h
  simp only [starting, bind_assoc]
  exact .start e he (hinner.bind tail)

theorem Mirrors.repeatPolled {condition : Poll Bool} {test : Action Bool} {body : Poll Unit}
    {round : Action Unit} (hcondition : Mirrors condition test) (hbody : Begins body round)
    (rounds : Nat) :
    Mirrors (Script.repeatPolled condition body rounds) (repeatWhile test round rounds) := by
  induction rounds with
  | zero => exact .throw _
  | succ rounds ih =>
      refine hcondition.bind fun b => ?_
      cases b with
      | true => exact hbody.mirrors fun _ => ih
      | false => exact .pure _

theorem Mirrors.discard {p : Poll α} {a : Action α} (h : Mirrors p a) :
    Mirrors (Functor.discard p) (Functor.discard a) := by
  rw [discard_eq_bind]
  exact h.bind fun _ => .pure _

end Poll

section Statements

variable {rounds : Nat}

mutual

/-- The run of a statement puts down that it begins. -/
theorem Stmt.polled_begins : (s : Stmt) → Poll.Begins (s.polled rounds) (s.run rounds)
  | .declare name e => by
      rw [Stmt.polled, Stmt.run]
      exact ⟨_, _, rfl, rfl, .bind e.polled_mirrors fun v => .of (.bindName name v)⟩
  | .assign (.variable name) e => by
      rw [Stmt.polled, Stmt.run]
      exact ⟨_, _, rfl, rfl, .bind (.discard (.of (.bindingOf name))) fun _ =>
        .bind e.polled_mirrors fun v => .of (.bindName name v)⟩
  | .assign (.element name position) e => by
      rw [Stmt.polled, Stmt.run]
      exact ⟨_, _, rfl, rfl, .bind position.polled_mirrors fun i => .bind e.polled_mirrors fun v =>
        .bind (.of (.bindingOf name)) fun container => .bind (.ofExcept _) fun edited =>
          .of (.bindName name edited)⟩
  | .ifThen condition body => by
      rw [Stmt.polled, Stmt.run]
      refine ⟨_, _, rfl, rfl, .bind condition.holdsPolled_mirrors fun b => ?_⟩
      cases b with
      | true => exact allPolled_mirrors body
      | false => exact .pure _
  | .ifElse condition body alternative => by
      rw [Stmt.polled, Stmt.run]
      refine ⟨_, _, rfl, rfl, .bind condition.holdsPolled_mirrors fun b => ?_⟩
      cases b with
      | true => exact allPolled_mirrors body
      | false => exact allPolled_mirrors alternative
  | .whileLoop condition body => by
      rw [Stmt.polled, Stmt.run]
      have hbody : Poll.Begins (.starting (.round body) (allPolled rounds body)) (runAll rounds body) :=
        ⟨_, _, rfl, rfl, allPolled_mirrors body⟩
      exact ⟨_, _, rfl, rfl, .repeatPolled condition.holdsPolled_mirrors hbody rounds⟩
  | .evaluate e => by
      rw [Stmt.polled, Stmt.run]
      exact ⟨_, _, rfl, rfl, .discard e.polled_mirrors⟩

theorem allPolled_mirrors : (ss : List Stmt) →
    Poll.Mirrors (allPolled rounds ss) (runAll rounds ss)
  | [] => by
      rw [allPolled, runAll]
      exact .pure _
  | s :: ss => by
      rw [allPolled, runAll]
      exact s.polled_begins.mirrors fun _ => allPolled_mirrors ss

end

theorem Expr.resultPolled_begins (e : Expr) : Poll.Begins e.resultPolled e.result := by
  refine ⟨_, _, rfl, rfl, .bind e.polled_mirrors fun v => ?_⟩
  cases e <;> exact .pure _

theorem Program.polled_mirrors (p : Program) : Poll.Mirrors (p.polled rounds) (p.run rounds) := by
  refine .bind (allPolled_mirrors p.statements) fun _ => ?_
  cases p.result with
  | none => exact .pure _
  | some e =>
      have hresult := e.resultPolled_begins.mirrors (f := Pure.pure) (g := Pure.pure) fun x => .pure x
      simpa only [bind_pure] using hresult

end Statements

end ReplDaemon.Script
