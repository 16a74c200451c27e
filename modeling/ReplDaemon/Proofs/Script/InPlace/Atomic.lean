import ReplDaemon.Proofs.Script.InPlace.Agreement

/-!
# Simple statements

A simple statement, one without others inside, does in place to the world what its run does. If it does
not end well it leaves every variable as it was, and if it does it changes at most the variable that it
names.
-/

namespace ReplDaemon.Script

/-- Whether a statement has no others inside. -/
def Stmt.isSimple : Stmt → Bool
  | .declare _ _ | .assign _ _ | .evaluate _ => true
  | .ifThen _ _ | .ifElse _ _ _ | .whileLoop _ _ => false

/-- The variable that a simple statement may change. -/
def Stmt.target? : Stmt → Option String
  | .declare name _ | .assign (.variable name) _ | .assign (.element name _) _ => some name
  | .ifThen _ _ | .ifElse _ _ _ | .whileLoop _ _ | .evaluate _ => none

/-- The value of a variable is edited in place as it is set to the edited value. -/
theorem InPlace.editBinding_setElement (name : String) (index value : Value) :
    editBinding name (.setElement index value) =
      .of (bindingOf? name >>= fun container =>
        Action.ofRun (fun _ => .ofExcept (assignElement container index value)) >>= bindName name) := by
  funext σ
  rw [editBinding, of_bind, bind_apply, bind_apply]
  simp only [of, Action.bindingOf?_apply]
  cases hfind : σ.vars.find? name with
  | none => rfl
  | some container =>
      simp only [Edit.setElement_apply]
      cases hedit : assignElement container index value with
      | ok edited => rfl
      | error e =>
          simp only [bind_apply, of, Action.bindName_apply, Bindings.set_of_find? hfind]
          rfl

/-- In place, a simple statement does to the world what its run does. -/
theorem Stmt.inPlace_of_isSimple {s : Stmt} (h : s.isSimple = true) (rounds : Nat) :
    s.inPlace rounds = .complete s (.of (s.run rounds)) := by
  cases s with
  | declare name e => simp [Stmt.inPlace, Stmt.run, e.inPlace_eq]
  | assign target e =>
      cases target with
      | «variable» name =>
          simp [Stmt.inPlace, Stmt.run, e.inPlace_eq, discard_eq_bind]
      | element name position =>
          simp [Stmt.inPlace, Stmt.run, e.inPlace_eq, position.inPlace_eq,
            InPlace.editBinding_setElement]
  | evaluate e => simp [-bind_pure_comp, Stmt.inPlace, Stmt.run, e.inPlace_eq, discard_eq_bind]
  | ifThen _ _ | ifElse _ _ _ | whileLoop _ _ => cases h

namespace Action

variable {α : Type} {target : Option String}

/-- An action leaves the variables alone, however it ends. -/
def Spares (a : Action α) : Prop :=
  ∀ w, (a w).2.vars = w.vars

theorem spares_ofRun (r : Bindings → Run α) : Spares (.ofRun r) :=
  fun _ => rfl

theorem spares_bindingOf (name : String) : Spares (bindingOf? name) := by
  rw [bindingOf?_eq]
  exact spares_ofRun _

/-- An action is done as a whole or not at all, and changes at most one variable. -/
structure Atomic (target : Option String) (a : Action Unit) : Prop where
  failed : ∀ (w : World) (stop : Stop), (a w).1 = .error stop → (a w).2.vars = w.vars
  others : ∀ (w : World) (name : String), target ≠ some name →
    (a w).2.vars.find? name = w.vars.find? name

theorem Atomic.behind {a : Action α} {f : α → Action Unit} (ha : a.Spares)
    (hf : ∀ x, (f x).Atomic target) : (a >>= f).Atomic target := by
  constructor <;> intro w
  · intro stop
    have hw := ha w
    rcases hrun : a w with ⟨_ | x, v⟩ <;> rw [hrun] at hw
    · rw [bind_apply_error hrun]
      exact fun _ => hw
    · rw [bind_apply_ok hrun]
      exact fun hstop => ((hf x).failed v stop hstop).trans hw
  · intro name hname
    have hw := congrArg (·.find? name) (ha w)
    rcases hrun : a w with ⟨_ | x, v⟩ <;> rw [hrun] at hw
    · rwa [bind_apply_error hrun]
    · rw [bind_apply_ok hrun]
      exact ((hf x).others v name hname).trans hw

theorem atomic_bindName (name : String) (value : Value) : Atomic (some name) (bindName name value) where
  failed _ _ h := nomatch h
  others w other hother := by
    have hne : other ≠ name := by simpa [eq_comm] using hother
    simp [bindName_apply, Bindings.find?_set, hne]

theorem atomic_pure : Atomic none (pure ()) where
  failed _ _ h := nomatch h
  others _ _ _ := rfl

end Action

theorem Stmt.run_atomic {s : Stmt} (h : s.isSimple = true) (rounds : Nat) :
    (s.run rounds).Atomic s.target? := by
  cases s with
  | declare name e =>
      simp only [Stmt.run]
      exact .behind (Action.spares_ofRun _) fun v => Action.atomic_bindName name v
  | assign target e =>
      cases target with
      | «variable» name =>
          simp only [Stmt.run, discard_eq_bind, bind_assoc, pure_bind]
          exact .behind (Action.spares_bindingOf name) fun _ =>
            .behind (Action.spares_ofRun _) fun v => Action.atomic_bindName name v
      | element name position =>
          simp only [Stmt.run]
          exact .behind (Action.spares_ofRun _) fun _ => .behind (Action.spares_ofRun _) fun _ =>
            .behind (Action.spares_bindingOf name) fun _ =>
              .behind (Action.spares_ofRun _) fun container => Action.atomic_bindName name container
  | evaluate e =>
      simp only [Stmt.run, discard_eq_bind]
      exact .behind (Action.spares_ofRun _) fun _ => Action.atomic_pure
  | ifThen _ _ | ifElse _ _ _ | whileLoop _ _ => cases h

end ReplDaemon.Script
