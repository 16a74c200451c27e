import ReplDaemon.Proofs.Script.InPlace.Atomic
import ReplDaemon.Proofs.Script.Sequence
import ReplDaemon.Proofs.Script.Undisturbed

/-!
# Statements are done as a whole or not at all

Whatever a program comes to, in place it does to the world what its run does, and its variables are those
that the simple statements give them that it has completed.
-/

namespace ReplDaemon.Script

section Journal

variable {α β : Type} {rounds : Nat}

/-- Simple statements give the variables their values: they end well, one after the other, wherever that
is never cancelled. -/
structure Gives (rounds : Nat) (vars : Bindings) (ss : List Stmt) (vars' : Bindings) : Prop where
  simple : ∀ s ∈ ss, s.isSimple = true
  run : ∀ c : Context, c.cancelAt = none → ∃ d : Context, d.cancelAt = none ∧
    runAll rounds ss { vars, context := c } = (.ok (), { vars := vars', context := d })

theorem Gives.nil (vars : Bindings) : Gives rounds vars [] vars where
  simple := by simp
  run c hc := ⟨c, hc, by simp only [runAll, pure_apply]⟩

theorem Gives.append {u v w : Bindings} {ss ts : List Stmt} (hs : Gives rounds u ss v)
    (ht : Gives rounds v ts w) : Gives rounds u (ss ++ ts) w where
  simple := by simpa [or_imp, forall_and] using ⟨hs.simple, ht.simple⟩
  run c hc := by
    obtain ⟨d, hd, hrun⟩ := hs.run c hc
    obtain ⟨e, he, hrun'⟩ := ht.run d hd
    exact ⟨e, he, by rw [runAll_append, bind_apply_ok hrun, hrun']⟩

theorem Gives.single {s : Stmt} (h : s.isSimple = true) {w v : World}
    (hrun : s.run rounds w = (.ok (), v)) : Gives rounds w.vars [s] v.vars where
  simple := by simpa using h
  run c hc := by
    have hcalm : c.cancelled = false := by simp [Context.cancelled, hc]
    have hcheckpoint : Action.ofRun (fun _ => checkpoint) { vars := w.vars, context := c } =
        (.ok (), { vars := w.vars, context := c.wait 1 }) := by
      rw [Action.ofRun_apply, Run.checkpoint_apply, if_neg (by simp [hcalm])]
    obtain ⟨d, hd, hrun'⟩ := s.run_built.repeats rounds hrun (c.wait 1) hc
    refine ⟨d, hd, ?_⟩
    simp only [runAll]
    rw [bind_apply_ok hcheckpoint, bind_apply_ok hrun', pure_apply]

/-- In place, something does to the world what an action does, and the statements that it enters in the
journal give the variables the values that they have afterwards. -/
def InPlace.Mirrors (rounds : Nat) (p : InPlace α) (a : Action α) : Prop :=
  ∀ σ : Scene, ∃ done : List Stmt,
    p σ = ((a σ.toWorld).1, { toWorld := (a σ.toWorld).2, journal := σ.journal ++ done }) ∧
      Gives rounds σ.vars done (a σ.toWorld).2.vars

namespace InPlace.Mirrors

theorem of {a : Action α} (ha : a.Spares) : Mirrors rounds (InPlace.of a) a := by
  intro σ
  refine ⟨[], ?_, ?_⟩
  · rw [List.append_nil]
    rfl
  · rw [ha]
    exact .nil _

theorem pure (x : α) : Mirrors rounds (Pure.pure x : InPlace α) (Pure.pure x) := by
  rw [← of_pure]
  exact .of fun _ => rfl

theorem bind {p : InPlace α} {a : Action α} {f : α → InPlace β} {g : α → Action β}
    (head : Mirrors rounds p a) (tail : ∀ x, Mirrors rounds (f x) (g x)) :
    Mirrors rounds (p >>= f) (a >>= g) := by
  intro σ
  obtain ⟨done, hp, hgives⟩ := head σ
  rcases hrun : a σ.toWorld with ⟨e | x, w⟩ <;> rw [hrun] at hp hgives
  · refine ⟨done, ?_, ?_⟩ <;> rw [bind_apply_error hrun]
    · rw [bind_apply_error hp]
    · exact hgives
  · obtain ⟨more, hf, hgives'⟩ := tail x { toWorld := w, journal := σ.journal ++ done }
    refine ⟨done ++ more, ?_, ?_⟩ <;> rw [bind_apply_ok hrun]
    · rw [bind_apply_ok hp, hf, List.append_assoc]
    · exact hgives.append hgives'

theorem simple {s : Stmt} (h : s.isSimple = true) :
    Mirrors rounds (s.inPlace rounds) (s.run rounds) := by
  intro σ
  rw [Stmt.inPlace_of_isSimple h, InPlace.complete]
  rcases hrun : s.run rounds σ.toWorld with ⟨e | x, w⟩
  · have hof : InPlace.of (s.run rounds) σ = (.error e, { σ with toWorld := w }) := by
      rw [InPlace.of, hrun]
    have hvars := (s.run_atomic h rounds).failed σ.toWorld e
    rw [hrun] at hvars
    refine ⟨[], by rw [bind_apply_error hof, List.append_nil], ?_⟩
    rw [hvars rfl]
    exact .nil _
  · have hof : InPlace.of (s.run rounds) σ = (.ok x, { σ with toWorld := w }) := by
      rw [InPlace.of, hrun]
    exact ⟨[s], by rw [bind_apply_ok hof, modify_apply], .single h hrun⟩

theorem repeatInPlace {condition : InPlace Bool} {test : Action Bool} {body : InPlace Unit}
    {round : Action Unit} (hcondition : Mirrors rounds condition test)
    (hbody : Mirrors rounds body round) (left : Nat) :
    Mirrors rounds (Script.repeatInPlace condition body left) (repeatWhile test round left) := by
  induction left with
  | zero => exact .of (a := throw .endless) fun _ => rfl
  | succ left ih =>
      refine hcondition.bind fun b => ?_
      cases b with
      | true => exact .bind (.of (Action.spares_ofRun _)) fun _ => hbody.bind fun _ => ih
      | false => exact .pure _

end InPlace.Mirrors

theorem Expr.inPlace_mirrors (e : Expr) : InPlace.Mirrors rounds e.inPlace (.ofRun (e.run ·)) := by
  rw [e.inPlace_eq]
  exact .of (Action.spares_ofRun _)

theorem Expr.holdsInPlace_mirrors (e : Expr) : InPlace.Mirrors rounds e.holdsInPlace e.holds :=
  e.inPlace_mirrors.bind fun _ => .pure _

mutual

theorem Stmt.inPlace_mirrors : (s : Stmt) → InPlace.Mirrors rounds (s.inPlace rounds) (s.run rounds)
  | .declare name e => .simple rfl
  | .assign target e => .simple rfl
  | .evaluate e => .simple rfl
  | .ifThen condition body => by
      simp only [Stmt.inPlace, Stmt.run]
      refine condition.holdsInPlace_mirrors.bind fun b => ?_
      cases b with
      | true => exact allInPlace_mirrors body
      | false => exact .pure _
  | .ifElse condition body alternative => by
      simp only [Stmt.inPlace, Stmt.run]
      refine condition.holdsInPlace_mirrors.bind fun b => ?_
      cases b with
      | true => exact allInPlace_mirrors body
      | false => exact allInPlace_mirrors alternative
  | .whileLoop condition body => by
      simp only [Stmt.inPlace, Stmt.run]
      exact .repeatInPlace condition.holdsInPlace_mirrors (allInPlace_mirrors body) rounds

theorem allInPlace_mirrors : (ss : List Stmt) →
    InPlace.Mirrors rounds (allInPlace rounds ss) (runAll rounds ss)
  | [] => by
      simp only [allInPlace, runAll]
      exact .pure _
  | s :: ss => by
      simp only [allInPlace, runAll]
      exact .bind (.of (Action.spares_ofRun _)) fun _ =>
        (Stmt.inPlace_mirrors s).bind fun _ => allInPlace_mirrors ss

end

theorem Expr.resultInPlace_mirrors (e : Expr) : InPlace.Mirrors rounds e.resultInPlace e.result := by
  unfold Expr.resultInPlace Expr.result
  refine e.inPlace_mirrors.bind fun v => ?_
  cases e <;> exact .pure _

/-- In place, a program does to the world what its run does. -/
theorem Program.inPlace_mirrors (p : Program) :
    InPlace.Mirrors rounds (p.inPlace rounds) (p.run rounds) := by
  unfold Program.inPlace Program.run
  refine (allInPlace_mirrors p.statements).bind fun _ => ?_
  cases p.result with
  | none => exact .pure _
  | some e => exact .bind (.of (Action.spares_ofRun _)) fun _ => e.resultInPlace_mirrors

end Journal

/-- Where all is done in place, expressions come to what they come to anyway and change nothing but the
context; simple statements that do not end well leave all variables as they were, and those that do change
one variable at most; and whatever a program comes to, its variables are those that the simple statements
in the journal give them, which are those it has completed. -/
theorem inPlace_atomic (rounds : Nat) :
    (∀ (e : Expr) (σ : Scene), e.inPlace σ =
      ((e.run σ.vars σ.context).1, { σ with context := (e.run σ.vars σ.context).2 })) ∧
    (∀ s : Stmt, s.isSimple = true → ∀ σ : Scene,
      ((s.inPlace rounds σ).1, (s.inPlace rounds σ).2.toWorld) = s.run rounds σ.toWorld ∧
      (∀ stop : Stop, (s.inPlace rounds σ).1 = .error stop →
        (s.inPlace rounds σ).2.vars = σ.vars) ∧
      ∀ name : String, s.target? ≠ some name →
        (s.inPlace rounds σ).2.vars.find? name = σ.vars.find? name) ∧
    ∀ (p : Program) (w : World), let r := p.inPlace rounds { toWorld := w, journal := [] }
      (r.1, r.2.toWorld) = p.run rounds w ∧ Gives rounds w.vars r.2.journal r.2.vars := by
  refine ⟨fun e σ => ?_, fun s hs σ => ?_, fun p w => ?_⟩
  · rw [e.inPlace_eq]
    rfl
  · have hmirrors : InPlace.Mirrors rounds _ _ := s.inPlace_mirrors
    obtain ⟨done, hmirror, -⟩ := hmirrors σ
    have hatomic := s.run_atomic hs rounds
    rw [hmirror]
    exact ⟨rfl, hatomic.failed σ.toWorld, hatomic.others σ.toWorld⟩
  · have hmirrors : InPlace.Mirrors rounds _ _ := p.inPlace_mirrors
    obtain ⟨done, hmirror, hgives⟩ := hmirrors { toWorld := w, journal := [] }
    rw [List.nil_append] at hmirror
    simp only [hmirror]
    exact ⟨rfl, hgives⟩

/-- A program that fails where it sets an element that a list does not have. -/
theorem inPlace_atomic_outOfRange :
    let w : World := { vars := .empty, context := { output := .empty 100, clock := 0, cancelAt := none } }
    let first : Stmt := .declare "xs" (.list [.literal (.int 1)])
    let second : Stmt := .assign (.element "xs" (.literal (.int 0))) (.literal (.int 2))
    let third : Stmt := .assign (.element "xs" (.literal (.int 1))) (.var "xs")
    let p : Program := { statements := [first, second, third], result := none }
    first.isSimple = true ∧ second.isSimple = true ∧ third.isSimple = true ∧
      (p.run 0 w).1 = .error (.failed (.indexOutOfRange 1 1)) ∧
      Gives 0 .empty [first, second] (Bindings.empty.set "xs" (.list [.int 2])) := by
  intro w first second third p
  have hdone : p.inPlace 0 { toWorld := w, journal := [] } =
      (.error (.failed (.indexOutOfRange 1 1)),
        { vars := Bindings.empty.set "xs" (.list [.int 2]), context := w.context.wait 3,
          journal := [first, second] }) := by
    cbv
  obtain ⟨hrun, hgives⟩ := (inPlace_atomic 0).2.2 p w
  rw [hdone] at hrun hgives
  exact ⟨rfl, rfl, rfl, congrArg Prod.fst hrun.symm, hgives⟩

end ReplDaemon.Script
