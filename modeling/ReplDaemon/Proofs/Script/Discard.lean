import ReplDaemon.Proofs.Script.Program.Terminator
import ReplDaemon.Proofs.Script.Sequence

/-!
# A trailing semicolon

A semicolon in the line below a source suppresses the value that the source comes to, and changes nothing
else: expressions have the same effects whether or not their value is wanted, and the one more checkpoint
that a statement of nothing has passes, as long as nobody has cancelled the evaluation.
-/

namespace ReplDaemon.Script

variable {α : Type}

/-- Who stops for a cancellation has seen one. -/
theorem Run.Built.cancelled_of_stop {r : Run α} (h : r.Built) {c d : Context}
    (hstop : r c = (.error .cancelled, d)) : d.cancelled = true := by
  induction h generalizing c d with
  | pure a => cases hstop
  | fail e => cases hstop
  | print s => cases hstop
  | wait time => cases hstop
  | checkpoint =>
      rw [Run.checkpoint_apply] at hstop
      split at hstop
      · next hcancelled =>
          cases hstop
          exact hcancelled
      · cases hstop
  | sleep time =>
      cases hwait : (c.wait (time * millisecond)).cancelled with
      | true =>
          have hcancelled := Run.cancelled_sleepFor hwait
          rwa [hstop] at hcancelled
      | false => cases (Run.sleepFor_of_wait hwait).symm.trans hstop
  | @bind α β r f head tail ihHead ihTail =>
      rcases hr : r c with ⟨e | a, m⟩
      · rw [bind_apply_error hr] at hstop
        cases hstop
        exact ihHead hr
      · rw [bind_apply_ok hr] at hstop
        exact ihTail a hstop

namespace Action

/-- An action that stops for a cancellation leaves a world in which there is one. -/
def Notices (a : Action α) : Prop :=
  ∀ w v : World, a w = (.error .cancelled, v) → v.context.cancelled = true

theorem Notices.bind {β : Type} {a : Action α} {f : α → Action β} (h : a.Notices)
    (hf : ∀ x, (f x).Notices) : (a >>= f).Notices := by
  intro w v hstop
  rcases ha : a w with ⟨e | x, m⟩
  · rw [bind_apply_error ha] at hstop
    cases hstop
    exact h w _ ha
  · rw [bind_apply_ok ha] at hstop
    exact hf x m v hstop

theorem Notices.ofRun {r : Bindings → Run α} (h : ∀ vars, (r vars).Built) :
    Notices (.ofRun r) := by
  intro w v hstop
  rcases hr : r w.vars w.context with ⟨o, d⟩
  rw [ofRun_apply, hr] at hstop
  cases hstop
  exact (h w.vars).cancelled_of_stop hr

theorem Notices.bindingOf (name : String) : Notices (bindingOf? name) := by
  intro w v hstop
  rw [bindingOf?_apply] at hstop
  split at hstop <;> cases hstop

theorem Notices.repeatWhile {condition : Action Bool} {body : Action Unit}
    (hcondition : condition.Notices) (hbody : body.Notices) (rounds : Nat) :
    (Script.repeatWhile condition body rounds).Notices := by
  induction rounds with
  | zero => nofun
  | succ rounds ih =>
      rw [repeatWhile_succ]
      refine hcondition.bind fun b => ?_
      split
      · exact (ofRun fun _ => .checkpoint).bind fun _ => hbody.bind fun _ => ih
      · nofun

theorem Built.notices {a : Nat → Action α} (h : Built a) (rounds : Nat) : (a rounds).Notices := by
  induction h with
  | pure a => nofun
  | ofRun run => exact .ofRun run
  | bindName name value => nofun
  | bindingOf name => exact .bindingOf name
  | bind head tail ihHead ihTail => exact ihHead.bind ihTail
  | loop test round ihTest ihRound => exact .repeatWhile ihTest ihRound rounds

end Action

/-- Where the value of an expression is not wanted, its result and its evaluation are the same. -/
theorem Expr.result_bind (e : Expr) (next : Action α) :
    (e.result >>= fun _ => next) = (Action.ofRun (e.run ·) >>= fun _ => next) := by
  rw [Expr.result, bind_assoc]
  congr 1
  funext v
  cases e with
  | call name arguments =>
      dsimp only
      split <;> rw [pure_bind]
  | _ => rw [pure_bind]

/-- One statement is run behind a checkpoint. -/
theorem runAll_evaluate (rounds : Nat) (e : Expr) :
    runAll rounds [.evaluate e] =
      (Action.ofRun fun _ => checkpoint) >>= fun _ => Action.ofRun (e.run ·) >>= fun _ => pure () := by
  simp only [runAll, Stmt.run, discard_eq_bind, bind_assoc, pure_bind]

namespace Program

/-- A statement in place of the result does the same, without its value. -/
theorem run_closed (rounds : Nat) (statements : List Stmt) (e : Expr) :
    run rounds { statements := statements ++ [.evaluate e], result := none } =
      run rounds { statements, result := some e } >>= fun _ => pure none := by
  simp only [run, runAll_append, runAll_evaluate, bind_assoc, pure_bind, Expr.result_bind]

/-- A statement of nothing is one more checkpoint. -/
theorem run_void (rounds : Nat) (statements : List Stmt) :
    run rounds { statements := statements ++ [.evaluate (.literal .null)], result := none } =
      run rounds { statements, result := none } >>= fun _ =>
        (Action.ofRun fun _ => checkpoint) >>= fun _ => pure none := by
  have hnull : (Action.ofRun ((Expr.literal .null).run ·)) = pure Value.null := by
    simp only [Expr.run]
    rfl
  simp only [run, runAll_append, runAll_evaluate, bind_assoc, pure_bind, hnull]

/-- A program without a result has no value. -/
theorem run_discard {p : Program} (hresult : p.result = none) (rounds : Nat) :
    p.run rounds = p.run rounds >>= fun _ => pure none := by
  simp only [run, hresult, bind_assoc, pure_bind]

/-- Two runs come to the same, but for the value, and for the time. -/
structure RunsAlike (r r' : Except Stop (Option Value) × World) : Prop where
  outcome : r'.1 = r.1.map fun _ => none
  vars : r'.2.vars = r.2.vars
  output : r'.2.context.output = r.2.context.output

theorem RunsAlike.of_discard {a : Action (Option Value)} (w : World) :
    RunsAlike (a w) ((a >>= fun _ => pure none) w) := by
  rw [bind_apply]
  rcases a w with ⟨_ | v, w'⟩ <;> exact ⟨rfl, rfl, rfl⟩

/-- A checkpoint passes where nobody has cancelled the evaluation. -/
theorem RunsAlike.of_checkpoint {a : Action (Option Value)} {w : World}
    (hcalm : (a w).2.context.cancelled = false) :
    RunsAlike (a w)
      ((a >>= fun _ => (Action.ofRun fun _ => checkpoint) >>= fun _ => pure none) w) := by
  rw [bind_apply]
  rcases ha : a w with ⟨_ | v, w'⟩
  · exact ⟨rfl, rfl, rfl⟩
  · rw [ha] at hcalm
    dsimp only at hcalm ⊢
    rw [bind_apply, Action.ofRun_apply, Run.checkpoint_apply, hcalm]
    exact ⟨rfl, rfl, rfl⟩

/-- A semicolon behind a program takes nothing but its value. -/
theorem Terminated.runsAlike {p q : Program} (h : p.Terminated q) {rounds : Nat} {w : World}
    (hcalm : (p.run rounds w).2.context.cancelled = false) :
    RunsAlike (p.run rounds w) (q.run rounds w) := by
  cases h with
  | taken statements =>
      have hdiscard := RunsAlike.of_discard (a := run rounds { statements, result := none }) w
      rwa [← run_discard rfl] at hdiscard
  | void statements =>
      rw [run_void]
      exact .of_checkpoint hcalm
  | closed statements e =>
      rw [run_closed]
      exact .of_discard w

end Program

/-- A source spells a program. -/
def Parses (source : String) : Prop :=
  ∃ (ts : List PlacedToken) (p : Program), tokens source = .ok ts ∧ Program.ofTokens ts = .ok p

/-- What a source comes to with a semicolon in the line below: it is a program still, leaves the same
variables and the same output, fails where the source does, with the same text, and else completes
without a value. -/
structure ValueSuppressed (rounds : Nat) (source : String) (w : World) : Prop where
  parses : Parses (source ++ "\n;")
  vars : (evaluateWithin rounds (source ++ "\n;") w).2.vars = (evaluateWithin rounds source w).2.vars
  output : (evaluateWithin rounds (source ++ "\n;") w).2.context.output =
    (evaluateWithin rounds source w).2.context.output
  ending :
    (∃ message : String, (evaluateWithin rounds source w).1 = .returned (.ok (.failed message)) ∧
      (evaluateWithin rounds (source ++ "\n;") w).1 = .returned (.ok (.failed message))) ∨
    (∃ value : Option Value, (evaluateWithin rounds source w).1 = .returned (.ok (.completed value)) ∧
      (evaluateWithin rounds (source ++ "\n;") w).1 = .returned (.ok (.completed none)))

theorem evaluateWithin_of_ofTokens {source : String} {ts : List PlacedToken} {p : Program}
    (htokens : tokens source = .ok ts) (hprogram : Program.ofTokens ts = .ok p) (rounds : Nat)
    (w : World) :
    evaluateWithin rounds source w = (ending (p.run rounds w).1, (p.run rounds w).2) := by
  simp only [evaluateWithin, htokens, hprogram]
  rfl

/-- A semicolon behind a source that is evaluated to its end, and is not cancelled meanwhile, only
suppresses the value. -/
theorem evaluateWithin_semicolon {source : String} (hparses : Parses source) {rounds : Nat} {w : World}
    (hends : (evaluateWithin rounds source w).1 ≠ .endless)
    (hcalm : (evaluateWithin rounds source w).2.context.cancelled = false) :
    ValueSuppressed rounds source w := by
  obtain ⟨ts, p, htokens, hprogram⟩ := hparses
  have hsemicolon : tokens ";" = .ok [semicolonAt .start] := rfl
  have hline : "\n" ++ ";" = "\n;" := by decide
  have htokens' := tokens_newline htokens hsemicolon
  rw [String.append_assoc, hline] at htokens'
  obtain ⟨q, hterminated, hprogram'⟩ := Program.ofTokens_semicolon hprogram
    (Position.start.down (source.toList.count '\n' + 1))
  have hbefore := evaluateWithin_of_ofTokens htokens hprogram rounds w
  have hbehind := evaluateWithin_of_ofTokens htokens' hprogram' rounds w
  rw [hbefore] at hends hcalm
  have hnotices := p.run_built.notices rounds w
  obtain ⟨houtcome, hvars, houtput⟩ := hterminated.runsAlike hcalm
  refine ⟨⟨_, q, htokens', hprogram'⟩, ?_, ?_, ?_⟩
  · rw [hbefore, hbehind, hvars]
  · rw [hbefore, hbehind, houtput]
  · rw [hbefore, hbehind, houtcome]
    rcases hrun : p.run rounds w with ⟨(_ | e | _) | value, w'⟩
    · rw [hrun] at hcalm
      cases hcalm.symm.trans (hnotices w' hrun)
    · exact .inl ⟨"error: " ++ e.message, rfl, rfl⟩
    · rw [hrun] at hends
      exact absurd rfl hends
    · exact .inr ⟨value, rfl, rfl⟩

/-- A variable, and one that there is not. -/
theorem evaluateWithin_semicolon_variables :
    let c : Context := { output := .empty 100, clock := 0, cancelAt := none }
    let w : World := { vars := Bindings.empty.set "x" (.bool true), context := c }
    ((evaluateWithin 9 "x" w).1 = .returned (.ok (.completed (some (.bool true)))) ∧
      ValueSuppressed 9 "x" w) ∧
    ((evaluateWithin 9 "y" w).1 = .returned (.ok (.failed "error: undefined variable `y`")) ∧
      ValueSuppressed 9 "y" w) := by
  intro c w
  have htx : tokens "x" = .ok [⟨.identifier "x", ⟨1, 1⟩⟩] := by with_unfolding_all rfl
  have hty : tokens "y" = .ok [⟨.identifier "y", ⟨1, 1⟩⟩] := by with_unfolding_all rfl
  have hpx : Program.ofTokens [⟨.identifier "x", ⟨1, 1⟩⟩] =
      .ok { statements := [], result := some (.var "x") } := rfl
  have hpy : Program.ofTokens [⟨.identifier "y", ⟨1, 1⟩⟩] =
      .ok { statements := [], result := some (.var "y") } := rfl
  have hcompleted : evaluateWithin 9 "x" w =
      (.returned (.ok (.completed (some (.bool true)))), { w with context := c.wait 1 }) := by
    rw [evaluateWithin_of_ofTokens htx hpx]
    rfl
  have hfailed : evaluateWithin 9 "y" w =
      (.returned (.ok (.failed "error: undefined variable `y`")), { w with context := c.wait 1 }) := by
    rw [evaluateWithin_of_ofTokens hty hpy]
    rfl
  refine ⟨⟨congrArg Prod.fst hcompleted, ?_⟩, congrArg Prod.fst hfailed, ?_⟩
  · exact evaluateWithin_semicolon ⟨_, _, htx, hpx⟩ (by rw [hcompleted]; nofun)
      (by rw [hcompleted]; rfl)
  · exact evaluateWithin_semicolon ⟨_, _, hty, hpy⟩ (by rw [hfailed]; nofun) (by rw [hfailed]; rfl)

end ReplDaemon.Script
