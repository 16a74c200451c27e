import ReplDaemon.Engine.Script
import ReplDaemon.Proofs.Script.Watch.Mirror

/-!
# Watched evaluations

An evaluation under watch is the same evaluation. Of a property that operations keep, it shows that it is
one of all values, in every session whose variables come from evaluations.
-/

namespace ReplDaemon.Script

/-- How a watched run is answered. A fault breaks the engine down. -/
def endingWatched : Except Halt (Option Value) → Ending
  | .ok value => ending (.ok value)
  | .error (.stop s) => ending (.error s)
  | .error (.fault _) => .panicked none

/-- Runs a program under watch. -/
def Program.evaluateWatched (p : Program) (rounds : Nat) (w : World) :
    Ending × World × List Value :=
  let (outcome, w, noted) := p.watched rounds (w, [])
  (endingWatched outcome, w, noted)

/-- Evaluates a source under watch, in a session with these variables. -/
def evaluateWatched (source : String) (vars : Bindings) (context : Context) :
    Report Unit Bindings × List Value :=
  let w : World := { vars, context }
  let (ending, w, noted) : Ending × World × List Value :=
    match tokens source with
    | .error e => (.returned (.ok (.failed ("syntax error: " ++ e.message))), w, [])
    | .ok ts =>
      match Program.ofTokens ts with
      | .error e => (e.ending, w, [])
      | .ok p => p.evaluateWatched (roundsIn context) w
  ({ ending, shared := (), session := w.vars, context := w.context }, noted)

/-- Variables that evaluations leave behind in a new session: of any sources, in any contexts, and
however they end. -/
inductive Reached : Bindings → Prop
  | new : Reached .empty
  | after {vars : Bindings} (h : Reached vars) (source : String) (context : Context) :
      Reached (evaluate source vars context).session

variable {whole part : Value → Prop}

theorem ending_eq_completed {outcome : Except Stop (Option Value)} {value : Option Value}
    (h : ending outcome = .returned (.ok (.completed value))) : outcome = .ok value := by
  rcases outcome with (_ | _ | _) | _ <;> cases h
  rfl

/-- What is kept by a run of a program. -/
theorem Program.evaluateWatched_eq (hkept : Kept whole part) (p : Program) (rounds : Nat) {w : World}
    (hvars : w.vars.All whole) :
    ∃ noted, p.evaluateWatched rounds w =
        (ending (p.run rounds w).1, (p.run rounds w).2, noted) ∧
      (∀ v ∈ noted, whole v) ∧ (p.run rounds w).2.vars.All whole ∧
      ∀ v, (p.run rounds w).1 = .ok (some v) → whole v := by
  obtain ⟨noted, hwatched, hnoted, hafter, hresult⟩ := p.watched_mirrors hkept rounds w [] hvars
  refine ⟨noted, ?_, hnoted, hafter, fun v hv => hresult _ hv v rfl⟩
  rw [Program.evaluateWatched, hwatched]
  rcases (p.run rounds w).1 with _ | _ <;> rfl

/-- What is kept by an evaluation: all values noted have the property, all variables afterwards, and the
value that it comes to. -/
theorem evaluateWatched_eq (hkept : Kept whole part) (source : String) {vars : Bindings}
    (hvars : vars.All whole) (context : Context) :
    ∃ noted, evaluateWatched source vars context = (evaluate source vars context, noted) ∧
      (∀ v ∈ noted, whole v) ∧ (evaluate source vars context).session.All whole ∧
      ∀ v, (evaluate source vars context).ending = .returned (.ok (.completed (some v))) →
        whole v := by
  unfold evaluateWatched evaluate evaluateWithin
  cases tokens source with
  | error e => exact ⟨[], rfl, List.forall_mem_nil whole, hvars, fun v hv => by cases hv⟩
  | ok ts =>
      dsimp only
      cases Program.ofTokens ts with
      | error e =>
          refine ⟨[], rfl, List.forall_mem_nil whole, hvars, fun v hv => ?_⟩
          cases e <;> cases hv
      | ok p =>
          obtain ⟨noted, hwatched, hnoted, hafter, hresult⟩ :=
            p.evaluateWatched_eq hkept (roundsIn context) (w := ⟨vars, context⟩) hvars
          dsimp only
          rw [hwatched]
          exact ⟨noted, rfl, hnoted, hafter, fun v hv => hresult v (ending_eq_completed hv)⟩

/-- Properties that operations keep are ones of all variables that evaluations leave behind. -/
theorem Reached.all (hkept : Kept whole part) {vars : Bindings} (h : Reached vars) :
    vars.All whole := by
  induction h with
  | new => exact .empty whole
  | after _ source context ih =>
      obtain ⟨-, -, -, hafter, -⟩ := evaluateWatched_eq hkept source ih context
      exact hafter

end ReplDaemon.Script
