import ReplDaemon.Proofs.Script.Program.Indices
import ReplDaemon.Proofs.Script.Token.Cut
import ReplDaemon.Proofs.Script.Watch.Evaluation

/-!
# Evaluations without a fault

An evaluation in which every operation that is not defined everywhere is applied as such: the text is cut
into tokens, they are read by index, and the program is run under watch. It comes to no fault, whatever
the source and the variables are, so it is the evaluation; and no evaluation breaks the engine down.
-/

namespace ReplDaemon.Script

/-- How a watched run is answered, unless it comes to a fault. -/
def endingFaulting : Except Halt (Option Value) → Except Fault Ending
  | .ok value => .ok (ending (.ok value))
  | .error (.stop s) => .ok (ending (.error s))
  | .error (.fault f) => .error f

/-- Evaluates a source, unless that comes to a fault. -/
def evaluateFaulting (rounds : Nat) (source : String) (w : World) : Except Fault (Ending × World) := do
  match ← tokensCut source with
  | .error e => return (.returned (.ok (.failed ("syntax error: " ++ e.message))), w)
  | .ok ts =>
    match ← Program.ofIndexedTokens ts with
    | .error e => return (e.ending, w)
    | .ok p =>
      let (outcome, w, _) := p.watched rounds (w, [])
      return (← endingFaulting outcome, w)

/-- All values keep to no property in particular. -/
theorem Kept.unconditional : Kept (fun _ => True) fun _ => True where
  scalar _ := trivial
  ofPart _ := trivial
  nest _ _ := trivial
  list_iff := ⟨fun _ _ _ => trivial, fun _ => trivial⟩
  noEntries := trivial
  entry _ _ := ⟨trivial, trivial⟩
  assign _ _ _ _ := trivial

theorem ParseError.ending_ne_panicked {e : ParseError} (h : e ≠ .unbalanced)
    (detail : Option String) : e.ending ≠ .panicked detail := by
  cases e with
  | unbalanced => exact absurd rfl h
  | unexpectedEnd | unexpected | invalidTarget | tooDeep => exact nofun

theorem ending_ne_panicked (outcome : Except Stop (Option Value)) (detail : Option String) :
    ending outcome ≠ .panicked detail := by
  rcases outcome with (_ | _ | _) | _ <;> exact nofun

/-- No program comes to a fault. -/
theorem Program.watched_faultless (p : Program) (rounds : Nat) (w : World) :
    ∃ noted, p.watched rounds (w, []) =
      ((p.run rounds w).1.mapError .stop, (p.run rounds w).2, noted) := by
  obtain ⟨noted, hwatched, -⟩ := p.watched_mirrors .unconditional rounds w [] fun _ _ => trivial
  exact ⟨noted, hwatched⟩

theorem evaluateFaulting_eq (rounds : Nat) (source : String) (w : World) :
    evaluateFaulting rounds source w = .ok (evaluateWithin rounds source w) := by
  unfold evaluateFaulting evaluateWithin
  rw [tokensCut_eq]
  cases tokens source with
  | error e => rfl
  | ok ts =>
      dsimp only
      show (Program.ofIndexedTokens ts >>= _) = _
      rw [Program.ofIndexedTokens_eq]
      cases Program.ofTokens ts with
      | error e => rfl
      | ok p =>
          obtain ⟨noted, hwatched⟩ := p.watched_faultless rounds w
          dsimp only
          show (endingFaulting (p.watched rounds (w, [])).1 >>= fun ending =>
            pure (ending, (p.watched rounds (w, [])).2.1)) = _
          rw [hwatched]
          rcases p.run rounds w with ⟨_ | _, w'⟩ <;> rfl

theorem evaluateWithin_ne_panicked (rounds : Nat) (source : String) (w : World)
    (detail : Option String) : (evaluateWithin rounds source w).1 ≠ .panicked detail := by
  unfold evaluateWithin
  cases tokens source with
  | error e => exact nofun
  | ok ts =>
      have hbalanced := Program.ofTokens_ne_unbalanced ts
      dsimp only
      cases hp : Program.ofTokens ts with
      | error e => exact ParseError.ending_ne_panicked (fun he => hbalanced (he ▸ hp)) detail
      | ok p => exact ending_ne_panicked _ detail

/-- However often loops may go round, an evaluation comes to no fault; and it never ends with the engine
breaking down. -/
theorem evaluate_faultless (source : String) (vars : Bindings) (context : Context) :
    (∀ rounds, evaluateFaulting rounds source { vars, context } =
      .ok (evaluateWithin rounds source { vars, context })) ∧
      ∀ detail, (evaluate source vars context).ending ≠ .panicked detail :=
  ⟨fun rounds => evaluateFaulting_eq rounds source _, evaluateWithin_ne_panicked _ source _⟩

end ReplDaemon.Script
