import Mathlib
import ReplDaemon.Proofs.Script.Program.Sequence
import ReplDaemon.Proofs.Script.Rounds
import ReplDaemon.Proofs.Script.Token.Join

/-!
# One source after the other

A closed source with another one in the lines below is run like the two when they are sent one after the
other: the second one finds the variables, the output and the time that the first one leaves, and is not
run unless that completes.
-/

namespace ReplDaemon.Script

theorem runAll_append (rounds : Nat) (ss ts : List Stmt) :
    runAll rounds (ss ++ ts) = runAll rounds ss >>= fun _ => runAll rounds ts := by
  induction ss with
  | nil => rw [List.nil_append, runAll, pure_bind]
  | cons s ss ih => simp only [List.cons_append, runAll, ih, bind_assoc]

/-- Statements of a program behind those of one without a result are run after it. -/
theorem Program.run_append {p : Program} (hresult : p.result = none) (q : Program) (rounds : Nat) :
    Program.run rounds { statements := p.statements ++ q.statements, result := q.result } =
      p.run rounds >>= fun _ => q.run rounds := by
  unfold Program.run
  simp only [runAll_append, hresult, bind_assoc, pure_bind]

/-- A source that has no tokens, whose last token is a semicolon or whose last statement ends with a
block, with another one below: what the first one leaves is what the second one starts from, and what
stops the first one stops the whole. -/
theorem evaluate_newline {a b : String} {ta tb : List PlacedToken} {p q : Program}
    (hta : tokens a = .ok ta) (hp : Program.ofTokens ta = .ok p)
    (hclosed : Closed (ta.map (·.token)) ∨
      p.result = none ∧ ∃ s ∈ p.statements.getLast?, s.endsWithBlock = true)
    (htb : tokens b = .ok tb) (hq : Program.ofTokens tb = .ok q) (vars : Bindings) (c : Context) :
    evaluate (a ++ "\n" ++ b) vars c =
      match (evaluate a vars c).ending with
      | .returned (.ok (.completed _)) =>
          evaluate b (evaluate a vars c).session (evaluate a vars c).context
      | _ => evaluate a vars c := by
  have hplaces : (tb.map (·.down (a.toList.count '\n' + 1))).map (·.token) = tb.map (·.token) := by
    simp [PlacedToken.down]
  obtain ⟨hresult, hwhole⟩ := Program.ofTokens_append hp hq hclosed hplaces
  have hlead := p.run_built.leads (roundsIn c) { vars, context := c }
  rw [evaluate_of_ofTokens (tokens_newline hta htb) hwhole, evaluate_of_ofTokens hta hp,
    Program.run_append hresult, bind_apply]
  generalize p.run (roundsIn c) { vars, context := c } = r at hlead ⊢
  obtain ⟨outcome, w⟩ := r
  cases outcome with
  | error stop => cases stop <;> rfl
  | ok value =>
      rw [evaluate_of_ofTokens htb hq, ← q.run_built.roundsIn_of_leads hlead]
      rfl

/-- A declaration that completes where there is the other variable, and fails where there is none. -/
theorem evaluate_newline_declaration :
    let c : Context := { output := .empty 100, clock := 0, cancelAt := some 9 }
    let vars := Bindings.empty.set "y" (.int 2)
    ((evaluate "let x = y;" vars c).ending = .returned (.ok (.completed none)) ∧
      evaluate ("let x = y;" ++ "\n" ++ "x") vars c =
        evaluate "x" (evaluate "let x = y;" vars c).session (evaluate "let x = y;" vars c).context) ∧
    (evaluate "let x = y;" .empty c).ending =
        .returned (.ok (.failed "error: undefined variable `y`")) ∧
      evaluate ("let x = y;" ++ "\n" ++ "x") .empty c = evaluate "let x = y;" .empty c := by
  intro c vars
  have hta : tokens "let x = y;" = .ok [⟨.keyword .letWord, ⟨1, 1⟩⟩, ⟨.identifier "x", ⟨1, 5⟩⟩,
      ⟨.operator .assign, ⟨1, 7⟩⟩, ⟨.identifier "y", ⟨1, 9⟩⟩, ⟨.delimiter .semicolon, ⟨1, 10⟩⟩] := by
    cbv
  have hp : Program.ofTokens [⟨.keyword .letWord, ⟨1, 1⟩⟩, ⟨.identifier "x", ⟨1, 5⟩⟩,
      ⟨.operator .assign, ⟨1, 7⟩⟩, ⟨.identifier "y", ⟨1, 9⟩⟩, ⟨.delimiter .semicolon, ⟨1, 10⟩⟩] =
      .ok { statements := [.declare "x" (.var "y")], result := none } := rfl
  have htb : tokens "x" = .ok [⟨.identifier "x", ⟨1, 1⟩⟩] := by cbv
  have hcompleted : (evaluate "let x = y;" vars c).ending = .returned (.ok (.completed none)) := by
    rw [evaluate_of_ofTokens hta hp]
    rfl
  have hfailed : (evaluate "let x = y;" .empty c).ending =
      .returned (.ok (.failed "error: undefined variable `y`")) := by
    rw [evaluate_of_ofTokens hta hp]
    rfl
  have hwhole := evaluate_newline hta hp (.inl (by rintro t ⟨⟩; rfl)) htb rfl
  refine ⟨⟨hcompleted, ?_⟩, hfailed, ?_⟩
  · rw [hwhole, hcompleted]
  · rw [hwhole, hfailed]

end ReplDaemon.Script
