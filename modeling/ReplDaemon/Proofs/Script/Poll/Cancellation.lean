import ReplDaemon.Proofs.Script.Discard
import ReplDaemon.Proofs.Script.Poll.Looks

/-!
# Cancellation takes effect at the first look that is told of it

Whatever the looks of a run are told: the run ends cancelled just where one of them is told of a
cancellation, and leaves the variables and the output that this look has seen. Until then, and altogether if
there is no such look, it is the run that is never cancelled.
-/

namespace ReplDaemon.Script

section Looks

variable {answers : Answers} {number : Nat} {before before' after after' : List Event} {s s' : Snapshot}

/-- A look that is told of a cancellation does not come before those that are told of none. -/
theorem Silent.exists_append (h : before ++ .look s :: after = before' ++ .look s' :: after')
    (hsilent : Silent answers number before')
    (htold : answers (number + looksIn before) s.clock = true) :
    ∃ rest : List Event, before = before' ++ rest ∧ .look s' :: after' = rest ++ .look s :: after := by
  obtain ⟨rest, rfl, hrest⟩ | ⟨rest, rfl, hrest⟩ := List.append_eq_append_iff.mp h
  · obtain ⟨rfl, hcons⟩ | ⟨rest', rfl, -⟩ := List.cons_eq_append_iff.mp hrest
    · refine ⟨[], ?_, hcons⟩
      simp only [List.append_nil]
    · obtain ⟨-, hfalse, -⟩ := silent_append_iff.mp hsilent
      cases htold.symm.trans hfalse
  · exact ⟨rest, rfl, hrest⟩

theorem Silent.not_told (h : Silent answers number (before ++ .look s :: after)) :
    answers (number + looksIn before) s.clock = false :=
  (silent_append_iff.mp h).2.1

end Looks

/-- What comes of a program whose looks are told of a cancellation from outside. -/
structure Account where
  ending : Ending
  left : Snapshot
  log : List Event

namespace Program

/-- Runs a program, with whatever its looks are told. -/
def evaluatePolled (p : Program) (rounds : Nat) (answers : Answers) (s : Snapshot) : Account :=
  let r := p.polled rounds answers (s, [])
  { ending := ending r.1, left := r.2.1, log := r.2.2 }

/-- Cancellation takes effect at the first look that is told of it, and nowhere else. -/
structure StopsAtLook (p : Program) (rounds : Nat) (s : Snapshot) : Prop where
  /-- With what the looks of an evaluation are told that is cancelled at some instant, or never, it is the
  run in that evaluation. -/
  runs (cancelAt : Option Instant) :
    let account := p.evaluatePolled rounds (.cancelledAt cancelAt) s
    ending (p.run rounds (s.under cancelAt)).1 = account.ending ∧
      (p.run rounds (s.under cancelAt)).2 = account.left.under cancelAt
  evaluates (cancelAt : Option Instant) (source : String) (ts : List PlacedToken) :
    Script.tokens source = .ok ts → ofTokens ts = .ok p →
      let account := p.evaluatePolled rounds (.cancelledAt cancelAt) s
      evaluateWithin rounds source (s.under cancelAt) = (account.ending, account.left.under cancelAt)
  /-- A look that is told of a cancellation is the last thing that happens. -/
  told (answers : Answers) (before : List Event) (seen : Snapshot) (after : List Event) :
    let account := p.evaluatePolled rounds answers s
    account.log = before ++ .look seen :: after → answers (looksIn before) seen.clock = true →
      account.ending = .returned (.error .cancelled) ∧ account.left = seen ∧ after = []
  untold (answers : Answers) :
    Silent answers 0 (p.evaluatePolled rounds answers s).log →
      p.evaluatePolled rounds answers s = p.evaluatePolled rounds .never s
  /-- Until the first look that is told of a cancellation, all is as if there were none. -/
  first (answers : Answers) (before : List Event) (seen : Snapshot) (after : List Event) :
    (p.evaluatePolled rounds .never s).log = before ++ .look seen :: after →
      Silent answers 0 before → answers (looksIn before) seen.clock = true →
        p.evaluatePolled rounds answers s =
          { ending := .returned (.error .cancelled), left := seen, log := before ++ [.look seen] }
  led (answers : Answers) : Led (p.evaluatePolled rounds answers s).log
  /-- Where the evaluation has been cancelled before, nothing begins. -/
  atOnce (answers : Answers) :
    p.statements ≠ [] ∨ p.result.isSome = true → answers 0 s.clock = true →
      p.evaluatePolled rounds answers s =
        { ending := .returned (.error .cancelled), left := s, log := [.look s] }

variable (p : Program) (rounds : Nat) (answers : Answers) (s : Snapshot)

theorem evaluatePolled_of_polled {outcome : Except Stop (Option Value)} {left : Snapshot}
    {log : List Event} (h : p.polled rounds answers (s, []) = (outcome, left, log)) :
    p.evaluatePolled rounds answers s = { ending := ending outcome, left, log } := by
  rw [evaluatePolled, h]

/-- The account of a program, compared with that of one that is never cancelled. -/
theorem evaluatePolled_cases :
    (Silent answers 0 (p.evaluatePolled rounds .never s).log ∧
      p.evaluatePolled rounds answers s = p.evaluatePolled rounds .never s) ∨
    ∃ (before : List Event) (seen : Snapshot) (after : List Event),
      (p.evaluatePolled rounds .never s).log = before ++ .look seen :: after ∧
        Silent answers 0 before ∧ answers (looksIn before) seen.clock = true ∧
          p.evaluatePolled rounds answers s =
            { ending := .returned (.error .cancelled), left := seen, log := before ++ [.look seen] } := by
  cases p.polled_mirrors.heeding answers s [] with
  | silent more hlog hsilent hsame =>
      refine .inl ⟨?_, by rw [evaluatePolled, evaluatePolled, hsame]⟩
      rw [List.nil_append] at hlog
      rw [evaluatePolled, hlog]
      exact hsilent
  | told before seen after hlog hbefore htold hstop =>
      rw [List.nil_append] at hlog hstop
      rw [looksIn, Nat.zero_add] at htold
      exact .inr ⟨before, seen, after, hlog, hbefore, htold,
        evaluatePolled_of_polled p rounds answers s hstop⟩

/-- Where the first look of all is told of a cancellation, nothing is done. -/
theorem polled_atOnce (hsome : p.statements ≠ [] ∨ p.result.isSome = true)
    (htold : answers 0 s.clock = true) :
    p.polled rounds answers (s, []) = (.error .cancelled, s, [.look s]) := by
  have hcheckpoint : Poll.checkpoint answers (s, []) = (.error .cancelled, s, [.look s]) :=
    Poll.bind_error (Poll.look_told htold)
  obtain ⟨statements, result⟩ := p
  cases statements with
  | cons first rest =>
      refine Poll.bind_error ?_
      rw [allPolled]
      exact Poll.bind_error hcheckpoint
  | nil =>
      cases result with
      | none => simp at hsome
      | some e =>
          have hnone : allPolled rounds [] answers (s, []) = (.ok (), s, []) := by
            rw [allPolled]
            rfl
          refine (Poll.bind_ok hnone).trans ?_
          exact Poll.bind_error hcheckpoint

/-- Cancellation takes effect at the first look that is told of it, and nowhere else; and whatever begins
is behind a look of its own. -/
theorem stopsAtLook : p.StopsAtLook rounds s where
  runs cancelAt := by
    obtain ⟨t, more, hpolled, hworld⟩ := p.polled_mirrors.standing cancelAt s []
    rw [evaluatePolled_of_polled p rounds _ s hpolled]
    exact ⟨rfl, hworld⟩
  evaluates cancelAt source ts htokens hprogram := by
    obtain ⟨t, more, hpolled, hworld⟩ := p.polled_mirrors.standing cancelAt s []
    rw [evaluateWithin_of_ofTokens htokens hprogram, evaluatePolled_of_polled p rounds _ s hpolled,
      hworld]
  told answers before seen after hlog htold := by
    have hnumber : answers (0 + looksIn before) seen.clock = true := by rwa [Nat.zero_add]
    rcases p.evaluatePolled_cases rounds answers s with
      ⟨hsilent, hsame⟩ | ⟨before', seen', after', -, hsilent, -, hstop⟩
    · rw [hsame] at hlog
      rw [hlog] at hsilent
      cases hnumber.symm.trans hsilent.not_told
    · rw [hstop] at hlog ⊢
      obtain ⟨rest, rfl, hrest⟩ := hsilent.exists_append hlog.symm hnumber
      obtain ⟨rfl, hcons⟩ | ⟨rest', rfl, hnil⟩ := List.cons_eq_append_iff.mp hrest
      · cases hcons
        exact ⟨rfl, rfl, rfl⟩
      · simp at hnil
  untold answers hsilent := by
    rcases p.evaluatePolled_cases rounds answers s with
      ⟨-, hsame⟩ | ⟨before, seen, after, -, -, htold, hstop⟩
    · exact hsame
    · rw [hstop] at hsilent
      have hfalse := hsilent.not_told
      rw [Nat.zero_add] at hfalse
      cases htold.symm.trans hfalse
  first answers before seen after hlog hsilent htold := by
    have hnumber : answers (0 + looksIn before) seen.clock = true := by rwa [Nat.zero_add]
    rcases p.evaluatePolled_cases rounds answers s with
      ⟨hnone, -⟩ | ⟨before', seen', after', hlog', hsilent', htold', hstop⟩
    · rw [hlog] at hnone
      cases hnumber.symm.trans hnone.not_told
    · have hnumber' : answers (0 + looksIn before') seen'.clock = true := by rwa [Nat.zero_add]
      have heq := hlog.symm.trans hlog'
      obtain ⟨rest, hbefore, hrest⟩ := hsilent'.exists_append heq hnumber
      obtain ⟨rest', hbefore', -⟩ := hsilent.exists_append heq.symm hnumber'
      obtain rfl : rest = [] := by
        have hlength := congrArg List.length hbefore
        rw [hbefore', List.length_append, List.length_append] at hlength
        exact List.length_eq_zero_iff.mp (by omega)
      rw [List.append_nil] at hbefore
      cases hbefore
      cases hrest
      exact hstop
  led answers := by
    obtain ⟨more, hlog, hled⟩ := p.polled_mirrors.leading answers s []
    rw [List.nil_append] at hlog
    rw [evaluatePolled, hlog]
    exact hled
  atOnce answers hsome htold :=
    evaluatePolled_of_polled p rounds answers s (p.polled_atOnce rounds answers s hsome htold)

/-- The fourth look is the one in front of the assignment, in the first round of the loop. -/
example :
    let body : List Stmt := [.assign (.variable "x") (.literal (.int 2))]
    let p : Program :=
      { statements := [.declare "x" (.literal (.int 1)), .whileLoop (.literal (.bool true)) body],
        result := none }
    let s : Snapshot := { vars := .empty, output := .empty 100, clock := 0 }
    let account := p.evaluatePolled 9 (fun looks _ => looks == 3) s
    account.ending = .returned (.error .cancelled) ∧
      account.left.vars = Bindings.empty.set "x" (.int 1) ∧ looksIn account.log = 4 := by
  cbv

end Program

end ReplDaemon.Script
