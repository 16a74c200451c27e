import ReplDaemon.Engine.Script
import ReplDaemon.Proofs.Script.Replay

/-!
# Evaluations in time

An evaluation that is done in time does not depend on when it starts and on how much time it is
given: two evaluations of one source with the same variables end the same way, leave the same
variables and print the same.
-/

namespace ReplDaemon

/-- Whether an evaluation that ends in a context is done in time: nobody has cancelled it, and if it
has no end then nobody is going to. -/
def Ending.InTime (e : Ending) (c : Context) : Prop :=
  c.cancelled = false ∧ (e = .endless → c.cancelAt = none)

/-- Two reports tell the same, except for the time. -/
structure Report.Agrees {Shared Session : Type} (r r' : Report Shared Session) : Prop where
  ending : r'.ending = r.ending
  shared : r'.shared = r.shared
  session : r'.session = r.session
  output : r'.context.output = r.context.output

namespace Context

/-- Evaluations in the two contexts can be compared: the output is the same, and what is given a
deadline in one of them is given no more time than what counts as endless in the other takes. -/
structure Comparable (c c' : Context) : Prop where
  output : c'.output = c.output
  left : c'.cancelAt = none → ∀ t ∈ c.cancelAt, t ≤ c.clock + Script.patience
  right : c.cancelAt = none → ∀ t ∈ c'.cancelAt, t ≤ c'.clock + Script.patience

theorem Comparable.symm {c c' : Context} (h : c.Comparable c') : c'.Comparable c :=
  ⟨h.output.symm, h.right, h.left⟩

/-- A context allows what takes some time: there is no cancellation before that, and no loop that
takes less time counts as endless. -/
def Allows (c : Context) (time : Nat) : Prop :=
  match c.cancelAt with
  | none => time < Script.patience
  | some t => c.clock + time < t

theorem Allows.mono {c : Context} {time time' : Nat} (h : c.Allows time) (hle : time' ≤ time) :
    c.Allows time' := by
  unfold Allows at h ⊢
  cases hat : c.cancelAt with
  | none =>
      rw [hat] at h
      exact Nat.lt_of_le_of_lt hle h
  | some t =>
      rw [hat] at h
      exact Nat.lt_of_le_of_lt (Nat.add_le_add_left hle _) h

theorem Allows.lt_roundsIn {c : Context} {time : Nat} (h : c.Allows time) :
    time < Script.roundsIn c := by
  unfold Allows at h
  unfold Script.roundsIn
  cases hat : c.cancelAt with
  | none =>
      rw [hat] at h
      exact h
  | some t =>
      rw [hat] at h
      simp only at h ⊢
      grind

theorem Allows.not_cancelled {c c' d : Context}
    (h : c'.Allows (d.clock - c.clock)) : (replay c d c').cancelled = false := by
  rw [cancelled_eq_false_iff]
  intro t ht
  have hat : c'.cancelAt = some t := ht
  unfold Allows at h
  rw [hat] at h
  exact h

/-- What ends uncancelled before a deadline was allowed. -/
theorem Leads.allows {c d : Context} (h : c.Leads d) (hd : d.cancelled = false)
    (hat : c.cancelAt.isSome) : c.Allows (d.clock - c.clock) := by
  obtain ⟨t, ht⟩ := Option.isSome_iff_exists.mp hat
  have hlt := (cancelled_eq_false_iff d).mp hd t (h.cancelAt.trans ht)
  have hclock := h.clock
  unfold Allows
  rw [ht]
  simp only
  grind

/-- What a deadline allows is allowed where there is none. -/
theorem Comparable.allows {c c' : Context} (h : c.Comparable c') {time : Nat}
    (hnone : c'.cancelAt = none) (hat : c.cancelAt.isSome) (hc : c.Allows time) :
    c'.Allows time := by
  obtain ⟨t, ht⟩ := Option.isSome_iff_exists.mp hat
  have hle := h.left hnone t ht
  unfold Allows at hc ⊢
  rw [ht] at hc
  rw [hnone]
  simp only at hc ⊢
  grind

end Context

/-- Evaluations of an engine pass time forward, agree where they are done in time, and leave no trace
of an incomplete source. -/
structure Engine.Steady {State : Type} (engine : Engine Unit State) : Prop where
  leads : ∀ (source : String) (state : State) (c : Context),
    c.Leads (engine.evaluate source ⟨⟩ state c).context
  agrees : ∀ (source : String) (state : State) (c c' : Context), c.Comparable c' →
    (engine.evaluate source ⟨⟩ state c).ending.InTime (engine.evaluate source ⟨⟩ state c).context →
    (engine.evaluate source ⟨⟩ state c').ending.InTime
      (engine.evaluate source ⟨⟩ state c').context →
    (engine.evaluate source ⟨⟩ state c).Agrees (engine.evaluate source ⟨⟩ state c')
  incomplete : ∀ (source : String) (state : State) (c : Context),
    (engine.evaluate source ⟨⟩ state c).ending = .returned (.ok .incomplete) →
    (engine.evaluate source ⟨⟩ state c).session = state ∧
      (engine.evaluate source ⟨⟩ state c).context = c

namespace Script

namespace Action

variable {α : Type}

/-- An action ends in time, as an evaluation does. -/
def InTime (r : Except Stop α × World) : Prop :=
  r.2.context.cancelled = false ∧ (r.1 = .error .endless → r.2.context.cancelAt = none)

/-- Two runs of an action come to the same, except for the time. -/
structure Agrees (r r' : Except Stop α × World) : Prop where
  outcome : r'.1 = r.1
  vars : r'.2.vars = r.2.vars
  output : r'.2.context.output = r.2.context.output

theorem Agrees.symm {r r' : Except Stop α × World} (h : Agrees r r') : Agrees r' r :=
  ⟨h.outcome.symm, h.vars.symm, h.output.symm⟩

/-- A run that is in time before its deadline comes to an end. -/
theorem InTime.ends {r : Except Stop α × World} (h : InTime r)
    (hat : r.2.context.cancelAt.isSome) : r.1 ≠ .error .endless := by
  intro he
  rw [h.2 he] at hat
  cases hat

/-- A run that comes to an end uncancelled comes to the same in every world that allows the time it
takes, with all the rounds that its loops may have there. -/
theorem Built.agrees_of_allows {a : Nat → Action α} (h : Built a) {rounds : Nat} {w w' : World}
    (hvars : w'.vars = w.vars) (hout : w'.context.output = w.context.output)
    (hends : (a rounds w).1 ≠ .error .endless)
    (hcalm : (a rounds w).2.context.cancelled = false)
    (hallows : w'.context.Allows ((a rounds).elapsed w)) :
    Agrees (a rounds w) (a (roundsIn w'.context) w') := by
  have hmatch := h.matches rounds (roundsIn w'.context) w hends hallows.lt_roundsIn
  rw [← hmatch] at hcalm
  have hcalm' : (World.replay w (a (roundsIn w'.context) w).2 w').context.cancelled = false := by
    rw [hmatch]
    exact hallows.not_cancelled
  have hreplay := h.replays (roundsIn w'.context) w w' hvars hout hcalm hcalm'
  rw [hreplay, hmatch]
  exact ⟨rfl, rfl, rfl⟩

/-- Two runs in time agree. -/
theorem Built.agrees {a : Nat → Action α} (h : Built a) {w w' : World}
    (hvars : w'.vars = w.vars) (hc : w.context.Comparable w'.context)
    (hin : InTime (a (roundsIn w.context) w)) (hin' : InTime (a (roundsIn w'.context) w')) :
    Agrees (a (roundsIn w.context) w) (a (roundsIn w'.context) w') := by
  have hlead := h.leads (roundsIn w.context) w
  have hlead' := h.leads (roundsIn w'.context) w'
  have forth (hat : w.context.cancelAt.isSome)
      (hallows : w'.context.Allows ((a (roundsIn w.context)).elapsed w)) :
      Agrees (a (roundsIn w.context) w) (a (roundsIn w'.context) w') :=
    h.agrees_of_allows hvars hc.output (hin.ends (by rwa [hlead.cancelAt])) hin.1 hallows
  have back (hat' : w'.context.cancelAt.isSome)
      (hallows : w.context.Allows ((a (roundsIn w'.context)).elapsed w')) :
      Agrees (a (roundsIn w.context) w) (a (roundsIn w'.context) w') :=
    (h.agrees_of_allows hvars.symm hc.output.symm (hin'.ends (by rwa [hlead'.cancelAt])) hin'.1
      hallows).symm
  cases hat : w.context.cancelAt with
  | none =>
      cases hat' : w'.context.cancelAt with
      | none =>
          have hcalm : (World.replay w (a (roundsIn w.context) w).2 w').context.cancelled = false := by
            simp [World.replay, Context.replay, Context.cancelled, hat']
          have hrounds : roundsIn w'.context = roundsIn w.context := by simp [roundsIn, hat, hat']
          rw [hrounds, h.replays _ w w' hvars hc.output hin.1 hcalm]
          exact ⟨rfl, rfl, rfl⟩
      | some t' =>
          have hsome : w'.context.cancelAt.isSome := by rw [hat']; rfl
          exact back hsome (hc.symm.allows hat hsome (hlead'.allows hin'.1 hsome))
  | some t =>
      have hsome : w.context.cancelAt.isSome := by rw [hat]; rfl
      have hallows := hlead.allows hin.1 hsome
      cases hat' : w'.context.cancelAt with
      | none => exact forth hsome (hc.allows hat' hsome hallows)
      | some t' =>
          have hsome' : w'.context.cancelAt.isSome := by rw [hat']; rfl
          have hallows' := hlead'.allows hin'.1 hsome'
          -- The run that takes less time fits in the world of the other one.
          rcases Nat.le_total ((a (roundsIn w.context)).elapsed w)
            ((a (roundsIn w'.context)).elapsed w') with hle | hle
          · exact forth hsome (hallows'.mono hle)
          · exact back hsome' (hallows.mono hle)

end Action

theorem ending_eq_endless {o : Except Stop (Option Value)} :
    ending o = .endless ↔ o = .error .endless := by
  rcases o with (_ | _ | _) | _ <;> simp [ending]

theorem ParseError.ending_ne_endless (e : ParseError) : e.ending ≠ .endless := by
  cases e <;> simp [ParseError.ending]

/-- The evaluation of a source that spells a program is the run of it. -/
theorem evaluate_of_ofTokens {source : String} {ts : List PlacedToken} {p : Program}
    (htokens : tokens source = .ok ts) (hprogram : Program.ofTokens ts = .ok p) (vars : Bindings)
    (c : Context) :
    evaluate source vars c =
      { ending := ending (p.run (roundsIn c) { vars, context := c }).1, shared := ()
        session := (p.run (roundsIn c) { vars, context := c }).2.vars
        context := (p.run (roundsIn c) { vars, context := c }).2.context } := by
  simp only [evaluate, evaluateWithin, htokens, hprogram]
  rfl

/-- An evaluation either stops before it has done anything or is the run of a program. -/
theorem evaluate_cases (source : String) :
    (∃ e : Ending, e ≠ .endless ∧ ∀ (vars : Bindings) (c : Context),
      evaluate source vars c = { ending := e, shared := (), session := vars, context := c }) ∨
    ∃ p : Program, ∀ (vars : Bindings) (c : Context), evaluate source vars c =
      { ending := ending (p.run (roundsIn c) { vars, context := c }).1, shared := ()
        session := (p.run (roundsIn c) { vars, context := c }).2.vars
        context := (p.run (roundsIn c) { vars, context := c }).2.context } := by
  cases htokens : tokens source with
  | error e =>
      refine .inl ⟨.returned (.ok (.failed ("syntax error: " ++ e.message))), by simp, ?_⟩
      intro vars c
      simp only [evaluate, evaluateWithin, htokens]
  | ok ts =>
      cases hprogram : Program.ofTokens ts with
      | error e =>
          refine .inl ⟨e.ending, e.ending_ne_endless, fun vars c => ?_⟩
          simp only [evaluate, evaluateWithin, htokens, hprogram]
      | ok p => exact .inr ⟨p, evaluate_of_ofTokens htokens hprogram⟩

theorem leads_evaluate (source : String) (vars : Bindings) (c : Context) :
    c.Leads (evaluate source vars c).context := by
  rcases evaluate_cases source with ⟨e, _, h⟩ | ⟨p, h⟩
  · rw [h]
    exact .refl c
  · rw [h]
    exact p.run_built.leads (roundsIn c) { vars, context := c }

/-- Two evaluations in time agree. -/
theorem evaluate_agrees {source : String} {vars : Bindings} {c c' : Context}
    (h : c.Comparable c')
    (hin : (evaluate source vars c).ending.InTime (evaluate source vars c).context)
    (hin' : (evaluate source vars c').ending.InTime (evaluate source vars c').context) :
    (evaluate source vars c).Agrees (evaluate source vars c') := by
  rcases evaluate_cases source with ⟨e, _, hstop⟩ | ⟨p, hrun⟩
  · rw [hstop, hstop]
    exact ⟨rfl, rfl, rfl, h.output⟩
  · rw [hrun] at hin hin' ⊢
    rw [hrun]
    have hvars : ({ vars, context := c' } : World).vars = ({ vars, context := c } : World).vars := rfl
    have hagrees := p.run_built.agrees hvars h
      ⟨hin.1, fun he => hin.2 (ending_eq_endless.mpr he)⟩
      ⟨hin'.1, fun he => hin'.2 (ending_eq_endless.mpr he)⟩
    exact ⟨congrArg ending hagrees.outcome, rfl, hagrees.vars, hagrees.output⟩

/-- An incomplete source leaves no trace. -/
theorem evaluate_incomplete {source : String} {vars : Bindings} {c : Context}
    (h : (evaluate source vars c).ending = .returned (.ok .incomplete)) :
    (evaluate source vars c).session = vars ∧ (evaluate source vars c).context = c := by
  rcases evaluate_cases source with ⟨e, _, hstop⟩ | ⟨p, hrun⟩
  · rw [hstop]
    exact ⟨rfl, rfl⟩
  · rw [hrun] at h
    rcases hresult : (p.run (roundsIn c) { vars, context := c }).1 with (_ | _ | _) | _ <;>
      simp [hresult, ending] at h

/-- The script engine is steady, whatever its prelude is. -/
theorem steady_engine (prelude : List String) : (engine prelude).Steady where
  leads := leads_evaluate
  agrees _ _ _ _ := evaluate_agrees
  incomplete _ _ _ := evaluate_incomplete

end Script

end ReplDaemon
