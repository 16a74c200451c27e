import ReplDaemon.Proofs.Script.Replay

/-!
# Runs that are never cancelled

What a run comes to where it ends well does not depend on its context, as long as it is not cancelled:
where it can never be, it comes to the same and leaves the same variables, whatever the output is.
-/

namespace ReplDaemon.Script

variable {α β : Type}

/-- What ends well does so again, with the same value, where it is never cancelled. -/
def Run.Repeats (r : Run α) : Prop :=
  ∀ ⦃c d : Context⦄ ⦃a : α⦄, r c = (.ok a, d) →
    ∀ c' : Context, c'.cancelAt = none → ∃ d', d'.cancelAt = none ∧ r c' = (.ok a, d')

theorem Run.Built.repeats {r : Run α} (h : r.Built) : r.Repeats := by
  induction h with
  | pure a =>
      rintro c d x ⟨⟩ c' hc'
      exact ⟨c', hc', rfl⟩
  | fail e => nofun
  | checkpoint =>
      intro c d x _ c' hc'
      have hcalm : c'.cancelled = false := by simp [Context.cancelled, hc']
      exact ⟨c'.wait 1, hc', by simp [Run.checkpoint_apply, hcalm]⟩
  | sleep time =>
      intro c d x _ c' hc'
      have hcalm : (c'.wait (time * millisecond)).cancelled = false := by
        simp [Context.cancelled, Context.wait, hc']
      exact ⟨c'.wait (time * millisecond), hc', Run.sleepFor_of_wait hcalm⟩
  | print s =>
      intro c d x _ c' hc'
      exact ⟨c'.printLine s, hc', rfl⟩
  | wait time =>
      intro c d x _ c' hc'
      exact ⟨c'.wait time, hc', rfl⟩
  | bind head tail ihHead ihTail =>
      intro c d x hwell c' hc'
      obtain ⟨a, m, hrun, htail⟩ := bind_eq_ok hwell
      obtain ⟨m', hm', hrun'⟩ := ihHead hrun c' hc'
      rw [bind_apply_ok hrun']
      exact ihTail a htail m' hm'

namespace Action

/-- What ends well does so again, with the same value and variables, where it is never cancelled. -/
def Repeats (a : Action α) : Prop :=
  ∀ ⦃w v : World⦄ ⦃x : α⦄, a w = (.ok x, v) → ∀ c : Context, c.cancelAt = none →
    ∃ d : Context, d.cancelAt = none ∧
      a { vars := w.vars, context := c } = (.ok x, { vars := v.vars, context := d })

theorem Repeats.pure (x : α) : Repeats (Pure.pure x : Action α) := by
  rintro w v y ⟨⟩ c hc
  exact ⟨c, hc, rfl⟩

theorem Repeats.ofRun {r : Bindings → Run α} (h : ∀ vars, (r vars).Built) : Repeats (.ofRun r) := by
  intro w v x hwell c hc
  obtain ⟨d, hrun, rfl⟩ := ofRun_eq_ok hwell
  obtain ⟨d', hd', hrun'⟩ := (h w.vars).repeats hrun c hc
  exact ⟨d', hd', by simp only [ofRun_apply, hrun']⟩

theorem Repeats.bind {a : Action α} {f : α → Action β} (ha : a.Repeats) (hf : ∀ x, (f x).Repeats) :
    (a >>= f).Repeats := by
  intro w v x hwell c hc
  obtain ⟨y, m, hrun, htail⟩ := bind_eq_ok hwell
  obtain ⟨d, hd, hrun'⟩ := ha hrun c hc
  rw [bind_apply_ok hrun']
  exact hf y htail d hd

theorem Repeats.repeatWhile {condition : Action Bool} {body : Action Unit}
    (hcondition : condition.Repeats) (hbody : body.Repeats) (rounds : Nat) :
    (Script.repeatWhile condition body rounds).Repeats := by
  induction rounds with
  | zero => nofun
  | succ rounds ih =>
      have hround : (round condition body rounds).Repeats :=
        .bind (.ofRun fun _ => .checkpoint) fun _ => hbody.bind fun _ => ih
      rw [repeatWhile_succ]
      refine hcondition.bind fun b => ?_
      cases b with
      | true => exact hround
      | false => exact .pure _

theorem Built.repeats {a : Nat → Action α} (h : Built a) (rounds : Nat) : (a rounds).Repeats := by
  induction h with
  | pure x => exact .pure x
  | ofRun run => exact .ofRun run
  | bindName name value =>
      rintro w v x ⟨⟩ c hc
      exact ⟨c, hc, rfl⟩
  | bindingOf name =>
      rw [bindingOf?_eq]
      refine .ofRun fun vars => ?_
      cases vars.find? name with
      | none => exact .fail _
      | some v => exact .pure v
  | bind head tail ihHead ihTail => exact ihHead.bind ihTail
  | loop test round ihTest ihRound => exact ihTest.repeatWhile ihRound rounds

end Action

end ReplDaemon.Script
