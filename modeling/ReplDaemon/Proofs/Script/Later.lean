import ReplDaemon.Proofs.Script.Agreement

/-!
# Evaluations at a later time

Nothing in an evaluation tells what time it is, only how much of it has passed and how much is left. So
an evaluation that starts later, with its cancellation put off by as much, comes to the same at a time
that is later by as much, whether it is cancelled or not.
-/

namespace ReplDaemon

namespace Context

/-- The context at a later time, with its cancellation put off by as much. -/
def later (c : Context) (delay : Nat) : Context :=
  { c with clock := c.clock + delay, cancelAt := c.cancelAt.map (· + delay) }

variable (c : Context) (delay : Nat)

@[simp] theorem cancelled_later : (c.later delay).cancelled = c.cancelled := by
  cases h : c.cancelAt <;> simp [cancelled, later, h]

theorem wait_later (time : Nat) : (c.later delay).wait time = (c.wait time).later delay := by
  simp only [wait, later, Nat.add_right_comm]

theorem noticedAt_later (start wake request : Nat) :
    noticedAt (start + delay) (wake + delay) (request + delay) =
      noticedAt start wake request + delay := by
  simp only [noticedAt, Nat.add_sub_add_right, Nat.add_right_comm start delay, Nat.add_min_add_right]

theorem sleep_later (time : Nat) :
    (c.later delay).sleep time = ((c.sleep time).1, (c.sleep time).2.later delay) := by
  cases hat : c.cancelAt with
  | none => simp [sleep, later, hat, Nat.add_right_comm]
  | some request =>
      have hwake : c.clock + delay + time = c.clock + time + delay := Nat.add_right_comm _ _ _
      simp only [sleep, later, hat, Option.map_some, hwake, Nat.add_le_add_iff_right]
      split
      · simp only [noticedAt_later, Option.map_some]
      · simp only [Option.map_some]

end Context

/-- A report at a later time. -/
def Report.later {Shared Session : Type} (r : Report Shared Session) (delay : Nat) :
    Report Shared Session :=
  { r with context := r.context.later delay }

/-- Evaluations of an engine come to the same at a later time. -/
def Engine.Timeless {Shared State : Type} (engine : Engine Shared State) : Prop :=
  ∀ (source : String) (shared : Shared) (state : State) (c : Context) (delay : Nat),
    engine.evaluate source shared state (c.later delay) =
      (engine.evaluate source shared state c).later delay

namespace Script

theorem Run.Built.later {α : Type} {r : Run α} (h : r.Built) (c : Context) (delay : Nat) :
    r (c.later delay) = ((r c).1, (r c).2.later delay) := by
  induction h generalizing c with
  | pure a => rfl
  | fail e => rfl
  | checkpoint =>
      rw [Run.checkpoint_apply, Run.checkpoint_apply, Context.cancelled_later, Context.wait_later]
      split <;> rfl
  | sleep time =>
      rw [Run.sleepFor_apply, Run.sleepFor_apply, Context.cancelled_later, Context.sleep_later]
      split
      · rfl
      · split <;> rfl
  | print s => rfl
  | wait time => exact congrArg (Prod.mk _) (Context.wait_later c delay time)
  | @bind α β r f head tail ihHead ihTail =>
      have hhead := ihHead c
      rcases hr : r c with ⟨o, d⟩
      rw [hr] at hhead
      cases o with
      | error e => rw [bind_apply_error hr, bind_apply_error hhead]
      | ok a => rw [bind_apply_ok hr, bind_apply_ok hhead, ihTail]

/-- The world at a later time. -/
def World.later (w : World) (delay : Nat) : World :=
  { w with context := w.context.later delay }

namespace Action

/-- An action comes to the same at a later time. -/
def Timeless {α : Type} (a : Action α) : Prop :=
  ∀ (w : World) (delay : Nat), a (w.later delay) = ((a w).1, (a w).2.later delay)

theorem Timeless.bind {α β : Type} {a : Action α} {f : α → Action β} (ha : a.Timeless)
    (hf : ∀ x, (f x).Timeless) : (a >>= f).Timeless := by
  intro w delay
  have hhead := ha w delay
  rcases h : a w with ⟨o, v⟩
  rw [h] at hhead
  cases o with
  | error e => rw [bind_apply_error h, bind_apply_error hhead]
  | ok x => rw [bind_apply_ok h, bind_apply_ok hhead, hf x]

theorem Timeless.ofRun {α : Type} {r : Bindings → Run α} (h : ∀ vars, (r vars).Built) :
    Timeless (.ofRun r) := by
  intro w delay
  have hrun := (h w.vars).later w.context delay
  simp only [ofRun_apply, World.later, hrun]

theorem Timeless.repeatWhile {condition : Action Bool} {body : Action Unit}
    (hcondition : condition.Timeless) (hbody : body.Timeless) (rounds : Nat) :
    (Script.repeatWhile condition body rounds).Timeless := by
  induction rounds with
  | zero => exact fun _ _ => rfl
  | succ rounds ih =>
      rw [repeatWhile_succ]
      refine hcondition.bind fun b => ?_
      split
      · exact (Timeless.ofRun fun _ => .checkpoint).bind fun _ => hbody.bind fun _ => ih
      · exact fun _ _ => rfl

theorem Built.timeless {α : Type} {a : Nat → Action α} (h : Built a) (rounds : Nat) :
    (a rounds).Timeless := by
  induction h with
  | pure a => exact fun _ _ => rfl
  | ofRun run => exact .ofRun run
  | bindName name value => exact fun _ _ => rfl
  | bindingOf name =>
      intro w delay
      change bindingOf? name (w.later delay) = ((bindingOf? name w).1, (bindingOf? name w).2.later delay)
      rw [bindingOf?_apply, bindingOf?_apply]
      have hvars : (w.later delay).vars = w.vars := rfl
      rw [hvars]
      split <;> rfl
  | bind head tail ihHead ihTail => exact ihHead.bind ihTail
  | loop test round ihTest ihRound => exact ihTest.repeatWhile ihRound rounds

end Action

theorem roundsIn_later (c : Context) (delay : Nat) : roundsIn (c.later delay) = roundsIn c := by
  cases h : c.cancelAt with
  | none => simp [roundsIn, Context.later, h]
  | some t => simp [roundsIn, Context.later, h, Nat.add_sub_add_right]

/-- The script engine does not know the time. -/
theorem timeless_engine (prelude : List String) : (engine prelude).Timeless := by
  intro source _ vars c delay
  change evaluate source vars (c.later delay) = (evaluate source vars c).later delay
  rcases evaluate_cases source with ⟨e, _, hstop⟩ | ⟨p, hrun⟩
  · rw [hstop, hstop]
    rfl
  · have htimeless := p.run_built.timeless (roundsIn c) { vars, context := c } delay
    have hworld : World.later { vars, context := c } delay = { vars, context := c.later delay } := rfl
    rw [hworld] at htimeless
    rw [hrun, hrun, roundsIn_later, htimeless]
    rfl

end Script

end ReplDaemon
