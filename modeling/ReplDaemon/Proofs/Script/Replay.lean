import ReplDaemon.Proofs.Script.Elapse

/-!
# Runs at another time

A run that ends uncancelled comes to the same in any other context with the same output: it may start
at another time and under another deadline, as long as it is not cancelled there either.
-/

namespace ReplDaemon

/-- What becomes of a context by what has led from one context to another: the output is the one
reached, and as much time passes. -/
def Context.replay (before after c : Context) : Context where
  output := after.output
  clock := c.clock + (after.clock - before.clock)
  cancelAt := c.cancelAt

namespace Context

theorem replay_of_output {c c' : Context} (h : c'.output = c.output) : replay c c c' = c' := by
  cases c'
  simp_all [replay]

theorem replay_trans {c d e : Context} (hcd : c.Leads d) (hde : d.Leads e) (c' : Context) :
    replay d e (replay c d c') = replay c e c' := by
  have h := hcd.clock
  have h' := hde.clock
  simp only [replay, Context.mk.injEq, true_and, and_true]
  grind

theorem leads_replay {c d c' : Context} (h : c.Leads d) (hout : c'.output = c.output) :
    c'.Leads (replay c d c') :=
  ⟨rfl, Nat.le_add_right _ _, by rw [hout]; exact h.written⟩

theorem replay_replay {c d e : Context} (hcd : c.Leads d) (hde : d.Leads e) {c' : Context}
    (h : (replay c e c').cancelled = false) : (replay c d c').cancelled = false := by
  rw [← replay_trans hcd hde c'] at h
  have hleads : (replay c d c').Leads (replay d e (replay c d c')) := leads_replay hde rfl
  exact hleads.not_cancelled h

end Context

namespace Script

/-- A sleep that no cancellation disturbs just waits. -/
theorem Run.sleepFor_of_wait {time : Nat} {c : Context}
    (h : (c.wait (time * millisecond)).cancelled = false) :
    sleepFor time c = (.ok ⟨⟩, c.wait (time * millisecond)) := by
  have hc := (c.leads_wait (time * millisecond)).not_cancelled h
  rw [sleepFor_apply, hc, Context.sleep_of_not_cancelled h]
  rfl

/-- A sleep that a cancellation disturbs ends cancelled. -/
theorem Run.cancelled_sleepFor {time : Nat} {c : Context}
    (h : (c.wait (time * millisecond)).cancelled = true) :
    (sleepFor time c).2.cancelled = true := by
  rw [sleepFor_apply]
  by_cases hc : c.cancelled
  · rw [if_pos hc]
    exact hc
  · have hsleep := Context.cancelled_sleep h
    rw [if_neg hc]
    split <;> exact hsleep

/-- Where a run ends uncancelled, it does the same in another context. -/
def Run.Replays {α : Type} (r : Run α) : Prop :=
  ∀ c c' : Context, c'.output = c.output → (r c).2.cancelled = false →
    (Context.replay c (r c).2 c').cancelled = false →
      r c' = ((r c).1, Context.replay c (r c).2 c')

theorem Run.replays_checkpoint : Run.Replays checkpoint := by
  intro c c' hout hcalm hcalm'
  rw [Run.checkpoint_apply] at hcalm hcalm' ⊢
  rw [Run.checkpoint_apply]
  by_cases hc : c.cancelled
  · rw [if_pos hc] at hcalm
    exact absurd hc (by simp [hcalm])
  · rw [if_neg hc] at hcalm hcalm' ⊢
    rw [if_neg]
    · simp [Context.replay, Context.wait, hout]
    · have hlead := Context.leads_replay (c.leads_wait 1) hout
      simp [hlead.not_cancelled hcalm']

theorem Run.replays_sleepFor (time : Nat) : (sleepFor time).Replays := by
  intro c c' hout hcalm hcalm'
  have hwait : (c.wait (time * millisecond)).cancelled = false := by
    by_contra h
    rw [Bool.not_eq_false] at h
    simp [Run.cancelled_sleepFor h] at hcalm
  rw [Run.sleepFor_of_wait hwait] at hcalm' ⊢
  have hreplay : Context.replay c (c.wait (time * millisecond)) c' =
      c'.wait (time * millisecond) := by
    simp [Context.replay, Context.wait, hout]
  rw [hreplay] at hcalm' ⊢
  exact Run.sleepFor_of_wait hcalm'

theorem Run.Replays.bind {α β : Type} {r : Run α} {f : α → Run β} (hr : r.Replays)
    (hlead : ∀ c : Context, c.Leads (r c).2) (hf : ∀ a : α, (f a).Replays)
    (hleadf : ∀ (a : α) (c : Context), c.Leads (f a c).2) : (r >>= f).Replays := by
  intro c c' hout hcalm hcalm'
  have hlead := hlead c
  rcases heq : r c with ⟨o, d⟩
  rw [heq] at hlead
  cases o with
  | error e =>
      rw [bind_apply_error heq] at hcalm hcalm' ⊢
      have hr' := hr c c' hout (by rwa [heq]) (by rwa [heq])
      rw [heq] at hr'
      rw [bind_apply_error hr']
  | ok a =>
      have hlead' := hleadf a d
      rw [bind_apply_ok heq] at hcalm hcalm' ⊢
      have hr' := hr c c' hout (by rw [heq]; exact hlead'.not_cancelled hcalm)
        (by rw [heq]; exact Context.replay_replay hlead hlead' hcalm')
      rw [heq] at hr'
      rw [bind_apply_ok hr']
      rw [← Context.replay_trans hlead hlead' c'] at hcalm' ⊢
      exact hf a d (Context.replay c d c') rfl hcalm hcalm'

/-- Every run can be replayed. -/
theorem Run.Built.replays {α : Type} {r : Run α} (h : r.Built) : r.Replays := by
  induction h with
  | pure a =>
      intro c c' hout _ _
      rw [pure_apply, pure_apply, Context.replay_of_output hout]
  | fail e =>
      intro c c' hout _ _
      rw [Run.fail_apply, Run.fail_apply, Context.replay_of_output hout]
  | checkpoint => exact Run.replays_checkpoint
  | sleep time => exact Run.replays_sleepFor time
  | print s =>
      intro c c' hout _ _
      simp [modify_apply, Context.replay, Context.printLine, hout]
  | wait time =>
      intro c c' hout _ _
      simp [modify_apply, Context.replay, Context.wait, hout]
  | bind head tail ihHead ihTail =>
      exact ihHead.bind (fun c => head.leads c) ihTail fun a c => (tail a).leads c

/-- What becomes of a world by what has led from one world to another. -/
def World.replay (before after w : World) : World where
  vars := after.vars
  context := Context.replay before.context after.context w.context

namespace Action

/-- Where an action ends uncancelled, it does the same in another world with the same variables. -/
def Replays {α : Type} (a : Action α) : Prop :=
  ∀ w w' : World, w'.vars = w.vars → w'.context.output = w.context.output →
    (a w).2.context.cancelled = false →
    (World.replay w (a w).2 w').context.cancelled = false →
      a w' = ((a w).1, World.replay w (a w).2 w')

theorem Replays.bind {α β : Type} {a : Action α} {f : α → Action β} (ha : a.Replays)
    (hlead : a.Leads) (hf : ∀ x, (f x).Replays) (hleadf : ∀ x, (f x).Leads) :
    (a >>= f).Replays := by
  intro w w' hvars hout hcalm hcalm'
  have hlead := hlead w
  rcases h : a w with ⟨o, v⟩
  rw [h] at hlead
  cases o with
  | error e =>
      rw [bind_apply_error h] at hcalm hcalm' ⊢
      have h' := ha w w' hvars hout (by rwa [h]) (by rwa [h])
      rw [h] at h'
      rw [bind_apply_error h']
  | ok x =>
      have hlead' := hleadf x v
      rw [bind_apply_ok h] at hcalm hcalm' ⊢
      have h' := ha w w' hvars hout (by rw [h]; exact hlead'.not_cancelled hcalm)
        (by rw [h]; exact Context.replay_replay hlead hlead' hcalm')
      rw [h] at h'
      rw [bind_apply_ok h']
      have htrans : World.replay v (f x v).2 (World.replay w v w') = World.replay w (f x v).2 w' := by
        simp only [World.replay, Context.replay_trans hlead hlead']
      rw [← htrans] at hcalm' ⊢
      exact hf x v (World.replay w v w') rfl rfl hcalm hcalm'

theorem Replays.ofRun {α : Type} {r : Bindings → Run α} (h : ∀ vars, (r vars).Built) :
    Replays (.ofRun r) := by
  intro w w' hvars hout hcalm hcalm'
  have hr := (h w.vars).replays w.context w'.context hout hcalm hcalm'
  simp only [ofRun_apply, hvars, hr, World.replay]

theorem Replays.pure {α : Type} (x : α) : Replays (Pure.pure x : Action α) := by
  intro w w' hvars hout _ _
  rw [pure_apply, pure_apply]
  simp only [World.replay, Context.replay_of_output hout, ← hvars]

theorem Replays.throw {α : Type} (e : Stop) : Replays (MonadExcept.throw e : Action α) := by
  intro w w' hvars hout _ _
  rw [throw_apply, throw_apply]
  simp only [World.replay, Context.replay_of_output hout, ← hvars]

theorem Replays.repeatWhile {condition : Action Bool} {body : Action Unit}
    (hcondition : condition.Replays) (hleadc : condition.Leads) (hbody : body.Replays)
    (hleadb : body.Leads) (rounds : Nat) : (Script.repeatWhile condition body rounds).Replays := by
  induction rounds with
  | zero => exact .throw .endless
  | succ rounds ih =>
      have hloop := hleadc.repeatWhile hleadb rounds
      have hleadr : (round condition body rounds).Leads :=
        leads_checkpoint.bind fun _ => hleadb.bind fun _ => hloop
      have hround : (round condition body rounds).Replays :=
        .bind (.ofRun fun _ => .checkpoint) leads_checkpoint
          (fun _ => .bind hbody hleadb (fun _ => ih) fun _ => hloop)
          (fun _ => hleadb.bind fun _ => hloop)
      rw [repeatWhile_succ]
      refine .bind hcondition hleadc (fun b => ?_) fun b => ?_
      · cases b with
        | true => exact hround
        | false => exact .pure _
      · cases b with
        | true => exact hleadr
        | false => exact .pure _

/-- Every action can be replayed. -/
theorem Built.replays {α : Type} {a : Nat → Action α} (h : Built a) (rounds : Nat) :
    (a rounds).Replays := by
  induction h with
  | pure x => exact .pure x
  | ofRun run => exact .ofRun run
  | bindName name value =>
      intro w w' hvars hout _ _
      simp only [bindName_apply, World.replay, Context.replay_of_output hout, hvars]
  | bindingOf name =>
      intro w w' hvars hout hcalm hcalm'
      simp only [bindingOf?_apply, hvars] at hcalm hcalm' ⊢
      split <;> simp only [World.replay, Context.replay_of_output hout, ← hvars]
  | bind head tail ihHead ihTail =>
      exact ihHead.bind (head.leads rounds) ihTail fun x => (tail x).leads rounds
  | loop test round ihTest ihRound =>
      exact ihTest.repeatWhile (test.leads rounds) ihRound (round.leads rounds) rounds

end Action

end Script

end ReplDaemon
