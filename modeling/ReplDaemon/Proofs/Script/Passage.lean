import ReplDaemon.Proofs.Script.Effects

/-!
# Before and after a run

A run passes time and prints lines; it does nothing else to its context. So whatever holds between a
context and a later one, and between a context and the one after a line is printed, holds between the
contexts before and after any run, if only it goes on from one to the next.
-/

namespace ReplDaemon

namespace Context

theorem start_le_noticedAt {start wake request : Nat} (h : start ≤ wake) :
    start ≤ noticedAt start wake request := by
  simp only [noticedAt, sleepSlice, millisecond]
  omega

/-- However a sleep ends, time has passed and nothing else has happened. -/
theorem exists_sleep_eq (c : Context) (time : Nat) :
    ∃ clock, c.clock ≤ clock ∧ (c.sleep time).2 = { c with clock } := by
  have hwake : c.clock ≤ c.clock + time := Nat.le_add_right _ _
  unfold sleep
  cases c.cancelAt with
  | none => exact ⟨_, hwake, rfl⟩
  | some request =>
      dsimp only
      split
      · exact ⟨_, start_le_noticedAt hwake, rfl⟩
      · exact ⟨_, hwake, rfl⟩

/-- What holds between the contexts before and after any effects, if it does so for single ones. -/
structure Passage (R : Context → Context → Prop) : Prop where
  refl (c : Context) : R c c
  trans {c d e : Context} : R c d → R d e → R c e
  later (c : Context) {clock : Instant} : c.clock ≤ clock → R c { c with clock }
  print (c : Context) (s : String) : R c (c.printLine s)

end Context

namespace Script

variable {R : Context → Context → Prop}

theorem Run.Built.passes (hR : Context.Passage R) {α : Type} {r : Run α} (h : r.Built)
    (c : Context) : R c (r c).2 := by
  induction h generalizing c with
  | pure a => exact hR.refl c
  | fail e => exact hR.refl c
  | checkpoint =>
      rw [Run.checkpoint_apply]
      split
      · exact hR.refl c
      · exact hR.later c (Nat.le_add_right _ _)
  | sleep time =>
      obtain ⟨clock, hclock, hsleep⟩ := c.exists_sleep_eq (time * millisecond)
      rw [Run.sleepFor_apply, hsleep]
      split
      · exact hR.refl c
      · split <;> exact hR.later c hclock
  | print s => exact hR.print c s
  | wait time => exact hR.later c (Nat.le_add_right _ _)
  | @bind α β r f head tail ihHead ihTail =>
      have hhead := ihHead c
      rcases hr : r c with ⟨o, d⟩
      rw [hr] at hhead
      cases o with
      | error e => rwa [bind_apply_error hr]
      | ok a =>
          rw [bind_apply_ok hr]
          exact hR.trans hhead (ihTail a d)

namespace Action

theorem ofRun_apply {α : Type} (r : Bindings → Run α) (w : World) :
    Action.ofRun r w = ((r w.vars w.context).1, { w with context := (r w.vars w.context).2 }) :=
  rfl

theorem ofRun_eq_ok {α : Type} {r : Bindings → Run α} {w w' : World} {a : α}
    (h : Action.ofRun r w = (.ok a, w')) :
    ∃ c, r w.vars w.context = (.ok a, c) ∧ w' = { w with context := c } := by
  rw [ofRun_apply] at h
  rcases hr : r w.vars w.context with ⟨o, c⟩
  rw [hr] at h
  cases h
  exact ⟨c, rfl, rfl⟩

theorem bindName_apply (name : String) (value : Value) (w : World) :
    bindName name value w = (.ok ⟨⟩, { w with vars := w.vars.set name value }) := rfl

theorem bindingOf?_apply (name : String) (w : World) :
    bindingOf? name w =
      match w.vars.find? name with
      | some v => (.ok v, w)
      | none => (.error (.failed (.undefinedVariable name)), w) := by
  rw [bindingOf?, bind_apply, get_apply]
  cases h : w.vars.find? name <;> simp only [h] <;> rfl

/-- The value of a variable is read without a change. -/
theorem bindingOf?_eq (name : String) :
    bindingOf? name = Action.ofRun fun vars =>
      match vars.find? name with
      | some v => pure v
      | none => Run.fail (.undefinedVariable name) := by
  funext w
  rw [ofRun_apply, bindingOf?_apply]
  cases w.vars.find? name <;> rfl

/-- A round of a loop, after its condition has held. -/
def round (condition : Action Bool) (body : Action Unit) (rounds : Nat) : Action Unit := do
  .ofRun fun _ => checkpoint
  body
  repeatWhile condition body rounds

theorem repeatWhile_succ (condition : Action Bool) (body : Action Unit) (rounds : Nat) :
    repeatWhile condition body (rounds + 1) =
      (condition >>= fun b => if b then round condition body rounds else pure ⟨⟩) := rfl

/-- It holds between the contexts before and after the action, whatever world this starts in. -/
def Passes (R : Context → Context → Prop) {α : Type} (a : Action α) : Prop :=
  ∀ w : World, R w.context (a w).2.context

theorem Passes.bind (hR : Context.Passage R) {α β : Type} {a : Action α} {f : α → Action β}
    (ha : a.Passes R) (hf : ∀ x, (f x).Passes R) : (a >>= f).Passes R := by
  intro w
  have hw := ha w
  rcases h : a w with ⟨o, v⟩
  rw [h] at hw
  cases o with
  | error e => rwa [bind_apply_error h]
  | ok x =>
      rw [bind_apply_ok h]
      exact hR.trans hw (hf x v)

theorem Passes.pure (hR : Context.Passage R) {α : Type} (a : α) :
    Passes R (Pure.pure a : Action α) :=
  fun w => hR.refl w.context

theorem Passes.ofRun (hR : Context.Passage R) {α : Type} {r : Bindings → Run α}
    (h : ∀ vars, (r vars).Built) : Passes R (.ofRun r) := by
  intro w
  rw [ofRun_apply]
  exact (h w.vars).passes hR w.context

theorem Passes.repeatWhile (hR : Context.Passage R) {condition : Action Bool} {body : Action Unit}
    (hcondition : condition.Passes R) (hbody : body.Passes R) (rounds : Nat) :
    (Script.repeatWhile condition body rounds).Passes R := by
  induction rounds with
  | zero => exact fun w => hR.refl w.context
  | succ rounds ih =>
      rw [repeatWhile_succ]
      apply hcondition.bind hR
      intro b
      split
      · exact (Passes.ofRun hR fun _ => .checkpoint).bind hR fun _ => hbody.bind hR fun _ => ih
      · exact .pure hR _

theorem Built.passes (hR : Context.Passage R) {α : Type} {a : Nat → Action α} (h : Built a)
    (rounds : Nat) : (a rounds).Passes R := by
  induction h with
  | pure a => exact .pure hR a
  | ofRun run => exact .ofRun hR run
  | bindName name value => exact fun w => hR.refl w.context
  | bindingOf name =>
      intro w
      change R w.context (bindingOf? name w).2.context
      rw [bindingOf?_apply]
      split <;> exact hR.refl w.context
  | bind head tail ihHead ihTail => exact ihHead.bind hR ihTail
  | loop test round ihTest ihRound => exact ihTest.repeatWhile hR ihRound rounds

end Action

end Script

end ReplDaemon
