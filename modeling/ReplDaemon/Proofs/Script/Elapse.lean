import ReplDaemon.Proofs.Script.Passage

/-!
# Time in runs

Time only passes forward in a run, and nothing moves the instant of its cancellation. So a run that
ends uncancelled was never cancelled, and its loops have no more rounds than time has passed: any
greater bound on the rounds gives the same run.
-/

namespace ReplDaemon

namespace Capture

theorem limit_write (o : Capture) (s : String) : (o.write s).limit = o.limit := by
  unfold Capture.write
  split
  · rfl
  · simp only
    split <;> rfl

theorem limit_foldl_write (texts : List String) (o : Capture) :
    (texts.foldl write o).limit = o.limit := by
  induction texts generalizing o with
  | nil => rfl
  | cons text texts ih => exact (ih _).trans (o.limit_write text)

end Capture

/-- One context may become another: the clock goes forward, the instant of the cancellation stays, and
the output is changed by writing only. -/
structure Context.Leads (c d : Context) : Prop where
  cancelAt : d.cancelAt = c.cancelAt
  clock : c.clock ≤ d.clock
  written : ∃ texts : List String, d.output = texts.foldl Capture.write c.output

namespace Context

theorem Leads.refl (c : Context) : c.Leads c := ⟨rfl, Nat.le_refl _, [], rfl⟩

theorem Leads.trans {c d e : Context} (h : c.Leads d) (h' : d.Leads e) : c.Leads e := by
  obtain ⟨texts, hd⟩ := h.written
  obtain ⟨texts', he⟩ := h'.written
  refine ⟨h'.cancelAt.trans h.cancelAt, h.clock.trans h'.clock, texts ++ texts', ?_⟩
  rw [he, hd, List.foldl_append]

theorem Leads.limit {c d : Context} (h : c.Leads d) : d.output.limit = c.output.limit := by
  obtain ⟨texts, hd⟩ := h.written
  rw [hd, Capture.limit_foldl_write]

theorem cancelled_eq_false_iff (c : Context) :
    c.cancelled = false ↔ ∀ t ∈ c.cancelAt, c.clock < t := by
  cases h : c.cancelAt with
  | none => simp [cancelled, h]
  | some t => simp [cancelled, h]

/-- What is not cancelled in the end was not cancelled before. -/
theorem Leads.not_cancelled {c d : Context} (h : c.Leads d) (hd : d.cancelled = false) :
    c.cancelled = false := by
  rw [cancelled_eq_false_iff] at hd ⊢
  intro t ht
  rw [← h.cancelAt] at ht
  exact Nat.lt_of_le_of_lt h.clock (hd t ht)

theorem leads_wait (c : Context) (time : Nat) : c.Leads (c.wait time) :=
  ⟨rfl, Nat.le_add_right _ _, [], rfl⟩

theorem leads_printLine (c : Context) (s : String) : c.Leads (c.printLine s) :=
  ⟨rfl, Nat.le_refl _, [s, "\n"], rfl⟩

/-- A cancellation is noticed after it was requested. -/
theorem le_noticedAt {start wake request : Nat} (h : request ≤ wake) :
    request ≤ noticedAt start wake request := by
  simp only [noticedAt, sleepSlice, millisecond]
  omega

/-- A sleep that no cancellation disturbs just waits. -/
theorem sleep_of_not_cancelled {c : Context} {time : Nat}
    (h : (c.wait time).cancelled = false) : c.sleep time = (true, c.wait time) := by
  rcases c with ⟨output, clock, cancelAt⟩
  cases cancelAt with
  | none => rfl
  | some request =>
      rw [cancelled_eq_false_iff] at h
      have hrequest : clock + time < request := h request rfl
      exact if_neg (Nat.not_le.mpr hrequest)

/-- A sleep that a cancellation disturbs ends when this is noticed. -/
theorem sleep_of_cancelled {c : Context} {time : Nat} (h : (c.wait time).cancelled = true) :
    ∃ request, c.cancelAt = some request ∧ request ≤ c.clock + time ∧
      c.sleep time = (false, { c with clock := noticedAt c.clock (c.clock + time) request }) := by
  rcases c with ⟨output, clock, cancelAt⟩
  cases cancelAt with
  | none => cases h
  | some request =>
      have hrequest : request ≤ clock + time := of_decide_eq_true h
      exact ⟨request, rfl, hrequest, if_pos hrequest⟩

theorem passage_leads : Passage Leads where
  refl := .refl
  trans := .trans
  later _ _ h := ⟨rfl, h, [], rfl⟩
  print := leads_printLine

/-- A sleep that a cancellation disturbs ends cancelled. -/
theorem cancelled_sleep {c : Context} {time : Nat} (h : (c.wait time).cancelled = true) :
    (c.sleep time).2.cancelled = true := by
  obtain ⟨request, hat, hrequest, hsleep⟩ := sleep_of_cancelled h
  rw [hsleep]
  simp [cancelled, hat, le_noticedAt hrequest]

end Context

namespace Script

theorem Run.Built.leads {α : Type} {r : Run α} (h : r.Built) (c : Context) : c.Leads (r c).2 :=
  h.passes Context.passage_leads c

namespace Action

/-- Whatever world an action starts in, its context leads to the one that it leaves. -/
def Leads {α : Type} (a : Action α) : Prop :=
  ∀ w : World, w.context.Leads (a w).2.context

theorem Leads.bind {α β : Type} {a : Action α} {f : α → Action β} (ha : a.Leads)
    (hf : ∀ x, (f x).Leads) : (a >>= f).Leads :=
  Passes.bind Context.passage_leads ha hf

theorem Leads.pure {α : Type} (a : α) : Leads (Pure.pure a : Action α) :=
  Passes.pure Context.passage_leads a

theorem Leads.ofRun {α : Type} {r : Bindings → Run α} (h : ∀ vars, (r vars).Built) :
    Leads (.ofRun r) :=
  Passes.ofRun Context.passage_leads h

theorem Leads.repeatWhile {condition : Action Bool} {body : Action Unit}
    (hcondition : condition.Leads) (hbody : body.Leads) (rounds : Nat) :
    (Script.repeatWhile condition body rounds).Leads :=
  Passes.repeatWhile Context.passage_leads hcondition hbody rounds

theorem Built.leads {α : Type} {a : Nat → Action α} (h : Built a) (rounds : Nat) :
    (a rounds).Leads :=
  h.passes Context.passage_leads rounds

/-- How much time an action takes. -/
def elapsed {α : Type} (a : Action α) (w : World) : Nat :=
  (a w).2.context.clock - w.context.clock

/-- An action that goes on takes some time at least. -/
def Takes {α : Type} (time : Nat) (a : Action α) : Prop :=
  ∀ (w : World) (x : α) (v : World), a w = (.ok x, v) →
    w.context.clock + time ≤ v.context.clock

theorem Leads.takes {α : Type} {a : Action α} (h : a.Leads) : a.Takes 0 := by
  intro w x v hv
  have hw := h w
  rw [hv] at hw
  exact hw.clock

/-- The other action does the same, where the first one ends within some time. -/
def Matches {α : Type} (time : Nat) (a b : Action α) : Prop :=
  ∀ w : World, (a w).1 ≠ .error .endless → a.elapsed w < time → b w = a w

theorem Matches.refl {α : Type} (time : Nat) (a : Action α) : a.Matches time a :=
  fun _ _ _ => rfl

theorem Matches.mono {α : Type} {time time' : Nat} {a b : Action α} (h : a.Matches time b)
    (hle : time' ≤ time) : a.Matches time' b :=
  fun w hends helapsed => h w hends (Nat.lt_of_lt_of_le helapsed hle)

/-- What follows an action has the time that the action leaves. -/
theorem Matches.bind {α β : Type} {time used : Nat} {a b : Action α} {f g : α → Action β}
    (ha : a.Leads) (hf : ∀ x, (f x).Leads) (hused : a.Takes used) (hab : a.Matches time b)
    (hfg : ∀ x, (f x).Matches (time - used) (g x)) : (a >>= f).Matches time (b >>= g) := by
  intro w hends helapsed
  have hlead := ha w
  rcases h : a w with ⟨o, v⟩
  rw [h] at hlead
  cases o with
  | error e =>
      rw [bind_apply_error h] at hends ⊢
      have hb : b w = (.error e, v) := by
        rw [hab w ?_ ?_, h]
        · rw [h]
          intro he
          cases he
          exact hends rfl
        · simpa only [elapsed, bind_apply_error h, h] using helapsed
      rw [bind_apply_error hb]
  | ok x =>
      have hrest := (hf x v).clock
      have hclock := hused w x v h
      rw [bind_apply_ok h] at hends ⊢
      simp only [elapsed, bind_apply_ok h] at helapsed
      have hb : b w = (.ok x, v) := by
        rw [hab w (by simp [h]) ?_, h]
        simp only [elapsed, h]
        grind
      rw [bind_apply_ok hb]
      apply hfg x v hends
      simp only [elapsed]
      grind

theorem takes_checkpoint : Takes 1 (.ofRun fun _ => checkpoint) := by
  intro w x v h
  rw [ofRun_apply, Run.checkpoint_apply] at h
  split at h
  · cases h
  · cases h
    exact Nat.le_refl _

theorem leads_checkpoint : Leads (.ofRun fun _ => checkpoint) :=
  .ofRun fun _ => .checkpoint

/-- A loop whose rounds take time has no more rounds than the time. -/
theorem Matches.repeatWhile {time : Nat} {condition condition' : Action Bool}
    {body body' : Action Unit} (hcondition : condition.Leads) (hbody : body.Leads)
    (htest : condition.Matches time condition') (hround : body.Matches time body')
    (m n : Nat) :
    (Script.repeatWhile condition body m).Matches (min time n)
      (Script.repeatWhile condition' body' n) := by
  induction m generalizing n with
  | zero => exact fun w hends => absurd rfl hends
  | succ m ih =>
      cases n with
      | zero => exact fun w _ helapsed => absurd helapsed (by simp)
      | succ n =>
          rw [repeatWhile_succ, repeatWhile_succ]
          refine .bind hcondition ?_ hcondition.takes (htest.mono (by omega)) fun b => ?_
          · intro b
            split
            · exact leads_checkpoint.bind fun _ => hbody.bind fun _ => hcondition.repeatWhile hbody m
            · exact .pure _
          · split
            · refine .bind leads_checkpoint (fun _ => hbody.bind fun _ =>
                hcondition.repeatWhile hbody m) takes_checkpoint (.refl _ _) fun _ => ?_
              exact .bind hbody (fun _ => hcondition.repeatWhile hbody m) hbody.takes
                (hround.mono (by omega)) fun _ => (ih n).mono (by omega)
            · exact .refl _ _

/-- An action that ends within fewer moments than its loops may have rounds does not depend on how many
they may have. -/
theorem Built.matches {α : Type} {a : Nat → Action α} (h : Built a) (m n : Nat) :
    (a m).Matches n (a n) := by
  induction h with
  | pure a => exact .refl _ _
  | ofRun run => exact .refl _ _
  | bindName name value => exact .refl _ _
  | bindingOf name => exact .refl _ _
  | bind head tail ihHead ihTail =>
      exact .bind (head.leads m) (fun x => (tail x).leads m) (head.leads m).takes ihHead ihTail
  | loop test round ihTest ihRound =>
      have hloop := Matches.repeatWhile (test.leads m) (round.leads m) ihTest ihRound m n
      rwa [Nat.min_self] at hloop

end Action

end Script

end ReplDaemon
