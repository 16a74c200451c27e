import ReplDaemon.Proofs.Script.Agreement

/-!
# Rounds to spare

How many rounds loops may have makes no difference where there are more of them than moments until the
cancellation: every round takes a moment, and none begins after it. So what is left of an evaluation may
as well be one that starts there.
-/

namespace ReplDaemon

/-- There is a cancellation, and fewer than `moments` moments are left until then. -/
def Context.CancelledIn (moments : Nat) (c : Context) : Prop :=
  ∃ t ∈ c.cancelAt, (t - c.clock : Nat) < moments

namespace Context.CancelledIn

variable {moments moments' : Nat} {c d : Context}

theorem mono (h : c.CancelledIn moments) (hle : moments ≤ moments') : c.CancelledIn moments' := by
  obtain ⟨t, ht, hlt⟩ := h
  exact ⟨t, ht, Nat.lt_of_lt_of_le hlt hle⟩

theorem of_leads (h : c.CancelledIn moments) (hlead : c.Leads d) : d.CancelledIn moments := by
  obtain ⟨t, ht, hlt⟩ := h
  exact ⟨t, hlead.cancelAt ▸ ht, Nat.lt_of_le_of_lt (Nat.sub_le_sub_left hlead.clock t) hlt⟩

theorem wait (h : c.CancelledIn (moments + 1)) (hcalm : c.cancelled = false) :
    (c.wait 1).CancelledIn moments := by
  obtain ⟨t, ht, hlt⟩ := h
  have hbefore := (cancelled_eq_false_iff c).mp hcalm t ht
  refine ⟨t, ht, ?_⟩
  rw [Context.wait]
  dsimp only [Instant] at *
  omega

end Context.CancelledIn

namespace Script

namespace Action

variable {α β : Type}

/-- Two actions do the same in every world where the evaluation is cancelled within some moments. -/
def SameWithin (moments : Nat) (a b : Action α) : Prop :=
  ∀ w : World, w.context.CancelledIn moments → a w = b w

namespace SameWithin

variable {moments moments' : Nat} {a b : Action α}

theorem refl (a : Action α) : a.SameWithin moments a :=
  fun _ _ => rfl

theorem mono (h : a.SameWithin moments b) (hle : moments' ≤ moments) : a.SameWithin moments' b :=
  fun w hw => h w (hw.mono hle)

theorem bind {f g : α → Action β} (ha : a.Leads) (hab : a.SameWithin moments b)
    (hfg : ∀ x, (f x).SameWithin moments (g x)) : (a >>= f).SameWithin moments (b >>= g) := by
  intro w hw
  have hlead := ha w
  rw [bind_apply, bind_apply, ← hab w hw]
  generalize a w = r at *
  obtain ⟨_ | x, v⟩ := r
  · rfl
  · exact hfg x v (hw.of_leads hlead)

/-- Behind a checkpoint, there is one moment less. -/
theorem checkpoint {f g : Unit → Action β} (hfg : (f ()).SameWithin moments (g ())) :
    (Action.ofRun (fun _ => Script.checkpoint) >>= f).SameWithin (moments + 1)
      (Action.ofRun (fun _ => Script.checkpoint) >>= g) := by
  intro w hw
  rw [bind_apply, bind_apply, ofRun_apply, Run.checkpoint_apply]
  cases hcalm : w.context.cancelled with
  | true => rfl
  | false => exact hfg { w with context := w.context.wait 1 } (hw.wait hcalm)

/-- Loops that may have as many rounds as there are moments left. -/
theorem repeatWhile {condition condition' : Action Bool} {body body' : Action Unit}
    (hcondition : condition.Leads) (hbody : body.Leads)
    (htest : condition.SameWithin moments condition') (hround : body.SameWithin moments body')
    {m n : Nat} (hm : moments ≤ m) (hn : moments ≤ n) :
    (Script.repeatWhile condition body m).SameWithin moments
      (Script.repeatWhile condition' body' n) := by
  induction moments generalizing m n with
  | zero => exact fun w ⟨_, _, hlt⟩ => absurd hlt (Nat.not_lt_zero _)
  | succ moments ih =>
      obtain ⟨m, rfl⟩ : ∃ k, m = k + 1 := ⟨m - 1, by omega⟩
      obtain ⟨n, rfl⟩ : ∃ k, n = k + 1 := ⟨n - 1, by omega⟩
      rw [repeatWhile_succ, repeatWhile_succ]
      refine htest.bind hcondition fun b => ?_
      have hless : moments ≤ moments + 1 := Nat.le_succ _
      split
      · exact .checkpoint <| (hround.mono hless).bind hbody fun _ =>
          ih (htest.mono hless) (hround.mono hless) (Nat.le_of_succ_le_succ hm)
            (Nat.le_of_succ_le_succ hn)
      · exact .refl _

end SameWithin

/-- An action does not depend on how many rounds its loops may have, as long as these are no fewer than
there are moments left. -/
theorem Built.sameWithin {a : Nat → Action α} (h : Built a) {moments m n : Nat} (hm : moments ≤ m)
    (hn : moments ≤ n) : (a m).SameWithin moments (a n) := by
  induction h with
  | pure a => exact .refl _
  | ofRun run => exact .refl _
  | bindName name value => exact .refl _
  | bindingOf name => exact .refl _
  | bind head tail ihHead ihTail => exact .bind (head.leads m) ihHead ihTail
  | loop test round ihTest ihRound =>
      exact .repeatWhile (test.leads m) (round.leads m) ihTest ihRound hm hn

/-- Later on, an action may as well have the rounds that an evaluation has that starts then. -/
theorem Built.roundsIn_of_leads {a : Nat → Action α} (h : Built a) {c : Context} {w : World}
    (hlead : c.Leads w.context) : a (roundsIn c) w = a (roundsIn w.context) w := by
  cases hat : c.cancelAt with
  | none =>
      have hrounds : roundsIn w.context = roundsIn c := by
        rw [roundsIn, roundsIn, hlead.cancelAt]
        simp only [hat]
      rw [hrounds]
  | some t =>
      have hat' : w.context.cancelAt = some t := hlead.cancelAt.trans hat
      have hnear : w.context.CancelledIn (t - w.context.clock + 1) := ⟨t, hat', Nat.lt_succ_self _⟩
      have hclock := hlead.clock
      refine h.sameWithin ?_ ?_ w hnear
      · simp only [roundsIn, hat]
        dsimp only [Instant] at *
        omega
      · simp only [roundsIn, hat', Nat.le_refl]

end Action

end Script

end ReplDaemon
