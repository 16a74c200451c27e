import ReplDaemon.Proofs.Script.Agreement
import ReplDaemon.Supervisor

/-!
# Supervision of requests in time

A request is answered by the outcome of its evaluation, unless it times out. What the evaluation
comes to depends on the slot of the session only through the state that the prelude leaves, so a slot
in which an incomplete source was evaluated serves like the slot before.
-/

namespace ReplDaemon

/-- A context in which a request may be evaluated under a configuration: the deadline is a cap at
most or, without a cap, a timeout that a request can ask for. -/
structure Context.Under (config : SupervisorConfig) (c : Context) : Prop where
  capped : config.timeoutCap.isSome → c.cancelAt.isSome
  asked : config.timeoutCap = none → ∀ t ∈ c.cancelAt, t ≤ c.clock + Script.patience

namespace Context.Under

variable {config : SupervisorConfig}

theorem leads {c d : Context} (h : c.Under config) (hd : c.Leads d) : d.Under config := by
  refine ⟨fun hcap => ?_, fun hcap t ht => ?_⟩
  · rw [hd.cancelAt]
    exact h.capped hcap
  · rw [hd.cancelAt] at ht
    exact Nat.le_trans (h.asked hcap t ht) (Nat.add_le_add_right hd.clock _)

/-- Contexts under one configuration are comparable. -/
theorem comparable {c c' : Context} (h : c.Under config) (h' : c'.Under config)
    (hout : c'.output = c.output) : c.Comparable c' := by
  cases hcap : config.timeoutCap with
  | none => exact ⟨hout, fun _ => h.asked hcap, fun _ => h'.asked hcap⟩
  | some cap =>
      have hsome : config.timeoutCap.isSome := by rw [hcap]; rfl
      refine ⟨hout, fun hnone => ?_, fun hnone => ?_⟩
      · exact absurd (h'.capped hsome) (by rw [hnone]; simp)
      · exact absurd (h.capped hsome) (by rw [hnone]; simp)

end Context.Under

/-- Whether an evaluation of the prelude that ends like this counts, so that the source is evaluated
next. -/
def Ending.settles : Ending → Bool
  | .returned (.error .cancelled) | .panicked _ | .endless => false
  | .returned _ => true

theorem Ending.ne_endless_of_settles {e : Ending} (h : e.settles = true) : e ≠ .endless := by
  rintro rfl
  cases h

namespace Supervisor

/-- The source is evaluated behind a prelude that settles. -/
theorem evaluateBoth_eq {Shared State : Type} (engine : Engine Shared State) (prelude source : String)
    (shared : Shared) (state : State) (c : Context) :
    evaluateBoth engine prelude source shared state c =
      let r := engine.evaluate prelude shared state c
      if r.ending.settles then
        evaluateSource engine source r.shared r.session
          { r.context with output := r.context.output.clear }
      else .ofReport r false := by
  unfold evaluateBoth
  cases hending : (engine.evaluate prelude shared state c).ending with
  | returned answer => rcases answer with (_ | _ | _) | _ <;> simp [hending, Ending.settles]
  | panicked | endless => simp [hending, Ending.settles]

/-- A worker that is not late, in a slot where the prelude is still to be applied. -/
theorem work_of_missing {Shared State : Type} {engine : Engine Shared State} {prelude : String}
    {slot : Slot State} {c : Context} (hprelude : engine.prelude = some prelude)
    (hmissing : slot.preludeApplied = false) (hcalm : c.cancelled = false) (source : String)
    (shared : Shared) :
    work engine source shared slot c =
      let r := engine.evaluate prelude shared slot.state c
      if r.ending.settles then
        evaluateSource engine source r.shared r.session
          { r.context with output := r.context.output.clear }
      else .ofReport r false := by
  rw [work, if_neg (by simp [hcalm]), if_neg (by simp [hmissing]), hprelude]
  exact evaluateBoth_eq engine prelude source shared slot.state c

variable {State : Type} {engine : Engine Unit State} {config : SupervisorConfig}

/-- What is evaluated before a source: the prelude, if that has not run yet. -/
def preparation (engine : Engine Unit State) (slot : Slot State) (c : Context) :
    Report Unit State :=
  match if slot.preludeApplied then none else engine.prelude with
  | none =>
    { ending := .returned (.ok (.completed none)), shared := (), session := slot.state, context := c }
  | some prelude => engine.evaluate prelude ⟨⟩ slot.state c

theorem preparation_of_applied {slot : Slot State} (h : slot.preludeApplied = true) (c : Context) :
    preparation engine slot c =
      { ending := .returned (.ok (.completed none)), shared := (), session := slot.state
        context := c } := by
  rw [preparation, if_pos h]

theorem leads_preparation (hengine : engine.Steady) (slot : Slot State) (c : Context) :
    c.Leads (preparation engine slot c).context := by
  unfold preparation
  split
  · exact .refl c
  · exact hengine.leads _ _ _

/-- The preparations of one slot agree where they are done in time. -/
theorem preparation_agrees (hengine : engine.Steady) {slot slot' : Slot State}
    (hstate : slot'.state = slot.state) (happlied : slot'.preludeApplied = slot.preludeApplied)
    {c c' : Context} (h : c.Comparable c')
    (hin : (preparation engine slot c).ending.InTime (preparation engine slot c).context)
    (hin' : (preparation engine slot' c').ending.InTime (preparation engine slot' c').context) :
    (preparation engine slot c).Agrees (preparation engine slot' c') := by
  unfold preparation at hin hin' ⊢
  rw [happlied, hstate] at hin' ⊢
  split
  · exact ⟨rfl, rfl, rfl, h.output⟩
  · next prelude hprelude =>
      simp only [hprelude] at hin hin'
      exact hengine.agrees prelude slot.state c c' h hin hin'

/-- The context in which the source is evaluated: nothing that the prelude prints is kept. -/
def sourceContext (engine : Engine Unit State) (slot : Slot State) (c : Context) : Context :=
  { (preparation engine slot c).context with output := c.output }

theorem leads_sourceContext (hengine : engine.Steady) (slot : Slot State) (c : Context) :
    c.Leads (sourceContext engine slot c) :=
  ⟨(leads_preparation hengine slot c).cancelAt, (leads_preparation hengine slot c).clock, [], rfl⟩

/-- A worker that is not late prepares the slot and then evaluates the source. -/
theorem work_eq (hengine : engine.Steady) (source : String) (slot : Slot State) {c : Context}
    {limit : Nat} (hcalm : c.cancelled = false) (hout : c.output = .empty limit) :
    work engine source ⟨⟩ slot c =
      if (preparation engine slot c).ending.settles then
        evaluateSource engine source ⟨⟩ (preparation engine slot c).session
          (sourceContext engine slot c)
      else .ofReport (preparation engine slot c) false := by
  rw [work, if_neg (by simp [hcalm])]
  unfold sourceContext
  by_cases happlied : slot.preludeApplied
  · rw [if_pos happlied, preparation_of_applied happlied]
    rfl
  · rw [if_neg happlied]
    have hlimit := (leads_preparation hengine slot c).limit
    unfold preparation at hlimit ⊢
    rw [if_neg happlied] at hlimit ⊢
    cases hprelude : engine.prelude with
    | none => rfl
    | some prelude =>
        simp only [hprelude] at hlimit
        have hclear : (engine.evaluate prelude ⟨⟩ slot.state c).context.output.clear = c.output := by
          rw [Capture.clear, hlimit, hout]
          rfl
        simp only [evaluateBoth, hclear]
        cases hending : (engine.evaluate prelude ⟨⟩ slot.state c).ending with
        | returned answer =>
            rcases answer with (_ | _ | _) | _ <;> rfl
        | panicked message => rfl
        | endless => rfl

theorem leads_work (hengine : engine.Steady) (source : String) (slot : Slot State) {c : Context}
    {limit : Nat} (hout : c.output = .empty limit) :
    c.Leads (work engine source ⟨⟩ slot c).context := by
  cases hcalm : c.cancelled with
  | true =>
      rw [work, if_pos hcalm]
      exact .refl c
  | false =>
      rw [work_eq hengine source slot hcalm hout]
      split
      · exact (leads_sourceContext hengine slot c).trans (hengine.leads _ _ _)
      · exact leads_preparation hengine slot c

/-- Work is done in time. -/
def Work.InTime (w : Work Unit State) : Prop :=
  w.ending.InTime w.context

/-- Two workers come to the same, except for the time. -/
structure Work.Agrees (w w' : Work Unit State) : Prop where
  ending : w'.ending = w.ending
  state : w'.slot.state = w.slot.state
  preludeApplied : w'.slot.preludeApplied = w.slot.preludeApplied
  output : w'.context.output = w.context.output

/-- Where work is done in time, so is its preparation. -/
theorem preparation_inTime (hengine : engine.Steady) {source : String} {slot : Slot State}
    {c : Context} {limit : Nat} (hout : c.output = .empty limit)
    (h : (work engine source ⟨⟩ slot c).InTime) :
    (preparation engine slot c).ending.InTime (preparation engine slot c).context := by
  have hcalm := (leads_work hengine source slot hout).not_cancelled h.1
  rw [work_eq hengine source slot hcalm hout] at h
  split at h
  · next hsettles =>
      refine ⟨?_, fun he => absurd he (Ending.ne_endless_of_settles hsettles)⟩
      have hlead := hengine.leads source (preparation engine slot c).session
        (sourceContext engine slot c)
      exact hlead.not_cancelled h.1
  · exact h

/-- How a slot may look after some incomplete sources: as before, or ready with the state that the
preparation leaves. -/
inductive Follows (engine : Engine Unit State) (config : SupervisorConfig) (limit : Nat)
    (slot slot' : Slot State) : Prop
  | same (state : slot'.state = slot.state) (applied : slot'.preludeApplied = slot.preludeApplied)
      (freeAt : slot'.freeAt = slot.freeAt)
  | ready (c : Context) (under : c.Under config) (output : c.output = .empty limit)
      (calm : (preparation engine slot c).context.cancelled = false)
      (settles : (preparation engine slot c).ending.settles)
      (state : slot'.state = (preparation engine slot c).session)
      (applied : slot'.preludeApplied = true)
      (free : slot.freeAt ≠ none) (free' : slot'.freeAt ≠ none)

/-- In a slot that follows another one, the same source comes to the same. -/
theorem Follows.work_agrees (hengine : engine.Steady) {limit : Nat} {slot slot' : Slot State}
    (h : Follows engine config limit slot slot') {source : String} {c c' : Context}
    (hc : c.Under config) (hc' : c'.Under config) (hout : c.output = .empty limit)
    (hout' : c'.output = .empty limit) (hin : (work engine source ⟨⟩ slot c).InTime)
    (hin' : (work engine source ⟨⟩ slot' c').InTime) :
    (work engine source ⟨⟩ slot c).Agrees (work engine source ⟨⟩ slot' c') := by
  have hprep := preparation_inTime hengine hout hin
  have hprep' := preparation_inTime hengine hout' hin'
  have hcalm := (leads_work hengine source slot hout).not_cancelled hin.1
  have hcalm' := (leads_work hengine source slot' hout').not_cancelled hin'.1
  have hcomparable : (sourceContext engine slot c).Comparable (sourceContext engine slot' c') :=
    (hc.leads (leads_sourceContext hengine slot c)).comparable
      (hc'.leads (leads_sourceContext hengine slot' c')) (hout'.trans hout.symm)
  rw [work_eq hengine source slot hcalm hout] at hin ⊢
  rw [work_eq hengine source slot' hcalm' hout'] at hin' ⊢
  -- Once both slots are prepared, they have the same state.
  have sources (hsettles : (preparation engine slot c).ending.settles)
      (hsettles' : (preparation engine slot' c').ending.settles)
      (hstate : (preparation engine slot' c').session = (preparation engine slot c).session) :
      Work.Agrees
        (if (preparation engine slot c).ending.settles then
          evaluateSource engine source ⟨⟩ (preparation engine slot c).session
            (sourceContext engine slot c)
        else .ofReport (preparation engine slot c) false)
        (if (preparation engine slot' c').ending.settles then
          evaluateSource engine source ⟨⟩ (preparation engine slot' c').session
            (sourceContext engine slot' c')
        else .ofReport (preparation engine slot' c') false) := by
    rw [if_pos hsettles] at hin ⊢
    rw [if_pos hsettles', hstate] at hin' ⊢
    have hagrees := hengine.agrees _ _ _ _ hcomparable hin hin'
    exact ⟨hagrees.ending, hagrees.session, rfl, hagrees.output⟩
  cases h with
  | same state applied freeAt =>
      have hagrees := preparation_agrees hengine state applied
        (hc.comparable hc' (hout'.trans hout.symm)) hprep hprep'
      by_cases hsettles : (preparation engine slot c).ending.settles
      · exact sources hsettles (by rwa [hagrees.ending]) hagrees.session
      · rw [if_neg hsettles, if_neg (by rwa [hagrees.ending])]
        exact ⟨hagrees.ending, hagrees.session, rfl, hagrees.output⟩
  | ready d under output calm settles state applied free free' =>
      have hagrees := preparation_agrees hengine rfl rfl
        (under.comparable hc (hout.trans output.symm))
        ⟨calm, fun he => absurd he (Ending.ne_endless_of_settles settles)⟩ hprep
      refine sources ?_ ?_ ?_
      · rw [hagrees.ending]
        exact settles
      · rw [preparation_of_applied applied]
        rfl
      · rw [preparation_of_applied applied, hagrees.session]
        exact state

theorem preparation_congr {slot slot' : Slot State} (hstate : slot'.state = slot.state)
    (happlied : slot'.preludeApplied = slot.preludeApplied) (c : Context) :
    preparation engine slot' c = preparation engine slot c := by
  unfold preparation
  rw [happlied, hstate]

/-- An incomplete source leaves a slot that is ready. -/
theorem work_incomplete (hengine : engine.Steady) {source : String} {slot : Slot State} {c : Context}
    {limit : Nat} (hout : c.output = .empty limit) (hin : (work engine source ⟨⟩ slot c).InTime)
    (hending : (work engine source ⟨⟩ slot c).ending = .returned (.ok .incomplete)) :
    (preparation engine slot c).ending.settles = true ∧
      (work engine source ⟨⟩ slot c).slot.state = (preparation engine slot c).session ∧
      (work engine source ⟨⟩ slot c).slot.preludeApplied = true := by
  have hcalm := (leads_work hengine source slot hout).not_cancelled hin.1
  rw [work_eq hengine source slot hcalm hout] at hending ⊢
  by_cases hsettles : (preparation engine slot c).ending.settles
  · rw [if_pos hsettles] at hending ⊢
    exact ⟨hsettles, (hengine.incomplete _ _ _ hending).1, rfl⟩
  · rw [if_neg hsettles] at hending
    have hprep : (preparation engine slot c).ending = .returned (.ok .incomplete) := hending
    exact absurd (by rw [hprep]; rfl) hsettles

/-- After an incomplete source the slot still follows the slot before. -/
theorem Follows.incomplete (hengine : engine.Steady) {limit : Nat} {slot slot' : Slot State}
    (h : Follows engine config limit slot slot') (hfree : slot'.freeAt ≠ none) {source : String}
    {c : Context} (hc : c.Under config) (hout : c.output = .empty limit)
    (hin : (work engine source ⟨⟩ slot' c).InTime)
    (hending : (work engine source ⟨⟩ slot' c).ending = .returned (.ok .incomplete)) :
    Follows engine config limit slot
      { (work engine source ⟨⟩ slot' c).slot with freeAt := (work engine source ⟨⟩ slot' c).doneAt } := by
  obtain ⟨hsettles, hstate, happlied⟩ := work_incomplete hengine hout hin hending
  have hdone : (work engine source ⟨⟩ slot' c).doneAt ≠ none := by
    unfold Work.doneAt
    rw [hending]
    simp
  cases h with
  | same state applied freeAt =>
      have hcalm := (preparation_inTime hengine hout hin).1
      rw [preparation_congr state applied] at hsettles hstate hcalm
      rw [freeAt] at hfree
      exact .ready c hc hout hcalm hsettles hstate happlied hfree hdone
  | ready d under output calm settles state applied free free' =>
      rw [preparation_of_applied applied] at hstate
      exact .ready d under output calm settles (hstate.trans state) happlied free hdone

end Supervisor

end ReplDaemon
