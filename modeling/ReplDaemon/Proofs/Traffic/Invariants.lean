import Mathlib.Data.List.Basic
import ReplDaemon.Proofs.Traffic.Basic

/-!
# What holds in every session that is in use

The lock on the slot keeps the workers apart, and the numbers of the requests follow the queue. A worker
that is neither cancelled nor done belongs to the request that has the turn: this is what the order of
the evaluations rests on, since the lock itself keeps no order.
-/

namespace ReplDaemon

variable {Shared State : Type} {engine : Engine Shared State} {config : SupervisorConfig}

namespace Worker

variable {number : Nat} {slot slot' : LockedSlot State} {w w' : Worker} {act : Act}

/-- A worker has the slot if the slot says so, also after its next step. -/
theorem Step.holder_iff (h : Step engine number slot w act slot' w')
    (hslot : w.phase.hasSlot = true ↔ slot.holder = some number) :
    w'.phase.hasSlot = true ↔ slot'.holder = some number := by
  cases h with
  | acquire => simp [Phase.hasSlot]
  | skip | finish => simp [Phase.hasSlot]
  | pass hphase | callPrelude hphase | callSource hphase | write hphase | prepare hphase =>
      have hheld := hslot.mp (by rw [hphase, Phase.hasSlot])
      simp [Phase.hasSlot, hheld, hphase]

/-- A step of one worker neither gives the slot to another one nor takes it from it. -/
theorem Step.holder_ne (h : Step engine number slot w act slot' w')
    (hslot : w.phase.hasSlot = true ↔ slot.holder = some number) {other : Nat}
    (hne : other ≠ number) : slot'.holder = some other ↔ slot.holder = some other := by
  cases h with
  | acquire free => simp [free, hne.symm]
  | skip hphase | finish _ hphase =>
      have hheld := hslot.mp (by rw [hphase, Phase.hasSlot])
      simp [hheld, hne.symm]
  | pass | callPrelude | callSource | write | prepare => rfl

theorem Step.cancelled_eq (h : Step engine number slot w act slot' w') :
    w'.cancelled = w.cancelled := by
  cases h <;> rfl

theorem Step.phase_ne_done (h : Step engine number slot w act slot' w') (ending : Ending) :
    w.phase ≠ .done ending := by
  intro hdone
  cases h with
  | acquire _ hphase => cases hphase.symm.trans hdone
  | skip hphase | pass hphase | callPrelude hphase | callSource hphase | write hphase
  | prepare hphase | finish _ hphase => cases hphase.symm.trans hdone

end Worker

namespace Traffic

variable {session : Session State} {moves : List Move} {move : Move} {s t : Traffic State}

theorem setWorker_self (s : Traffic State) (number : Nat) (w : Worker) :
    (s.setWorker number w).workers number = some w :=
  Function.update_self ..

theorem setWorker_ne (s : Traffic State) {number other : Nat} (h : other ≠ number) (w : Worker) :
    (s.setWorker number w).workers other = s.workers other :=
  Function.update_of_ne h ..

/-- Whoever is found after a worker has been set is this one or was there before. -/
theorem setWorker_cases {number other : Nat} {w v : Worker}
    (h : (s.setWorker number w).workers other = some v) :
    other = number ∧ v = w ∨ other ≠ number ∧ s.workers other = some v := by
  by_cases he : other = number
  · subst he
    rw [setWorker_self] at h
    exact .inl ⟨rfl, (Option.some.inj h).symm⟩
  · rw [setWorker_ne s he] at h
    exact .inr ⟨he, h⟩

/-- The slot is held by the worker that has it. -/
def SlotHeld (s : Traffic State) : Prop :=
  ∀ i : Nat, s.slot.holder = some i ↔ ∃ w, s.workers i = some w ∧ w.phase.hasSlot = true

theorem SlotHeld.hasSlot_iff (h : s.SlotHeld) {i : Nat} {w : Worker} (hw : s.workers i = some w) :
    w.phase.hasSlot = true ↔ s.slot.holder = some i := by
  rw [h i]
  constructor
  · exact fun hslot => ⟨w, hw, hslot⟩
  · rintro ⟨v, hv, hslot⟩
    cases hw.symm.trans hv
    exact hslot

/-- A worker that is neither cancelled nor done belongs to the request that has the turn, and that one's
deadline has not passed. -/
def Calm (s : Traffic State) : Prop :=
  ∀ (i : Nat) (w : Worker), s.workers i = some w → w.cancelled = false →
    (∃ ending, w.phase = .done ending) ∨
      ∃ turn, s.turn = some turn ∧ turn.number = i ∧ turn.overdue = false

/-- Requests have numbers in the order of the queue, behind those of the workers; the one that has the
turn is the last that a worker was started for. -/
structure Numbered (s : Traffic State) : Prop where
  queue : (s.queue.map (·.number)).Pairwise (· < ·)
  waiter_lt : ∀ r ∈ s.queue, r.number < s.arrivals
  worker_lt : ∀ (i : Nat) (w : Worker), s.workers i = some w → i < s.arrivals
  worker_lt_waiter : ∀ (i : Nat) (w : Worker), s.workers i = some w → ∀ r ∈ s.queue, i < r.number
  worker_le_turn : ∀ turn, s.turn = some turn →
    ∀ (i : Nat) (w : Worker), s.workers i = some w → i ≤ turn.number

/-- A request in the queue has no worker yet. -/
theorem Numbered.workers_eq_none (h : s.Numbered) {r : Waiter} (hr : r ∈ s.queue) :
    s.workers r.number = none := by
  cases hw : s.workers r.number with
  | none => rfl
  | some w => exact absurd (h.worker_lt_waiter _ w hw r hr) (Nat.lt_irrefl _)

theorem numbered_ofSession (session : Session State) : (ofSession session).Numbered where
  queue := .nil
  waiter_lt _ h := nomatch h
  worker_lt _ _ h := nomatch h
  worker_lt_waiter _ _ h := nomatch h
  worker_le_turn _ h := nomatch h

/-- Whoever has a worker after one has been replaced had one before. -/
theorem exists_worker_of_setWorker {number i : Nat} {w w' v : Worker}
    (hw : s.workers number = some w) (h : (s.setWorker number w').workers i = some v) :
    ∃ u, s.workers i = some u := by
  rcases setWorker_cases h with ⟨rfl, -⟩ | ⟨-, hold⟩
  · exact ⟨w, hw⟩
  · exact ⟨v, hold⟩

/-- What matters about the turn and the workers is who has them. -/
theorem Numbered.congr (h : s.Numbered) (harrivals : t.arrivals = s.arrivals)
    (hqueue : t.queue = s.queue)
    (hturn : ∀ turn, t.turn = some turn → ∃ last, s.turn = some last ∧ last.number = turn.number)
    (hworkers : ∀ (i : Nat) (v : Worker), t.workers i = some v → ∃ u, s.workers i = some u) :
    t.Numbered where
  queue := hqueue ▸ h.queue
  waiter_lt := hqueue ▸ harrivals ▸ h.waiter_lt
  worker_lt i v hv := by
    obtain ⟨u, hu⟩ := hworkers i v hv
    exact harrivals ▸ h.worker_lt i u hu
  worker_lt_waiter i v hv := by
    obtain ⟨u, hu⟩ := hworkers i v hv
    exact hqueue ▸ h.worker_lt_waiter i u hu
  worker_le_turn turn hcurrent i v hv := by
    obtain ⟨u, hu⟩ := hworkers i v hv
    obtain ⟨last, hlast, hnumber⟩ := hturn turn hcurrent
    exact hnumber ▸ h.worker_le_turn last hlast i u hu

theorem Step.numbered (h : Step engine config s move t) (hs : s.Numbered) : t.Numbered := by
  cases h with
  | arrive chunk timeout =>
      refine ⟨?_, ?_, ?_, ?_, hs.worker_le_turn⟩
      · rw [List.map_append, List.pairwise_append]
        refine ⟨hs.queue, List.pairwise_singleton _ _, ?_⟩
        simp only [List.map_cons, List.map_nil, List.mem_singleton, forall_eq, List.mem_map]
        rintro _ ⟨r, hr, rfl⟩
        exact hs.waiter_lt r hr
      · intro r hr
        rcases List.mem_append.mp hr with hr | hr
        · exact Nat.lt_succ_of_lt (hs.waiter_lt r hr)
        · rw [List.mem_singleton.mp hr]
          exact Nat.lt_succ_self _
      · exact fun i w hw => Nat.lt_succ_of_lt (hs.worker_lt i w hw)
      · intro i w hw r hr
        rcases List.mem_append.mp hr with hr | hr
        · exact hs.worker_lt_waiter i w hw r hr
        · rw [List.mem_singleton.mp hr]
          exact hs.worker_lt i w hw
  | @serve first rest _ hfree hqueue =>
      have hfirst : first ∈ s.queue := by simp [hqueue]
      have hrest : ∀ r ∈ rest, r ∈ s.queue := by simp +contextual [hqueue]
      have hpairs := hs.queue
      rw [hqueue, List.map_cons, List.pairwise_cons] at hpairs
      refine ⟨hpairs.2, fun r hr => hs.waiter_lt r (hrest r hr), ?_, ?_, ?_⟩
      · intro i w hw
        rcases setWorker_cases hw with ⟨rfl, -⟩ | ⟨-, hw⟩
        · exact hs.waiter_lt first hfirst
        · exact hs.worker_lt i w hw
      · intro i w hw r hr
        rcases setWorker_cases hw with ⟨rfl, -⟩ | ⟨-, hw⟩
        · exact hpairs.1 r.number (List.mem_map_of_mem hr)
        · exact hs.worker_lt_waiter i w hw r (hrest r hr)
      · intro turn hturn i w hw
        cases hturn
        rcases setWorker_cases hw with ⟨rfl, -⟩ | ⟨-, hw⟩
        · exact Nat.le_refl _
        · exact Nat.le_of_lt (hs.worker_lt_waiter i w hw first hfirst)
  | work _ hworker =>
      exact hs.congr rfl rfl (fun turn hturn => ⟨turn, hturn, rfl⟩)
        fun i v hv => exists_worker_of_setWorker hworker hv
  | @cancel turn _ hturn _ _ hworker =>
      refine hs.congr rfl rfl (fun turn' hturn' => ⟨turn, hturn, ?_⟩)
        fun i v hv => exists_worker_of_setWorker hworker hv
      cases hturn'
      rfl
  | answer | stop | abandon =>
      exact hs.congr rfl rfl (fun _ h => nomatch h) fun _ v hv => ⟨v, hv⟩

theorem slotHeld_ofSession (session : Session State) : (ofSession session).SlotHeld := by
  intro i
  constructor
  · intro h
    cases h
  · rintro ⟨w, hw, -⟩
    cases hw

theorem Step.slotHeld (h : Step engine config s move t) (hnumbered : s.Numbered)
    (hs : s.SlotHeld) : t.SlotHeld := by
  intro i
  cases h with
  | arrive | answer | stop | abandon => exact hs i
  | @serve first _ _ _ hqueue =>
      have hnone := hnumbered.workers_eq_none (r := first) (by simp [hqueue])
      refine (hs i).trans ⟨?_, ?_⟩
      · rintro ⟨w, hw, hslot⟩
        have hne : i ≠ first.number := by
          rintro rfl
          cases hnone.symm.trans hw
        exact ⟨w, (setWorker_ne s hne _).trans hw, hslot⟩
      · rintro ⟨w, hw, hslot⟩
        rcases setWorker_cases hw with ⟨-, rfl⟩ | ⟨-, hw⟩
        · cases hslot
        · exact ⟨w, hw, hslot⟩
  | @work number w w' _ _ hworker hstep =>
      have hslot := hs.hasSlot_iff hworker
      by_cases he : i = number
      · subst he
        refine (hstep.holder_iff hslot).symm.trans ⟨fun h => ⟨w', setWorker_self s i w', h⟩, ?_⟩
        rintro ⟨v, hv, h⟩
        cases (setWorker_self s i w').symm.trans hv
        exact h
      · refine (hstep.holder_ne hslot he).trans ((hs i).trans ?_)
        change _ ↔ ∃ v, (s.setWorker number w').workers i = some v ∧ _
        rw [setWorker_ne s he]
  | @cancel turn w _ _ _ hworker =>
      refine (hs i).trans ?_
      change _ ↔ ∃ v, (s.setWorker turn.number _).workers i = some v ∧ _
      by_cases he : i = turn.number
      · subst he
        rw [setWorker_self, hworker]
        simp
      · rw [setWorker_ne s he]

/-- No two workers are inside an evaluation. -/
theorem SlotHeld.evaluates_unique (h : s.SlotHeld) {i j : Nat} (hi : s.Evaluates i)
    (hj : s.Evaluates j) : i = j := by
  obtain ⟨w, part, hw, hphase⟩ := hi
  obtain ⟨v, part', hv, hphase'⟩ := hj
  have hholder : s.slot.holder = some i := (h i).mpr ⟨w, hw, by rw [hphase, Phase.hasSlot]⟩
  have hholder' : s.slot.holder = some j := (h j).mpr ⟨v, hv, by rw [hphase', Phase.hasSlot]⟩
  exact Option.some.inj (hholder.symm.trans hholder')

theorem calm_ofSession (session : Session State) : (ofSession session).Calm :=
  fun _ _ h => nomatch h

/-- A request gives the turn back when its worker is done or has been cancelled. -/
theorem Step.calm (h : Step engine config s move t) (hs : s.Calm) : t.Calm := by
  intro i w hw hcancelled
  cases h with
  | arrive => exact hs i w hw hcancelled
  | serve hfree =>
      rcases setWorker_cases hw with ⟨rfl, -⟩ | ⟨-, hw⟩
      · exact .inr ⟨_, rfl, rfl, rfl⟩
      · rcases hs i w hw hcancelled with hdone | ⟨turn, hturn, -⟩
        · exact .inl hdone
        · cases hfree.symm.trans hturn
  | work _ hworker hstep =>
      rcases setWorker_cases hw with ⟨rfl, rfl⟩ | ⟨-, hw⟩
      · rcases hs _ _ hworker (hstep.cancelled_eq ▸ hcancelled) with ⟨ending, hdone⟩ | hturn
        · exact absurd hdone (hstep.phase_ne_done ending)
        · exact .inr hturn
      · exact hs i w hw hcancelled
  | @cancel turn _ hturn =>
      rcases setWorker_cases hw with ⟨-, rfl⟩ | ⟨hne, hw⟩
      · cases hcancelled
      · rcases hs i w hw hcancelled with hdone | ⟨turn', hturn', hnumber, -⟩
        · exact .inl hdone
        · cases hturn.symm.trans hturn'
          exact absurd hnumber.symm hne
  | @answer turn v ending _ _ hturn _ hworker hdone =>
      rcases hs i w hw hcancelled with hdone' | ⟨turn', hturn', rfl, -⟩
      · exact .inl hdone'
      · cases hturn.symm.trans hturn'
        cases hworker.symm.trans hw
        exact .inl ⟨ending, hdone⟩
  | stop hturn hoverdue | abandon hturn hoverdue =>
      rcases hs i w hw hcancelled with hdone | ⟨turn', hturn', -, hdue⟩
      · exact .inl hdone
      · cases hturn.symm.trans hturn'
        cases hoverdue.symm.trans hdue

/-- Every session that is in use has slots, numbers and turns in order. -/
structure Sound (s : Traffic State) : Prop where
  numbered : s.Numbered
  slotHeld : s.SlotHeld
  calm : s.Calm

theorem Run.sound (h : Run engine config (.ofSession session) moves s) : s.Sound := by
  induction h with
  | nil => exact ⟨numbered_ofSession _, slotHeld_ofSession _, calm_ofSession _⟩
  | snoc _ hstep ih =>
      exact ⟨hstep.numbered ih.numbered, hstep.slotHeld ih.numbered ih.slotHeld, hstep.calm ih.calm⟩

end Traffic

end ReplDaemon
