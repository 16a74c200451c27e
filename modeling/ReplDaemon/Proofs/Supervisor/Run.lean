import ReplDaemon.Proofs.Supervisor.Work

/-!
# Requests in time

A request that does not time out is answered by what its evaluation comes to; so two requests that
join to the same source are answered alike in sessions whose slots follow each other. After a source
that is to be continued, the slot follows the slot before.
-/

namespace ReplDaemon.Supervisor

variable {State : Type} {engine : Engine Unit State} {config : SupervisorConfig}

theorem settle_continues {ending : Ending} {output : Capture} {pending : List String}
    (h : (settle ending output pending).map Prod.fst = some .continues) :
    ending = .returned (.ok .incomplete) := by
  rcases ending with (_ | (_ | _) | _ | _) | _ | _ <;> simp_all [settle]

/-- What is pending only decides about what stays pending. -/
theorem settle_outcome (ending : Ending) (output : Capture) (pending pending' : List String) :
    (settle ending output pending').map Prod.fst = (settle ending output pending).map Prod.fst := by
  rcases ending with (_ | (_ | _) | _ | _) | _ | _ <;> rfl

/-- Either everything stays pending or nothing. -/
theorem settle_pending (ending : Ending) (output : Capture) :
    (∀ pending : List String, ((settle ending output pending).map Prod.snd).getD pending = pending) ∨
      ∀ pending : List String, ((settle ending output pending).map Prod.snd).getD pending = [] := by
  rcases ending with (_ | (_ | _) | _ | _) | _ | _
  case returned.ok.incomplete => exact .inl fun _ => rfl
  case endless => exact .inl fun _ => rfl
  all_goals exact .inr fun _ => rfl

theorem doneAt_cases {Shared : Type} (w : Work Shared State) :
    w.ending = .endless ∧ w.doneAt = none ∨
      w.ending ≠ .endless ∧ w.doneAt = some w.context.clock := by
  unfold Work.doneAt
  cases w.ending <;> simp

theorem endless_of_doneAt_eq_none {Shared : Type} {w : Work Shared State} (h : w.doneAt = none) :
    w.ending = .endless := by
  rcases doneAt_cases w with ⟨hendless, -⟩ | ⟨-, hsome⟩
  · exact hendless
  · cases h.symm.trans hsome

/-- Work in time is answered by its own outcome. -/
theorem answer_of_inTime {w : Work Unit State} (h : w.InTime) (pending : List String) :
    answer config w.context.cancelAt w pending =
      (settle w.ending w.context.output pending).map fun (outcome, pending) =>
        { outcome, pending, time := w.context.clock } := by
  cases hat : w.context.cancelAt with
  | none =>
      rw [answer]
      exact if_pos rfl
  | some limit =>
      rcases doneAt_cases w with ⟨he, _⟩ | ⟨_, hdone⟩
      · rw [h.2 he] at hat
        cases hat
      · have hclock := (Context.cancelled_eq_false_iff _).mp h.1 limit hat
        simp only [answer, hdone, decide_eq_true hclock, if_true]

/-- Work that is late is answered by a timeout. -/
theorem answer_of_late {w : Work Unit State} (h : ¬ w.InTime) (pending : List String) :
    ∃ a : Answer, answer config w.context.cancelAt w pending = some a ∧
      (a.outcome = .timedOut ∨ a.outcome = .probablyTimedOut) := by
  cases hat : w.context.cancelAt with
  | none => exact absurd ⟨by simp [Context.cancelled, hat], fun _ => hat⟩ h
  | some limit =>
      rcases doneAt_cases w with ⟨_, hdone⟩ | ⟨hends, hdone⟩
      · simp only [answer, hdone]
        exact ⟨_, rfl, .inr rfl⟩
      · have hclock : ¬ w.context.clock < limit := by
          intro hlt
          refine h ⟨(Context.cancelled_eq_false_iff _).mpr fun t ht => ?_, fun he => absurd he hends⟩
          rw [hat] at ht
          cases ht
          exact hlt
        simp only [answer, hdone, decide_eq_false hclock]
        by_cases hgrace : w.context.clock ≤ limit + config.cancelGrace * millisecond
        · exact ⟨_, rfl, .inl (by simp [hgrace])⟩
        · exact ⟨_, rfl, .inr (by simp [hgrace])⟩

/-- The instant at which a request counts as timed out. -/
def deadlineAt (config : SupervisorConfig) (timeout : UInt32) (now : Instant) : Option Instant :=
  (config.deadline timeout).map fun d => now + d * millisecond

/-- The longest time that a request can ask for is less than what counts as endless. -/
theorem timeout_le_patience (timeout : UInt32) : timeout.toNat * millisecond ≤ Script.patience := by
  have hlt := timeout.toNat_lt
  simp only [millisecond, Script.patience]
  omega

/-- The evaluation of a request takes place under the configuration. -/
theorem under_deadlineAt (timeout : UInt32) {now start : Instant} (h : now ≤ start)
    (output : Capture) :
    Context.Under config { output, clock := start, cancelAt := deadlineAt config timeout now } := by
  have hpatience := timeout_le_patience timeout
  unfold deadlineAt SupervisorConfig.deadline
  constructor
  · intro hcap
    obtain ⟨cap, hcap⟩ := Option.isSome_iff_exists.mp hcap
    rw [hcap]
    split <;> simp_all
  · intro hcap t ht
    rw [hcap] at ht
    by_cases hzero : timeout = 0
    · simp [hzero] at ht
    · simp only [hzero, if_false, Option.map_some, Option.mem_some_iff] at ht
      rw [← ht]
      exact Nat.add_le_add h hpatience

/-- How a request is served that does not time out: either the slot is never free again and nobody
ever answers, or the work is done in time. -/
inductive Serves (engine : Engine Unit State) (config : SupervisorConfig) (session : Session State)
    (chunk : String) (r : Result Unit State) : Prop
  | stuck (free : session.slot.freeAt = none) (outcome : r.outcome = none)
      (pending : r.session.pending = session.pending ++ [chunk])
      (slot : r.session.slot = session.slot)
  | done (c : Context) (w : Work Unit State) (free : session.slot.freeAt ≠ none)
      (under : c.Under config) (output : c.output = .empty session.outputLimit)
      (work : w = work engine (Session.joinChunks (session.pending ++ [chunk])) ⟨⟩ session.slot c)
      (inTime : w.InTime)
      (outcome : r.outcome =
        (settle w.ending w.context.output (session.pending ++ [chunk])).map Prod.fst)
      (pending : r.session.pending =
        ((settle w.ending w.context.output (session.pending ++ [chunk])).map Prod.snd).getD
          (session.pending ++ [chunk]))
      (slot : r.session.slot = { w.slot with freeAt := w.doneAt })

/-- What the answer to a request decides about its result. -/
theorem run_of_free {session : Session State} {freeAt : Instant}
    (hfree : session.slot.freeAt = some freeAt) (chunk : String) (timeout : UInt32)
    (now : Instant) {c : Context} {w : Work Unit State}
    (hc : c = { output := .empty session.outputLimit, clock := max now freeAt,
                cancelAt := deadlineAt config timeout now })
    (hw : w = work engine (Session.joinChunks (session.pending ++ [chunk])) ⟨⟩ session.slot c)
    {a : Option Answer}
    (ha : answer config c.cancelAt w (session.pending ++ [chunk]) = a) :
    (run engine config ⟨⟩ session chunk timeout now).outcome = a.map (·.outcome) ∧
      (run engine config ⟨⟩ session chunk timeout now).session.pending =
        (a.map (·.pending)).getD (session.pending ++ [chunk]) ∧
      (run engine config ⟨⟩ session chunk timeout now).session.slot =
        { w.slot with freeAt := w.doneAt } := by
  subst hw
  subst hc
  unfold run
  simp only [Session.touch, hfree]
  simp only [deadlineAt] at ha ⊢
  rw [ha]
  cases a <;> exact ⟨rfl, rfl, rfl⟩

/-- Only timeouts keep a request from being served. -/
theorem run_serves (hengine : engine.Steady) (session : Session State) (chunk : String)
    (timeout : UInt32) (now : Instant)
    (htimedOut : (run engine config ⟨⟩ session chunk timeout now).outcome ≠ some .timedOut)
    (hprobably : (run engine config ⟨⟩ session chunk timeout now).outcome ≠
      some .probablyTimedOut) :
    Serves engine config session chunk (run engine config ⟨⟩ session chunk timeout now) := by
  cases hfree : session.slot.freeAt with
  | none =>
      cases hat : deadlineAt config timeout now with
      | none =>
          unfold deadlineAt at hat
          refine .stuck hfree ?_ ?_ ?_ <;>
            simp only [run, Session.touch, hfree, hat, answer, Work.doneAt, settle] <;> rfl
      | some limit =>
          unfold deadlineAt at hat
          refine absurd ?_ hprobably
          simp only [run, Session.touch, hfree, hat, answer, Work.doneAt]
          rfl
  | some freeAt =>
      obtain ⟨c, hc⟩ : ∃ c : Context, c =
        { output := .empty session.outputLimit, clock := max now freeAt,
          cancelAt := deadlineAt config timeout now } := ⟨_, rfl⟩
      obtain ⟨w, hw⟩ : ∃ w, w =
        work engine (Session.joinChunks (session.pending ++ [chunk])) ⟨⟩ session.slot c := ⟨_, rfl⟩
      have hout : c.output = .empty session.outputLimit := by rw [hc]
      have hat : w.context.cancelAt = c.cancelAt := by
        rw [hw]
        exact (leads_work hengine _ session.slot hout).cancelAt
      by_cases hin : w.InTime
      · have ha : answer config w.context.cancelAt w (session.pending ++ [chunk]) = _ :=
          answer_of_inTime hin _
        rw [hat] at ha
        obtain ⟨houtcome, hpending, hslot⟩ := run_of_free hfree chunk timeout now hc hw ha
        rw [Option.map_map] at houtcome hpending
        refine .done c w (by simp [hfree]) ?_ hout hw hin houtcome hpending hslot
        rw [hc]
        exact under_deadlineAt timeout (Nat.le_max_left _ _) _
      · obtain ⟨a, ha, hlate⟩ : ∃ a : Answer,
            answer config w.context.cancelAt w (session.pending ++ [chunk]) = some a ∧
              (a.outcome = .timedOut ∨ a.outcome = .probablyTimedOut) := answer_of_late hin _
        rw [hat] at ha
        have houtcome := (run_of_free hfree chunk timeout now hc hw ha).1
        rcases hlate with hlate | hlate
        · exact absurd (houtcome.trans (congrArg some hlate)) htimedOut
        · exact absurd (houtcome.trans (congrArg some hlate)) hprobably

/-- A request leaves a session what it is, apart from the pending chunks, the slot and its last use. -/
theorem run_session {Shared : Type} (engine : Engine Shared State) (config : SupervisorConfig)
    (shared : Shared) (session : Session State) (chunk : String) (timeout : UInt32) (now : Instant) :
    (run engine config shared session chunk timeout now).session.key = session.key ∧
      (run engine config shared session chunk timeout now).session.identity = session.identity ∧
      (run engine config shared session chunk timeout now).session.outputLimit =
        session.outputLimit := by
  unfold run
  simp only
  split <;> exact ⟨rfl, rfl, rfl⟩

/-- A request that is answered leaves a session used at that time. -/
theorem lastUsed_run {Shared : Type} (engine : Engine Shared State) (config : SupervisorConfig)
    (shared : Shared) (session : Session State) (chunk : String) (timeout : UInt32) (now : Instant)
    {outcome : Outcome}
    (h : (run engine config shared session chunk timeout now).outcome = some outcome) :
    (run engine config shared session chunk timeout now).session.lastUsed =
      (run engine config shared session chunk timeout now).now := by
  unfold run at h ⊢
  simp only at h ⊢
  split at h
  · rfl
  · cases h

/-- Two requests that join to the same source come to the same, in sessions whose slots follow each
other. -/
theorem Serves.agrees (hengine : engine.Steady) {session session' : Session State}
    {chunk chunk' : String} {r r' : Result Unit State} (h : Serves engine config session chunk r)
    (h' : Serves engine config session' chunk' r')
    (hslot : Follows engine config session.outputLimit session.slot session'.slot)
    (hlimit : session'.outputLimit = session.outputLimit)
    (hjoin : Session.joinChunks (session'.pending ++ [chunk']) =
      Session.joinChunks (session.pending ++ [chunk])) :
    r'.outcome = r.outcome ∧ r'.session.slot.state = r.session.slot.state ∧
      Session.joinChunks r'.session.pending = Session.joinChunks r.session.pending := by
  cases h with
  | stuck free outcome pending slot =>
      cases h' with
      | stuck free' outcome' pending' slot' =>
          rw [outcome, outcome', slot, slot', pending, pending', hjoin]
          cases hslot with
          | same state applied freeAt => exact ⟨rfl, state, rfl⟩
          | ready _ _ _ _ _ _ _ hfree _ => exact absurd free hfree
      | done _ _ free' =>
          cases hslot with
          | same state applied freeAt => exact absurd (freeAt.trans free) free'
          | ready _ _ _ _ _ _ _ hfree _ => exact absurd free hfree
  | done c w free under output work inTime outcome pending slot =>
      cases h' with
      | stuck free' =>
          cases hslot with
          | same state applied freeAt => exact absurd (freeAt.symm.trans free') free
          | ready _ _ _ _ _ _ _ _ hfree' => exact absurd free' hfree'
      | done c' w' free' under' output' work' inTime' outcome' pending' slot' =>
          rw [hlimit] at output'
          rw [hjoin] at work'
          have hagrees : w.Agrees w' := by
            rw [work] at inTime ⊢
            rw [work'] at inTime' ⊢
            exact hslot.work_agrees hengine under under' output output' inTime inTime'
          rw [outcome, outcome', slot, slot', pending, pending', hagrees.ending, hagrees.output]
          refine ⟨settle_outcome _ _ _ _, hagrees.state, ?_⟩
          rcases settle_pending w.ending w.context.output with hall | hall
          · rw [hall, hall, hjoin]
          · rw [hall, hall]

/-- A request that is to be continued adds its chunk, and the slot follows the slot before. -/
theorem Serves.continues (hengine : engine.Steady) {slot : Slot State} {session : Session State}
    {chunk : String} {r : Result Unit State} (h : Serves engine config session chunk r)
    (hslot : Follows engine config session.outputLimit slot session.slot)
    (hcontinues : r.outcome = some .continues) :
    r.session.pending = session.pending ++ [chunk] ∧
      Follows engine config session.outputLimit slot r.session.slot := by
  cases h with
  | stuck free outcome => simp [outcome] at hcontinues
  | done c w free under output work inTime outcome pending slot' =>
      have hincomplete := settle_continues (outcome.symm.trans hcontinues)
      rw [pending, slot', hincomplete]
      subst work
      exact ⟨rfl, hslot.incomplete hengine free under output inTime hincomplete⟩

end ReplDaemon.Supervisor
