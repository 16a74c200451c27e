import ReplDaemon.Proofs.Script.Later
import ReplDaemon.Proofs.Supervisor.Run

/-!
# Requests at a later time

On an engine that does not know the time, the same request comes to the same in two sessions that are
alike, at whatever times their slots are free for it. And afterwards the sessions are alike again, with
slots that are free by the time of the answer, unless the request was given up.
-/

namespace ReplDaemon

/-- The slot is free at some time, unless it never is. -/
def Slot.ReadyBy {State : Type} (slot : Slot State) (now : Instant) : Prop :=
  ∀ t ∈ slot.freeAt, t ≤ now

/-- Two sessions, each at its time, that serve a request alike. -/
structure Session.Alike {State : Type} (now now' : Instant) (s s' : Session State) : Prop where
  pending : s'.pending = s.pending
  outputLimit : s'.outputLimit = s.outputLimit
  state : s'.slot.state = s.slot.state
  preludeApplied : s'.slot.preludeApplied = s.slot.preludeApplied
  free : s'.slot.freeAt.isSome = s.slot.freeAt.isSome
  ready : s.slot.ReadyBy now
  ready' : s'.slot.ReadyBy now'

namespace Session.Alike

variable {State : Type} {now now' later later' : Instant} {s s' : Session State}

/-- What is alike stays alike while time passes. -/
theorem mono (h : Alike now now' s s') (hle : now ≤ later) (hle' : now' ≤ later') :
    Alike later later' s s' :=
  { h with
    ready := fun t ht => Nat.le_trans (h.ready t ht) hle
    ready' := fun t ht => Nat.le_trans (h.ready' t ht) hle' }

theorem touch (h : Alike now now' s s') (used used' : Instant) :
    Alike now now' (s.touch used) (s'.touch used') :=
  ⟨h.pending, h.outputLimit, h.state, h.preludeApplied, h.free, h.ready, h.ready'⟩

/-- New sessions are alike. -/
theorem new (key key' : String) (identity identity' : Nat) (state : State) (outputLimit : Nat) :
    Alike now now' (Session.new key identity state outputLimit now)
      (Session.new key' identity' state outputLimit now') := by
  refine ⟨rfl, rfl, rfl, rfl, rfl, fun t ht => ?_, fun t ht => ?_⟩
  · cases ht
    exact Nat.zero_le _
  · cases ht
    exact Nat.zero_le _

end Session.Alike

namespace Supervisor

variable {Shared State : Type} {engine : Engine Shared State} {config : SupervisorConfig}

/-- Two workers come to the same, the second one at a later time. -/
structure Work.Delayed (delay : Nat) (w w' : Work Shared State) : Prop where
  ending : w'.ending = w.ending
  shared : w'.shared = w.shared
  state : w'.slot.state = w.slot.state
  preludeApplied : w'.slot.preludeApplied = w.slot.preludeApplied
  context : w'.context = w.context.later delay

namespace Work.Delayed

variable {delay : Nat} {w w' : Work Shared State}

theorem doneAt (h : Work.Delayed delay w w') : w'.doneAt = w.doneAt.map (· + delay) := by
  unfold Work.doneAt
  rw [h.ending, h.context]
  cases w.ending <;> rfl

theorem ofReport (r : Report Shared State) (preludeApplied : Bool) (delay : Nat) :
    Work.Delayed delay (.ofReport r preludeApplied) (.ofReport (r.later delay) preludeApplied) :=
  ⟨rfl, rfl, rfl, rfl, rfl⟩

end Work.Delayed

theorem evaluateSource_later (hengine : engine.Timeless) (source : String) (shared : Shared)
    (state : State) (c : Context) (delay : Nat) :
    Work.Delayed delay (evaluateSource engine source shared state c)
      (evaluateSource engine source shared state (c.later delay)) := by
  rw [evaluateSource, evaluateSource, hengine]
  exact .ofReport _ true delay

theorem evaluateBoth_later (hengine : engine.Timeless) (prelude source : String) (shared : Shared)
    (state : State) (c : Context) (delay : Nat) :
    Work.Delayed delay (evaluateBoth engine prelude source shared state c)
      (evaluateBoth engine prelude source shared state (c.later delay)) := by
  have hprelude := hengine prelude shared state c delay
  unfold evaluateBoth
  rw [hprelude]
  generalize engine.evaluate prelude shared state c = r
  have hending : (r.later delay).ending = r.ending := rfl
  simp only [hending]
  split
  · exact .ofReport r false delay
  · exact .ofReport r false delay
  · exact .ofReport r false delay
  · exact evaluateSource_later hengine source r.shared r.session _ delay

/-- A worker comes to the same at a later time. -/
theorem work_later (hengine : engine.Timeless) {slot slot' : Slot State}
    (hstate : slot'.state = slot.state) (happlied : slot'.preludeApplied = slot.preludeApplied)
    (source : String) (shared : Shared) (c : Context) (delay : Nat) :
    Work.Delayed delay (work engine source shared slot c)
      (work engine source shared slot' (c.later delay)) := by
  unfold work
  rw [Context.cancelled_later, happlied, hstate]
  split
  · exact ⟨rfl, rfl, hstate, happlied, rfl⟩
  · split
    · exact evaluateSource_later hengine source shared slot.state c delay
    · split
      · exact evaluateSource_later hengine source shared slot.state c delay
      · next prelude _ => exact evaluateBoth_later hengine prelude source shared slot.state c delay

/-- Delayed work has the same answer at a later time. -/
theorem answer_later {delay : Nat} {w w' : Work Shared State} (h : Work.Delayed delay w w')
    (deadline : Option Instant) (pending : List String) :
    answer config (deadline.map (· + delay)) w' pending =
      (answer config deadline w pending).map fun a => { a with time := a.time + delay } := by
  have hsettled : answer config none w' pending =
      (answer config none w pending).map fun a => { a with time := a.time + delay } := by
    simp only [answer, if_true]
    rw [h.ending, h.context, Option.map_map]
    rfl
  have hpatience (limit : Instant) : limit + delay + config.cancelGrace * millisecond =
      limit + config.cancelGrace * millisecond + delay := Nat.add_right_comm _ _ _
  unfold answer
  rw [h.doneAt]
  cases deadline with
  | none => exact hsettled
  | some limit =>
      cases w.doneAt with
      | none => simp [hpatience]
      | some done =>
          simp only [Option.map_some, Nat.add_lt_add_iff_right]
          by_cases hlt : done < limit
          · simpa only [answer, hlt, decide_true, if_true] using hsettled
          · simp only [hlt, decide_false, Bool.false_eq_true, if_false, hpatience,
              Nat.add_le_add_iff_right]
            split
            · simp only [Option.map_some, Nat.add_max_add_right]
            · rfl

/-- The work for a request whose slot is free by now, unless it never is. -/
def attempt (engine : Engine Shared State) (config : SupervisorConfig) (shared : Shared)
    (session : Session State) (chunk : String) (timeout : UInt32) (now : Instant) :
    Work Shared State :=
  let context : Context :=
    { output := .empty session.outputLimit, clock := now, cancelAt := deadlineAt config timeout now }
  if session.slot.freeAt.isSome then
    work engine (Session.joinChunks (session.pending ++ [chunk])) shared session.slot context
  else { ending := .endless, shared, slot := session.slot, context }

/-- A slot that is never free again is waited for without end. -/
theorem attempt_of_never {session : Session State} (hfree : session.slot.freeAt = none)
    (shared : Shared) (chunk : String) (timeout : UInt32) (now : Instant) :
    attempt engine config shared session chunk timeout now =
      { ending := .endless, shared, slot := session.slot, context :=
        { output := .empty session.outputLimit, clock := now,
          cancelAt := deadlineAt config timeout now } } := by
  simp only [attempt, hfree, Option.isSome_none, Bool.false_eq_true, if_false]

theorem attempt_of_free {session : Session State} {t : Instant}
    (hfree : session.slot.freeAt = some t) (shared : Shared) (chunk : String) (timeout : UInt32)
    (now : Instant) :
    attempt engine config shared session chunk timeout now =
      work engine (Session.joinChunks (session.pending ++ [chunk])) shared session.slot
        { output := .empty session.outputLimit, clock := now,
          cancelAt := deadlineAt config timeout now } := by
  simp only [attempt, hfree, Option.isSome_some, if_true]

theorem run_of_ready {session : Session State} {now : Instant} (h : session.slot.ReadyBy now)
    (shared : Shared) (chunk : String) (timeout : UInt32) :
    run engine config shared session chunk timeout now =
      let w := attempt engine config shared session chunk timeout now
      let slot : Slot State := { w.slot with freeAt := w.doneAt }
      match answer config (deadlineAt config timeout now) w (session.pending ++ [chunk]) with
      | some a =>
        { outcome := some a.outcome, shared := w.shared,
          session := { session with pending := a.pending, slot, lastUsed := a.time }, now := a.time }
      | none =>
        { outcome := none, shared := w.shared,
          session := { session with pending := session.pending ++ [chunk], slot, lastUsed := now },
          now } := by
  cases hfree : session.slot.freeAt with
  | none =>
      have hattempt := @attempt_of_never _ _ engine config _ hfree shared chunk timeout now
      have hslot :
          { (attempt engine config shared session chunk timeout now).slot with
            freeAt := (attempt engine config shared session chunk timeout now).doneAt } =
            session.slot := by
        rw [hattempt, Work.doneAt, ← hfree]
      unfold run
      simp only [Session.touch, hfree]
      rw [hslot]
      generalize attempt engine config shared session chunk timeout now = w at hattempt ⊢
      subst hattempt
      rfl
  | some t =>
      have hmax : max now t = now := Nat.max_eq_left (h t hfree)
      have hattempt := @attempt_of_free _ _ engine config _ _ hfree shared chunk timeout now
      unfold run
      simp only [Session.touch, hfree, hmax]
      generalize attempt engine config shared session chunk timeout now = w at hattempt ⊢
      subst hattempt
      rfl

theorem deadlineAt_later (timeout : UInt32) (now delay : Instant) :
    deadlineAt config timeout (now + delay) = (deadlineAt config timeout now).map (· + delay) := by
  rw [deadlineAt, deadlineAt, Option.map_map]
  exact congrArg (Option.map · _) (funext fun d => Nat.add_right_comm _ _ _)

theorem attempt_later (hengine : engine.Timeless) {now now' : Instant} {s s' : Session State}
    (h : Session.Alike now now' s s') (shared : Shared) (chunk : String) (timeout : UInt32) (delay : Nat) :
    Work.Delayed delay (attempt engine config shared s chunk timeout now)
      (attempt engine config shared s' chunk timeout (now + delay)) := by
  unfold attempt
  simp only [h.free, h.pending, h.outputLimit, deadlineAt_later]
  split
  · exact work_later hengine h.state h.preludeApplied _ shared _ delay
  · exact ⟨rfl, rfl, h.state, h.preludeApplied, rfl⟩

theorem clock_of_doneAt {w : Work Shared State} {t : Instant} (h : w.doneAt = some t) :
    w.context.clock = t := by
  rcases doneAt_cases w with ⟨_, hnone⟩ | ⟨_, hsome⟩
  · cases hnone.symm.trans h
  · exact Option.some.inj (hsome.symm.trans h)

/-- Only work that never ends settles nothing. -/
theorem doneAt_of_settle_eq_none {w : Work Shared State} {pending : List String}
    (h : settle w.ending w.context.output pending = none) : w.doneAt = none := by
  rcases doneAt_cases w with ⟨_, hnone⟩ | ⟨hends, _⟩
  · exact hnone
  · rcases hending : w.ending with (_ | (_ | _) | _ | _) | _ | _ <;> simp_all [settle]

/-- A request is answered by its own outcome, if the work is done before the deadline, or by one of the
timeouts. -/
theorem answer_cases (deadline : Option Instant) (w : Work Shared State) (pending : List String) :
    ((∀ limit, deadline = some limit → ∃ done, w.doneAt = some done ∧ done < limit) ∧
      answer config deadline w pending =
        (settle w.ending w.context.output pending).map (fun (outcome, pending) =>
          { outcome, pending, time := w.context.clock })) ∨
      (∃ limit done, deadline = some limit ∧ w.doneAt = some done ∧
        answer config deadline w pending = some
          { outcome := .timedOut, pending := config.timeoutPolicy.apply pending,
            time := max limit done }) ∨
      ∃ limit, deadline = some limit ∧
        answer config deadline w pending = some
          { outcome := .probablyTimedOut, pending := config.timeoutPolicy.apply pending,
            time := limit + config.cancelGrace * millisecond } := by
  unfold answer
  cases deadline with
  | none => exact .inl ⟨(fun _ h => nomatch h), if_pos rfl⟩
  | some limit =>
      cases w.doneAt with
      | none => exact .inr (.inr ⟨limit, rfl, rfl⟩)
      | some done =>
          by_cases hlt : done < limit
          · refine .inl ⟨fun _ h => ?_, if_pos (decide_eq_true hlt)⟩
            cases h
            exact ⟨done, rfl, hlt⟩
          · simp only [hlt, decide_false, Bool.false_eq_true, if_false, Option.map_some]
            by_cases hgrace : done ≤ limit + config.cancelGrace * millisecond
            · exact .inr (.inl ⟨limit, done, rfl, rfl, by rw [if_pos hgrace]⟩)
            · exact .inr (.inr ⟨limit, rfl, by rw [if_neg hgrace]⟩)

/-- Who is answered otherwise than that the work was given up, is answered when the work is done. -/
theorem doneAt_le_of_answer {deadline : Option Instant} {w : Work Shared State}
    {pending : List String} {a : Answer} (h : answer config deadline w pending = some a)
    (hgiven : a.outcome ≠ .probablyTimedOut) : ∀ t ∈ w.doneAt, t ≤ a.time := by
  intro t (ht : w.doneAt = some t)
  rcases answer_cases deadline w pending with ⟨_, ha⟩ | ⟨limit, done, _, hdone, ha⟩ | ⟨limit, _, ha⟩
  · obtain ⟨_, _, rfl⟩ := Option.map_eq_some_iff.mp (ha.symm.trans h)
    exact Nat.le_of_eq (clock_of_doneAt ht).symm
  · cases hdone.symm.trans ht
    cases ha.symm.trans h
    exact Nat.le_max_right limit t
  · cases ha.symm.trans h
    exact absurd rfl hgiven

/-- Who is never answered waits for work that is never done. -/
theorem doneAt_of_answer_none {deadline : Option Instant} {w : Work Shared State}
    {pending : List String} (h : answer config deadline w pending = none) : w.doneAt = none := by
  rcases answer_cases deadline w pending with ⟨_, ha⟩ | ⟨_, _, _, _, ha⟩ | ⟨_, _, ha⟩
  · exact doneAt_of_settle_eq_none (Option.map_eq_none_iff.mp (ha.symm.trans h))
  · cases ha.symm.trans h
  · cases ha.symm.trans h

/-- No answer is given before the work and its deadline allow it. -/
theorem le_time_of_answer {deadline : Option Instant} {w : Work Shared State}
    {pending : List String} {a : Answer} (h : answer config deadline w pending = some a)
    {now : Instant} (hdeadline : ∀ limit ∈ deadline, now ≤ limit) (hclock : now ≤ w.context.clock) :
    now ≤ a.time := by
  rcases answer_cases deadline w pending with ⟨_, ha⟩ | ⟨limit, done, hat, _, ha⟩ | ⟨limit, hat, ha⟩
  · obtain ⟨_, _, rfl⟩ := Option.map_eq_some_iff.mp (ha.symm.trans h)
    exact hclock
  · cases ha.symm.trans h
    exact Nat.le_trans (hdeadline limit hat) (Nat.le_max_left limit done)
  · cases ha.symm.trans h
    exact Nat.le_add_right_of_le (hdeadline limit hat)

/-- Two results are the same, the second one at a later time. -/
structure Result.Delayed (delay : Nat) (r r' : Result Shared State) : Prop where
  outcome : r'.outcome = r.outcome
  shared : r'.shared = r.shared
  now : r'.now = r.now + delay
  session : r'.outcome ≠ some .probablyTimedOut → Session.Alike r.now r'.now r.session r'.session

/-- A request comes to the same at a later time. -/
theorem run_later (hengine : engine.Timeless) {now delay : Nat} {s s' : Session State}
    (h : Session.Alike now (now + delay) s s') (shared : Shared) (chunk : String)
    (timeout : UInt32) :
    Result.Delayed delay (run engine config shared s chunk timeout now)
      (run engine config shared s' chunk timeout (now + delay)) := by
  have hwork : Work.Delayed delay (attempt engine config shared s chunk timeout now)
      (attempt engine config shared s' chunk timeout (now + delay)) :=
    attempt_later hengine h shared chunk timeout delay
  rw [run_of_ready h.ready, run_of_ready h.ready']
  generalize attempt engine config shared s chunk timeout now = w at hwork
  generalize attempt engine config shared s' chunk timeout (now + delay) = w' at hwork
  have hanswer : answer config ((deadlineAt config timeout now).map (· + delay)) w'
      (s.pending ++ [chunk]) = _ := answer_later hwork (deadlineAt config timeout now) _
  dsimp only
  rw [h.pending, deadlineAt_later, hanswer]
  cases ha : answer config (deadlineAt config timeout now) w (s.pending ++ [chunk]) with
  | none =>
      have hdone : w.doneAt = none := doneAt_of_answer_none ha
      have hdone' : w'.doneAt = none := by rw [hwork.doneAt, hdone, Option.map_none]
      rw [Option.map_none, hdone, hdone']
      exact ⟨rfl, hwork.shared, rfl, fun _ => ⟨rfl, h.outputLimit, hwork.state,
        hwork.preludeApplied, rfl, (fun _ ht => nomatch ht), (fun _ ht => nomatch ht)⟩⟩
  | some a =>
      rw [Option.map_some]
      refine ⟨rfl, hwork.shared, rfl, fun hgiven => ?_⟩
      have hdone : ∀ t ∈ w.doneAt, t ≤ a.time :=
        doneAt_le_of_answer ha fun h => hgiven (congrArg some h)
      refine ⟨rfl, h.outputLimit, hwork.state, hwork.preludeApplied, ?_, hdone, ?_⟩
      · change w'.doneAt.isSome = w.doneAt.isSome
        rw [hwork.doneAt, Option.isSome_map]
      · intro t ht
        obtain ⟨done, hmem, rfl⟩ := Option.map_eq_some_iff.mp (hwork.doneAt.symm.trans ht)
        exact Nat.add_le_add_right (hdone done hmem) delay

theorem le_deadlineAt (config : SupervisorConfig) (timeout : UInt32) (now : Instant) :
    ∀ limit ∈ deadlineAt config timeout now, now ≤ limit := by
  intro limit h
  obtain ⟨d, _, rfl⟩ := Option.map_eq_some_iff.mp h
  exact Nat.le_add_right _ _

/-- Serving a request takes its time; a request that is never answered takes none. -/
theorem now_run {engine : Engine Unit State} (hengine : engine.Steady) (config : SupervisorConfig)
    (session : Session State) (chunk : String) (timeout : UInt32) (now : Instant) :
    now ≤ (run engine config ⟨⟩ session chunk timeout now).now ∧
      ((run engine config ⟨⟩ session chunk timeout now).outcome = none →
        (run engine config ⟨⟩ session chunk timeout now).now = now) := by
  have hdeadline := le_deadlineAt config timeout now
  unfold deadlineAt at hdeadline
  unfold run
  simp only
  split
  · next a ha =>
      refine ⟨le_time_of_answer ha hdeadline ?_, fun h => nomatch h⟩
      cases hfree : session.slot.freeAt with
      | none =>
          simp only [Session.touch, hfree]
          exact Nat.le_refl now
      | some freeAt =>
          have hleads := leads_work hengine (Session.joinChunks (session.pending ++ [chunk]))
            session.slot (c := { output := .empty session.outputLimit, clock := max now freeAt,
                                 cancelAt := deadlineAt config timeout now }) rfl
          unfold deadlineAt at hleads
          simp only [Session.touch, hfree]
          exact Nat.le_trans (Nat.le_max_left now freeAt) hleads.clock
  · exact ⟨Nat.le_refl now, fun _ => rfl⟩

end Supervisor

end ReplDaemon
