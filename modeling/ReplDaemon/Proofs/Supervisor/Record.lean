import ReplDaemon.Proofs.Supervisor.Later

/-!
# What an engine is given

An engine can keep a record of the sources that it is given to evaluate, which changes nothing else. The
record says what any engine is given for a request: the pending chunks joined with the request's own, and
before them the prelude, if there is one that has not been applied in the session. A prelude that does not
settle is all that the engine is given, and it is given nothing only if the slot is not free for the request
before the deadline.
-/

namespace ReplDaemon

variable {Shared State : Type}

/-- The engine with a record of the sources that it has been given, first one first. -/
def Engine.recorded (engine : Engine Shared State) : Engine (Shared × List String) State where
  name := engine.name
  prelude := engine.prelude
  newSession := engine.newSession
  evaluate source shared state c :=
    let r := engine.evaluate source shared.1 state c
    { r with shared := (r.shared, shared.2 ++ [source]) }

/-- Whether a request with this outcome has timed out. -/
def Outcome.isTimeout : Outcome → Bool
  | .timedOut | .probablyTimedOut => true
  | _ => false

namespace Supervisor

variable {engine : Engine Shared State} {config : SupervisorConfig}

/-- What the engine is given to evaluate for a source, by work that starts in a context or never: the source
itself, if the prelude has been applied or there is none; else the prelude, and the source if that settles;
and nothing if the work starts late or never. -/
inductive Given (engine : Engine Shared State) (source : String) (shared : Shared) (slot : Slot State)
    (start : Option Context) : List String → Prop
  | source {c : Context} (start_eq : start = some c) (calm : c.cancelled = false)
      (ready : slot.preludeApplied = true ∨ engine.prelude = none) :
      Given engine source shared slot start [source]
  | behind {c : Context} {text : String} (start_eq : start = some c) (calm : c.cancelled = false)
      (missing : slot.preludeApplied = false) (prelude_eq : engine.prelude = some text)
      (settles : (engine.evaluate text shared slot.state c).ending.settles = true) :
      Given engine source shared slot start [text, source]
  | failed {c : Context} {text : String} (start_eq : start = some c) (calm : c.cancelled = false)
      (missing : slot.preludeApplied = false) (prelude_eq : engine.prelude = some text)
      (fails : (engine.evaluate text shared slot.state c).ending.settles = false) :
      Given engine source shared slot start [text]
  | nothing (late : ∀ c ∈ start, c.cancelled = true) : Given engine source shared slot start []

/-- The context in which the work for a request starts, if the slot is ever free for it. -/
def start? (config : SupervisorConfig) (session : Session State) (timeout : UInt32) (now : Instant) :
    Option Context :=
  session.slot.freeAt.map fun freeAt =>
    { output := .empty session.outputLimit, clock := max now freeAt,
      cancelAt := deadlineAt config timeout now }

/-- The work for a request, once the slot is free for it. -/
def workFor (engine : Engine Shared State) (config : SupervisorConfig) (shared : Shared)
    (session : Session State) (chunk : String) (timeout : UInt32) (now : Instant) :
    Work Shared State :=
  match session.slot.freeAt with
  | none =>
    { ending := .endless, shared, slot := session.slot, context :=
      { output := .empty session.outputLimit, clock := now,
        cancelAt := deadlineAt config timeout now } }
  | some freeAt =>
    work engine (Session.joinChunks (session.pending ++ [chunk])) shared session.slot
      { output := .empty session.outputLimit, clock := max now freeAt,
        cancelAt := deadlineAt config timeout now }

theorem workFor_of_start {session : Session State} {timeout : UInt32} {now : Instant} {c : Context}
    (h : start? config session timeout now = some c) (engine : Engine Shared State) (shared : Shared)
    (chunk : String) :
    workFor engine config shared session chunk timeout now =
      work engine (Session.joinChunks (session.pending ++ [chunk])) shared session.slot c := by
  obtain ⟨freeAt, hfree, rfl⟩ := Option.map_eq_some_iff.mp h
  rw [workFor, hfree]

theorem workFor_of_never {session : Session State} {timeout : UInt32} {now : Instant}
    (h : start? config session timeout now = none) (engine : Engine Shared State) (shared : Shared)
    (chunk : String) :
    workFor engine config shared session chunk timeout now =
      { ending := .endless, shared, slot := session.slot, context :=
        { output := .empty session.outputLimit, clock := now,
          cancelAt := deadlineAt config timeout now } } := by
  rw [workFor, Option.map_eq_none_iff.mp h]

/-- What a request leaves behind that has been answered, or that never will be. -/
def resultOf (session : Session State) (chunk : String) (now : Instant) (w : Work Shared State)
    (a : Option Answer) : Result Shared State :=
  let slot : Slot State := { w.slot with freeAt := w.doneAt }
  match a with
  | some a =>
    { outcome := some a.outcome, shared := w.shared,
      session := { session with pending := a.pending, slot, lastUsed := a.time }, now := a.time }
  | none =>
    { outcome := none, shared := w.shared,
      session := { session with pending := session.pending ++ [chunk], slot, lastUsed := now }, now }

theorem run_eq_resultOf (engine : Engine Shared State) (config : SupervisorConfig) (shared : Shared)
    (session : Session State) (chunk : String) (timeout : UInt32) (now : Instant) :
    run engine config shared session chunk timeout now =
      resultOf session chunk now (workFor engine config shared session chunk timeout now)
        (answer config (deadlineAt config timeout now)
          (workFor engine config shared session chunk timeout now) (session.pending ++ [chunk])) := by
  unfold run workFor
  cases hfree : session.slot.freeAt with
  | none =>
      have hslot : { session.slot with freeAt := none } = session.slot := by rw [← hfree]
      simp only [Session.touch, hfree, resultOf, Work.doneAt, hslot]
      rfl
  | some freeAt =>
      simp only [Session.touch, hfree]
      rfl

/-- What the outcome of a request tells about what the engine was given: who is answered by output, or by
the request to continue, had the source evaluated; and whoever did not time out had something evaluated. -/
structure Tells (source : String) (given : List String) (outcome : Option Outcome) : Prop where
  output : ∀ shown, outcome = some (.output shown) → source ∈ given
  continues : outcome = some .continues → source ∈ given
  finished : ∀ o, outcome = some o → o.isTimeout = false → given ≠ []

/-- Work that does not settle the prelude comes to no output and is not to be continued. -/
theorem outcome_of_not_settles {deadline : Option Instant} {w : Work Shared State}
    {pending : List String} (h : w.ending.settles = false) :
    (∀ shown, (answer config deadline w pending).map (·.outcome) ≠ some (.output shown)) ∧
      (answer config deadline w pending).map (·.outcome) ≠ some .continues := by
  rcases answer_cases deadline w pending with ⟨_, ha⟩ | ⟨_, _, _, _, ha⟩ | ⟨_, _, ha⟩
  · rw [ha]
    rcases hending : w.ending with (_ | _ | _) | _ | _ <;> simp_all [settle, Ending.settles]
  · simp [ha]
  · simp [ha]

/-- Work that never ends, or that was late from the start, comes to a timeout if to anything. -/
theorem isTimeout_of_late {deadline : Option Instant} {w : Work Shared State} {pending : List String}
    (h : w.doneAt = none ∨
      w.doneAt = some w.context.clock ∧ ∃ t, deadline = some t ∧ t ≤ w.context.clock) :
    ∀ o ∈ (answer config deadline w pending).map (·.outcome), o.isTimeout = true := by
  intro o ho
  rcases answer_cases deadline w pending with ⟨hdone, ha⟩ | ⟨_, _, _, _, ha⟩ | ⟨_, _, ha⟩
  · rw [ha] at ho
    rcases h with hnone | ⟨hclock, t, hat, hle⟩
    · rw [endless_of_doneAt_eq_none hnone] at ho
      cases ho
    · obtain ⟨done, hsome, hlt⟩ := hdone t hat
      cases hclock.symm.trans hsome
      exact absurd hlt (Nat.not_lt.mpr hle)
  · rw [ha] at ho
    cases ho
    rfl
  · rw [ha] at ho
    cases ho
    rfl

/-- A request whose work does not start before its deadline times out if it is answered. -/
theorem isTimeout_of_start (engine : Engine Shared State) {session : Session State} {timeout : UInt32}
    {now : Instant} (h : ∀ c ∈ start? config session timeout now, c.cancelled = true)
    (shared : Shared) (chunk : String) (pending : List String) :
    ∀ o ∈ (answer config (deadlineAt config timeout now)
      (workFor engine config shared session chunk timeout now) pending).map (·.outcome),
      o.isTimeout = true := by
  cases hstart : start? config session timeout now with
  | none =>
      rw [workFor_of_never hstart]
      exact isTimeout_of_late (.inl rfl)
  | some c =>
      have hlate : c.cancelled = true := h c hstart
      rw [workFor_of_start hstart, work, if_pos hlate]
      obtain ⟨_, _, rfl⟩ := Option.map_eq_some_iff.mp hstart
      obtain ⟨t, hat, hle⟩ := (Option.any_eq_true _ _).mp hlate
      exact isTimeout_of_late (.inr ⟨rfl, t, hat, of_decide_eq_true hle⟩)

/-- The outcome tells about all that the engine can be given. -/
theorem Given.tells {shared : Shared} {session : Session State} {chunk : String} {timeout : UInt32}
    {now : Instant} {given : List String}
    (h : Given engine (Session.joinChunks (session.pending ++ [chunk])) shared session.slot
      (start? config session timeout now) given) (pending : List String) :
    Tells (Session.joinChunks (session.pending ++ [chunk])) given
      ((answer config (deadlineAt config timeout now)
        (workFor engine config shared session chunk timeout now) pending).map (·.outcome)) := by
  cases h with
  | source => exact ⟨by simp, by simp, by simp⟩
  | behind => exact ⟨by simp, by simp, by simp⟩
  | @failed c text start_eq calm missing prelude_eq fails =>
      -- The work ends like the prelude.
      have hwork : workFor engine config shared session chunk timeout now =
          .ofReport (engine.evaluate text shared session.slot.state c) false := by
        rw [workFor_of_start start_eq, work_of_missing prelude_eq missing calm]
        exact if_neg (by simp [fails])
      rw [hwork]
      have houtcome := @outcome_of_not_settles _ _ config (deadlineAt config timeout now)
        (.ofReport (engine.evaluate text shared session.slot.state c) false) pending fails
      exact ⟨fun shown hshown => absurd hshown (houtcome.1 shown),
        fun hcontinues => absurd hcontinues houtcome.2, by simp⟩
  | nothing late =>
      have htimeout := isTimeout_of_start engine late shared chunk pending
      refine ⟨fun shown hshown => ?_, fun hcontinues => ?_, fun o ho hfinished => ?_⟩
      · exact absurd (htimeout _ hshown) Bool.false_ne_true
      · exact absurd (htimeout _ hcontinues) Bool.false_ne_true
      · exact absurd (htimeout o ho) (Bool.not_eq_true _ ▸ hfinished)

end Supervisor

end ReplDaemon
