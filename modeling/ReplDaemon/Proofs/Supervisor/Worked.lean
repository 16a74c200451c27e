import ReplDaemon.Engine.Rehearsed
import ReplDaemon.Proofs.Capture
import ReplDaemon.Proofs.Supervisor.Record

/-!
# Where work comes from

Whatever a worker does for a request comes from a single evaluation, of the source or of the prelude,
that has started with an empty output; or the worker has not evaluated anything. So what holds of all
evaluations in the states that sessions can have holds of all work.
-/

namespace ReplDaemon

variable {Shared State : Type}

/-- All that evaluations do to the output is to write texts into it. -/
def Engine.Writes (engine : Engine Shared State) : Prop :=
  ∀ source shared state c, ∃ texts : List String,
    (engine.evaluate source shared state c).context.output = texts.foldl Capture.write c.output

/-- A kind of states that new sessions have and that evaluations keep. -/
structure Engine.Stays (engine : Engine Shared State) (kind : State → Prop) : Prop where
  new : ∀ state, engine.newSession = .ok state → kind state
  evaluate : ∀ source shared state c, kind state →
    kind (engine.evaluate source shared state c).session

theorem Engine.Steady.writes {engine : Engine Unit State} (h : engine.Steady) : engine.Writes :=
  fun source _ state c => (h.leads source state c).written

/-- A rehearsed engine writes what its evaluations print. -/
theorem Rehearsed.writes_engine (prelude : Option String) (refusal : Option EngineError) :
    (engine prelude refusal).Writes := by
  intro source course state c
  show ∃ texts : List String, (evaluate source course c).context.output = _
  rcases course with ⟨_ | ⟨⟨opening, act⟩, ahead⟩, seen⟩
  · exact ⟨[], rfl⟩
  · have hact (d : Context) : ∃ texts : List String,
        (act.perform d).2.output = texts.foldl Capture.write d.output := by
      cases act with
      | answer | panic => exact ⟨[], rfl⟩
      | spin =>
          rw [Act.perform]
          split <;> exact ⟨[], rfl⟩
      | block time late => exact ⟨[late], rfl⟩
    cases opening with
    | none => exact hact c
    | some s =>
        obtain ⟨texts, htexts⟩ := hact (c.print s)
        exact ⟨s :: texts, htexts⟩

namespace Supervisor

variable {engine : Engine Shared State} {config : SupervisorConfig} {kind : State → Prop}

/-- Work that comes from an evaluation in a state of some kind and with an empty output, or from none at
all. -/
inductive Worked (engine : Engine Shared State) (kind : State → Prop) (limit : Nat)
    (w : Work Shared State) : Prop
  | idle (ending : w.ending = .endless ∨ w.ending = .returned (.error .cancelled))
      (output : w.context.output = .empty limit) (state : kind w.slot.state)
  | evaluated (source : String) (shared : Shared) {state : State} {c : Context}
      (preludeApplied : Bool) (before : kind state) (output : c.output = .empty limit)
      (eq : w = .ofReport (engine.evaluate source shared state c) preludeApplied)

/-- A kind of states that evaluations keep is kept by all work. -/
theorem Worked.state (hkind : engine.Stays kind) {limit : Nat} {w : Work Shared State}
    (h : Worked engine kind limit w) : kind w.slot.state := by
  cases h with
  | idle _ _ state => exact state
  | evaluated source shared _ before _ eq =>
      subst eq
      exact hkind.evaluate source shared _ _ before

/-- What work leaves in its capture are texts that were written there. -/
theorem Worked.written (hwrites : engine.Writes) {limit : Nat} {w : Work Shared State}
    (h : Worked engine kind limit w) :
    ∃ texts : List String, w.context.output = .written limit texts := by
  cases h with
  | idle _ output _ => exact ⟨[], output⟩
  | evaluated source shared _ _ output eq =>
      obtain ⟨texts, htexts⟩ := hwrites source shared _ _
      exact ⟨texts, by rw [eq, Work.ofReport, htexts, output]; rfl⟩

theorem worked_work (hwrites : engine.Writes) (hkind : engine.Stays kind) (source : String)
    (shared : Shared) {slot : Slot State} (hstate : kind slot.state) {c : Context} {limit : Nat}
    (hout : c.output = .empty limit) :
    Worked engine kind limit (work engine source shared slot c) := by
  unfold work
  split
  · exact .idle (.inr rfl) hout hstate
  · split
    · exact .evaluated source shared true hstate hout rfl
    · split
      · exact .evaluated source shared true hstate hout rfl
      · next prelude _ =>
          rw [evaluateBoth_eq]
          dsimp only
          split
          · -- Clearing the output keeps its limit, and so has the prelude.
            obtain ⟨texts, htexts⟩ := hwrites prelude shared slot.state c
            have hclear : (engine.evaluate prelude shared slot.state c).context.output.clear =
                .empty limit := by
              rw [Capture.clear, htexts, Capture.limit_foldl_write, hout]
              rfl
            exact .evaluated source _ true (hkind.evaluate prelude shared slot.state c hstate) hclear
              rfl
          · exact .evaluated prelude shared false hstate hout rfl

/-- All work for requests comes from evaluations, or from none. -/
theorem worked_workFor (hwrites : engine.Writes) (hkind : engine.Stays kind) (shared : Shared)
    {session : Session State} (hstate : kind session.slot.state) (chunk : String)
    (timeout : UInt32) (now : Instant) :
    Worked engine kind session.outputLimit
      (workFor engine config shared session chunk timeout now) := by
  unfold workFor
  split
  · exact .idle (.inl rfl) rfl hstate
  · exact worked_work hwrites hkind _ shared hstate rfl

/-- Requests keep the kind of state that a session has. -/
theorem state_run (hwrites : engine.Writes) (hkind : engine.Stays kind) (shared : Shared)
    {session : Session State} (hstate : kind session.slot.state) (chunk : String) (timeout : UInt32)
    (now : Instant) :
    kind (run engine config shared session chunk timeout now).session.slot.state := by
  have hworked : Worked engine kind session.outputLimit
      (workFor engine config shared session chunk timeout now) :=
    worked_workFor hwrites hkind shared hstate chunk timeout now
  rw [run_eq_resultOf]
  generalize workFor engine config shared session chunk timeout now = w at hworked
  cases answer config (deadlineAt config timeout now) w (session.pending ++ [chunk]) <;>
    exact hworked.state hkind

end Supervisor

end ReplDaemon
