import ReplDaemon.Config.Basic
import ReplDaemon.Session
import ReplDaemon.Value.Text

/-!
# Supervision of evaluations

One request evaluates one chunk of source in one session. The chunk joins those that are pending, and
a worker evaluates the joined source as soon as the session's slot is free, behind the engine's
prelude if that has not run yet. When the deadline passes first, the evaluation is cancelled and the
worker has a grace period to stop; after that it is given up and keeps the slot until it ends.
-/

namespace ReplDaemon

/-- What answers a source that is not complete. -/
def continueMarker : String := "(continue...)"

/-- What answers an evaluation that was cancelled and stopped. -/
def timedOutMarker : String := "(timed out)"

/-- What answers an evaluation that was cancelled and given up. -/
def probablyTimedOutMarker : String := "(timed out... probably?)"

/-- The outcome of a request: output and value, a statement to be continued, output and an error
text, one of two timeouts, or an engine that broke down. -/
inductive Outcome where
  | output (text : String)
  | continues
  | failed (text : String)
  | timedOut
  | probablyTimedOut
  | internal (text : String)
  deriving Repr, DecidableEq

/-- The text of an outcome. -/
def Outcome.text : Outcome → String
  | .output t | .failed t | .internal t => t
  | .continues => continueMarker
  | .timedOut => timedOutMarker
  | .probablyTimedOut => probablyTimedOutMarker

/-- Whether the evaluation came to a definite answer. -/
def Outcome.isFinished : Outcome → Bool
  | .output _ | .failed _ => true
  | _ => false

/-- The deadline of a request in milliseconds: what it asks for, or the cap if that is less or it asks
for nothing. -/
def SupervisorConfig.deadline (c : SupervisorConfig) (timeout : UInt32) : Option Nat :=
  let requested := if timeout = 0 then none else some timeout.toNat
  match requested, c.timeoutCap with
  | some t, some cap => some (min t cap)
  | some t, none => some t
  | none, cap => cap

/-- What is left pending when a request times out, of the chunks before it and its own. -/
def TimeoutPolicy.apply : TimeoutPolicy → List String → List String
  | .discard, _ => []
  | .preserve, pending => pending.dropLast

namespace Supervisor

variable {Shared State : Type}

/-- What a worker leaves behind: how it ended, and what is different afterwards. -/
structure Work (Shared State : Type) where
  ending : Ending
  shared : Shared
  slot : Slot State
  context : Context

/-- The work after an evaluation in the slot. -/
def Work.ofReport (r : Report Shared State) (preludeApplied : Bool) : Work Shared State where
  ending := r.ending
  shared := r.shared
  slot := { state := r.session, preludeApplied, freeAt := none }
  context := r.context

/-- Evaluates the source itself. -/
def evaluateSource (engine : Engine Shared State) (source : String) (shared : Shared)
    (state : State) (context : Context) : Work Shared State :=
  .ofReport (engine.evaluate source shared state context) true

/-- Evaluates the prelude and then the source. Nothing that the prelude prints is kept, and however
it ends it counts as applied, unless it was cancelled or broke down. -/
def evaluateBoth (engine : Engine Shared State) (prelude source : String) (shared : Shared)
    (state : State) (context : Context) : Work Shared State :=
  let r := engine.evaluate prelude shared state context
  match r.ending with
  | .returned (.error .cancelled) | .panicked _ | .endless => .ofReport r false
  | .returned _ =>
    evaluateSource engine source r.shared r.session
      { r.context with output := r.context.output.clear }

/-- What a worker does once it has the slot. One that has waited past its deadline does nothing. -/
def work (engine : Engine Shared State) (source : String) (shared : Shared) (slot : Slot State)
    (context : Context) : Work Shared State :=
  if context.cancelled then
    { ending := .returned (.error .cancelled), shared, slot, context }
  else if slot.preludeApplied then evaluateSource engine source shared slot.state context
  else match engine.prelude with
    | none => evaluateSource engine source shared slot.state context
    | some prelude => evaluateBoth engine prelude source shared slot.state context

/-- When a worker is done. -/
def Work.doneAt (w : Work Shared State) : Option Instant :=
  match w.ending with
  | .endless => none
  | _ => some w.context.clock

/-- What an engine that breaks down is said to have reported. -/
def panicText (message : Option String) : String :=
  message.getD "evaluation panicked"

/-- The outcome of work that was done in time, and the chunks that stay pending. -/
def settle (ending : Ending) (output : Capture) (pending : List String) :
    Option (Outcome × List String) :=
  match ending with
  | .returned (.ok .incomplete) => some (.continues, pending)
  | .returned (.ok (.completed none)) => some (.output output.shown, [])
  | .returned (.ok (.completed (some v))) => some (.output (output.shown ++ v.format), [])
  | .returned (.ok (.failed e)) => some (.failed (output.shown ++ e), [])
  | .returned (.error e) => some (.failed (output.shown ++ e.message), [])
  | .panicked m =>
    some (.internal (output.writeLine ("internal error: " ++ panicText m)).shown, [])
  | .endless => none

/-- The answer to a request, and when it is given. -/
structure Answer where
  outcome : Outcome
  pending : List String
  time : Instant

/-- The answer that work comes to under a deadline: its own outcome if it is done in time, else one of
the timeouts, depending on whether it is done by the end of the grace period. -/
def answer (config : SupervisorConfig) (deadline : Option Instant) (work : Work Shared State)
    (pending : List String) : Option Answer :=
  let inTime : Bool := match deadline, work.doneAt with
    | some limit, some done => done < limit
    | some _, none => false
    | none, _ => true
  if inTime then
    (settle work.ending work.context.output pending).map fun (outcome, pending) =>
      { outcome, pending, time := work.context.clock }
  else
    deadline.map fun limit =>
      let pending := config.timeoutPolicy.apply pending
      let patience := limit + config.cancelGrace * millisecond
      match work.doneAt with
      | some done =>
        if done ≤ patience then { outcome := .timedOut, pending, time := max limit done }
        else { outcome := .probablyTimedOut, pending, time := patience }
      | none => { outcome := .probablyTimedOut, pending, time := patience }

/-- What a request leaves behind. No answer means that it waits for ever. -/
structure Result (Shared State : Type) where
  outcome : Option Outcome
  shared : Shared
  session : Session State
  now : Instant

/-- Serves a request at a given time. -/
def run (engine : Engine Shared State) (config : SupervisorConfig) (shared : Shared)
    (session : Session State) (chunk : String) (timeout : UInt32) (now : Instant) :
    Result Shared State :=
  let session := session.touch now
  let pending := session.pending ++ [chunk]
  let source := Session.joinChunks pending
  let deadline := (config.deadline timeout).map fun d => now + d * millisecond
  let done : Work Shared State × Slot State :=
    match session.slot.freeAt with
    | none =>
      -- The slot is never free again, so the worker waits behind it for ever.
      ({ ending := .endless, shared, slot := session.slot,
         context := { output := .empty session.outputLimit, clock := now, cancelAt := deadline } },
        session.slot)
    | some freeAt =>
      let context : Context :=
        { output := .empty session.outputLimit, clock := max now freeAt, cancelAt := deadline }
      let w := work engine source shared session.slot context
      (w, { w.slot with freeAt := w.doneAt })
  let (w, slot) := done
  match answer config deadline w pending with
  | some a =>
    { outcome := some a.outcome, shared := w.shared,
      session := { session with pending := a.pending, slot, lastUsed := a.time }, now := a.time }
  | none => { outcome := none, shared := w.shared, session := { session with pending, slot }, now }

end Supervisor

end ReplDaemon
