import ReplDaemon.Engine.Basic

/-!
# An engine that follows a rehearsed course

An engine for trying out what is around engines: every evaluation, of whatever source and in whatever
session, acts out the next of a list of acts. It also keeps a record of the sources it was given.
-/

namespace ReplDaemon.Rehearsed

/-- How an evaluation goes on after it has printed something. -/
inductive Act where
  /-- Ends with an answer. -/
  | answer (a : Except EngineError Evaluation)
  /-- Breaks down. -/
  | panic (message : Option String)
  /-- Waits to be cancelled. -/
  | spin
  /-- Ignores cancellation for some milliseconds and prints something at the end. -/
  | block (time : Nat) (late : String)

/-- One evaluation: what it prints first, and how it goes on. -/
structure Behaviour where
  opening : Option String
  act : Act

/-- What is still to be acted out, and the sources given so far with the times, last one first. -/
structure Course where
  ahead : List Behaviour
  seen : List (Instant × String)

/-- Goes on after the opening. -/
def Act.perform (act : Act) (context : Context) : Ending × Context :=
  match act with
  | .answer a => (.returned a, context)
  | .panic message => (.panicked message, context)
  | .spin =>
    match context.cancelAt with
    | some t => (.returned (.error .cancelled), { context with clock := max context.clock t })
    | none => (.endless, context)
  | .block time late =>
    (.returned (.ok (.completed none)), (context.wait (time * millisecond)).print late)

/-- Acts out the next behaviour. -/
def evaluate (source : String) (course : Course) (context : Context) : Report Course Unit :=
  let seen := (context.clock, source) :: course.seen
  match course.ahead with
  | [] =>
    { ending := .returned (.error (.internal "script exhausted")), shared := { course with seen },
      session := (), context }
  | b :: ahead =>
    let context := match b.opening with
      | some s => context.print s
      | none => context
    let (ending, context) := b.act.perform context
    { ending, shared := { ahead, seen }, session := (), context }

/-- A rehearsed engine, which may have a prelude and may refuse to make sessions. -/
def engine (prelude : Option String) (refusal : Option EngineError) : Engine Course Unit where
  name := "stub"
  prelude
  newSession := match refusal with
    | some e => .error e
    | none => .ok ()
  evaluate source course _ := evaluate source course

end ReplDaemon.Rehearsed
