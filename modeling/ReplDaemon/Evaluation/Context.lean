import ReplDaemon.Capture

/-!
# The surroundings of an evaluation

An evaluation has an output, a clock and perhaps an instant from which it counts as cancelled. Time
is counted in microseconds and passes only where an evaluation gives it a chance: a checkpoint takes
one, sleeping and blocking take what they are told. So a run is a function of its program, and a loop
that never ends meets its cancellation after finitely many rounds.
-/

namespace ReplDaemon

/-- A time in microseconds. -/
abbrev Instant := Nat

/-- Microseconds in a millisecond. -/
def millisecond : Nat := 1000

/-- What an evaluation sees of the world. -/
structure Context where
  output : Capture
  clock : Instant
  cancelAt : Option Instant
  deriving Repr, DecidableEq

namespace Context

/-- Whether cancellation has been requested by now. -/
def cancelled (c : Context) : Bool :=
  c.cancelAt.any (· ≤ c.clock)

/-- The context after some time. -/
def wait (c : Context) (time : Nat) : Context :=
  { c with clock := c.clock + time }

/-- Writes to the output. -/
def print (c : Context) (s : String) : Context :=
  { c with output := c.output.write s }

/-- Writes a line to the output. -/
def printLine (c : Context) (s : String) : Context :=
  { c with output := c.output.writeLine s }

/-- A sleeper looks for cancellation this often. -/
def sleepSlice : Nat := 10 * millisecond

/-- The instant at which someone who sleeps from `start` to `wake` notices a cancellation at
`request`, which lies between the two. -/
def noticedAt (start wake request : Instant) : Instant :=
  min wake (start + (request - start + sleepSlice - 1) / sleepSlice * sleepSlice)

/-- Sleeps; the answer tells whether the sleep was completed. A cancellation requested meanwhile ends
it at the next look. -/
def sleep (c : Context) (time : Nat) : Bool × Context :=
  let wake := c.clock + time
  match c.cancelAt with
  | none => (true, { c with clock := wake })
  | some request =>
    if request ≤ wake then (false, { c with clock := noticedAt c.clock wake request })
    else (true, { c with clock := wake })

end Context

end ReplDaemon
