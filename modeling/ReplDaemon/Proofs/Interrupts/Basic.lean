import Mathlib.Logic.Function.Basic
import ReplDaemon.Evaluation.Interrupts

/-!
# Interrupts among threads

Any number of threads may register hooks with one evaluation and cancel it, and its cancellation may also
be requested past the hooks. Registering and cancelling are steps that nobody interrupts; the hooks that
have to be run come after that, one by one, while the other threads go on. A hook may register and cancel
like anything else, and it may break down.
-/

namespace ReplDaemon.Interrupts

/-- A call that has to run hooks: whether one of them is running, and those that are still ahead. -/
structure Call where
  running : Bool
  ahead : List Nat
  deriving Repr, DecidableEq

/-- The calls that a thread is in, innermost first, with another one that has to run some hooks. It is over
at once if there are none. -/
def Call.within (hooks : List Nat) (calls : List Call) : List Call :=
  match hooks with
  | [] => calls
  | hook :: hooks => ⟨false, hook :: hooks⟩ :: calls

/-- The interrupts of an evaluation, the number of hooks registered so far, and the calls that every thread
is in. A hook goes by the number of those registered before it. -/
structure Shared (Thread : Type) where
  interrupts : Interrupts Nat
  count : Nat
  calls : Thread → List Call

/-- What happens: calls of threads, a request past the hooks, and the beginning and the end of hooks. -/
inductive Event (Thread : Type) where
  | registered (thread : Thread) (hook : Nat)
  | requested
  | cancelled (thread : Thread) (taken : List Nat)
  | began (thread : Thread) (hook : Nat)
  | ended (thread : Thread)
  | broke (thread : Thread)
  deriving Repr, DecidableEq

namespace Event

variable {Thread : Type}

/-- The thread that does something. A request may come from anywhere. -/
def thread? : Event Thread → Option Thread
  | registered thread _ | cancelled thread _ | began thread _ | ended thread | broke thread => some thread
  | requested => none

/-- Whether cancellation has been requested by then. -/
def requests : Event Thread → Bool
  | requested | cancelled _ _ => true
  | registered _ _ | began _ _ | ended _ | broke _ => false

/-- Whether the hooks that wait are taken. -/
def cancels : Event Thread → Bool
  | cancelled _ _ => true
  | registered _ _ | requested | began _ _ | ended _ | broke _ => false

/-- Whether a hook breaks down. -/
def breaks : Event Thread → Bool
  | broke _ => true
  | registered _ _ | requested | cancelled _ _ | began _ _ | ended _ => false

/-- The hook that is registered. -/
def registration? : Event Thread → Option Nat
  | registered _ hook => some hook
  | requested | cancelled _ _ | began _ _ | ended _ | broke _ => none

/-- The hook that is begun. -/
def beginning? : Event Thread → Option Nat
  | began _ hook => some hook
  | registered _ _ | requested | cancelled _ _ | ended _ | broke _ => none

end Event

section Histories

variable {Thread : Type} (events : List (Event Thread))

/-- Whether cancellation has been requested. -/
def asked : Bool :=
  events.any Event.requests

/-- Whether hooks have been taken. -/
def swept : Bool :=
  events.any Event.cancels

/-- The hooks that have been registered, in their order. -/
def registrations : List Nat :=
  events.filterMap Event.registration?

/-- The hooks that have been begun. -/
def beginnings : List Nat :=
  events.filterMap Event.beginning?

/-- The hooks that were registered before cancellation was requested, in their order. -/
def early : List (Event Thread) → List Nat
  | [] => []
  | event :: events => if event.requests then [] else event.registration?.toList ++ early events

end Histories

namespace Shared

variable {Thread : Type}

/-- Nothing has happened. -/
def start : Shared Thread where
  interrupts := .start
  count := 0
  calls _ := []

/-- A thread can make a call unless it is in one and between two hooks. -/
def CanCall (s : Shared Thread) (thread : Thread) : Prop :=
  ∀ call ∈ (s.calls thread).head?, call.running = true

/-- The hooks that a thread has still to run. -/
def ahead (s : Shared Thread) (thread : Thread) : List Nat :=
  (s.calls thread).flatMap Call.ahead

variable [DecidableEq Thread]

/-- A thread is in these calls. -/
def setCalls (s : Shared Thread) (thread : Thread) (calls : List Call) : Shared Thread :=
  { s with calls := Function.update s.calls thread calls }

/-- A thread has called, and has to run some hooks before the call is over. -/
def enter (s : Shared Thread) (thread : Thread) (outcome : List Nat × Interrupts Nat) : Shared Thread :=
  { s.setCalls thread (Call.within outcome.1 (s.calls thread)) with interrupts := outcome.2 }

/-- A step of the threads. Who does what next is open. -/
inductive Step : Shared Thread → Event Thread → Shared Thread → Prop
  | register {s : Shared Thread} (thread : Thread) (able : s.CanCall thread) :
      Step s (.registered thread s.count)
        { s.enter thread (s.interrupts.register s.count) with count := s.count + 1 }
  | request {s : Shared Thread} :
      Step s .requested { s with interrupts := s.interrupts.request }
  | cancel {s : Shared Thread} (thread : Thread) (able : s.CanCall thread) :
      Step s (.cancelled thread s.interrupts.cancel.1) (s.enter thread s.interrupts.cancel)
  | begin {s : Shared Thread} (thread : Thread) {hook : Nat} {ahead : List Nat} {outer : List Call}
      (calls : s.calls thread = ⟨false, hook :: ahead⟩ :: outer) :
      Step s (.began thread hook) (s.setCalls thread (⟨true, ahead⟩ :: outer))
  | finish {s : Shared Thread} (thread : Thread) {ahead : List Nat} {outer : List Call}
      (calls : s.calls thread = ⟨true, ahead⟩ :: outer) :
      Step s (.ended thread) (s.setCalls thread (Call.within ahead outer))
  /-- A hook that breaks down takes the call along that has run it. -/
  | fail {s : Shared Thread} (thread : Thread) {ahead : List Nat} {outer : List Call}
      (calls : s.calls thread = ⟨true, ahead⟩ :: outer) :
      Step s (.broke thread) (s.setCalls thread outer)

/-- What may happen from the beginning, and the state that it leads to. -/
inductive Run : List (Event Thread) → Shared Thread → Prop
  | nil : Run [] start
  | snoc {events : List (Event Thread)} {event : Event Thread} {s t : Shared Thread}
      (run : Run events s) (step : Step s event t) : Run (events ++ [event]) t

end Shared

end ReplDaemon.Interrupts
