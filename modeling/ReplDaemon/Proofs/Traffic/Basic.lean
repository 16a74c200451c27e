import Mathlib.Logic.Function.Basic
import ReplDaemon.Proofs.Supervisor.Work

/-!
# The traffic in a session

Several requests may want one session at once. They queue for the session's turn, and whoever has the
turn starts a worker with a context and an output of its own. The workers in turn want the engine's
slot, which has no queue: any of them that waits may get it next. A request that passes its deadline
cancels its worker, and one whose grace period is over leaves its worker behind, which goes on.

This is a relation between states: who does what next is open, and so are what an evaluation writes,
when it returns and what it makes of the engine's state.
-/

namespace ReplDaemon

/-- What a worker evaluates: the prelude of the engine, or the source of its request. -/
inductive Part where
  | prelude
  | source
  deriving Repr, DecidableEq

/-- How far a worker is: it waits for the slot, it has it, it has passed the checkpoint and evaluates
nothing at the moment, it is inside an evaluation, or it is done and has let go of the slot. -/
inductive Phase where
  | waiting
  | holding
  | admitted
  | evaluating (part : Part)
  | done (ending : Ending)

namespace Phase

/-- Whether a worker in this phase has the slot. -/
def hasSlot : Phase → Bool
  | waiting | done _ => false
  | holding | admitted | evaluating _ => true

/-- Whether a worker in this phase is in front of the checkpoint. -/
def isEarly : Phase → Bool
  | waiting | holding => true
  | admitted | evaluating _ | done _ => false

/-- Whether a worker in this phase has passed the checkpoint and may come to evaluate its source. -/
def mayStart : Phase → Bool
  | admitted | evaluating .prelude => true
  | waiting | holding | evaluating .source | done _ => false

end Phase

/-- The worker of a request, with its context: whether it is cancelled, and its output. -/
structure Worker where
  source : String
  phase : Phase
  cancelled : Bool
  output : Capture

/-- The slot, behind a lock that one worker can hold at a time. -/
structure LockedSlot (State : Type) where
  holder : Option Nat
  state : State
  preludeApplied : Bool

/-- What a worker does. -/
inductive Act where
  | acquired
  | admitted
  | called (part : Part) (text : String)
  | wrote (text : String)
  | prepared
  | finished (ending : Ending)

namespace Worker

variable {Shared State : Type}

/-- A worker that has just been started. -/
def new (source : String) (outputLimit : Nat) : Worker where
  source
  phase := .waiting
  cancelled := false
  output := .empty outputLimit

/-- A step of the worker with a given number. -/
inductive Step (engine : Engine Shared State) (number : Nat) :
    LockedSlot State → Worker → Act → LockedSlot State → Worker → Prop
  | acquire {slot : LockedSlot State} {w : Worker} (free : slot.holder = none)
      (waiting : w.phase = .waiting) :
      Step engine number slot w .acquired { slot with holder := some number }
        { w with phase := .holding }
  /-- A worker that was cancelled by the time it got the slot gives up at the checkpoint. -/
  | skip {slot : LockedSlot State} {w : Worker} (holding : w.phase = .holding)
      (cancelled : w.cancelled = true) :
      Step engine number slot w (.finished (.returned (.error .cancelled)))
        { slot with holder := none } { w with phase := .done (.returned (.error .cancelled)) }
  | pass {slot : LockedSlot State} {w : Worker} (holding : w.phase = .holding)
      (calm : w.cancelled = false) :
      Step engine number slot w .admitted slot { w with phase := .admitted }
  | callPrelude {slot : LockedSlot State} {w : Worker} {text : String}
      (admitted : w.phase = .admitted) (missing : slot.preludeApplied = false)
      (prelude : engine.prelude = some text) :
      Step engine number slot w (.called .prelude text) slot
        { w with phase := .evaluating .prelude }
  | callSource {slot : LockedSlot State} {w : Worker} (admitted : w.phase = .admitted)
      (applied : slot.preludeApplied = true ∨ engine.prelude = none) :
      Step engine number slot w (.called .source w.source) { slot with preludeApplied := true }
        { w with phase := .evaluating .source }
  | write {slot : LockedSlot State} {w : Worker} {part : Part}
      (evaluating : w.phase = .evaluating part) (text : String) :
      Step engine number slot w (.wrote text) slot { w with output := w.output.write text }
  /-- A prelude that comes to an end, whatever its answer, counts as applied, and nothing that it
  printed is kept. -/
  | prepare {slot : LockedSlot State} {w : Worker} (evaluating : w.phase = .evaluating .prelude)
      (ending : Ending) (settles : ending.settles = true) (state : State) :
      Step engine number slot w .prepared { slot with state, preludeApplied := true }
        { w with phase := .admitted, output := w.output.clear }
  | finish {slot : LockedSlot State} {w : Worker} (part : Part)
      (evaluating : w.phase = .evaluating part) (ending : Ending) (ends : ending ≠ .endless)
      (last : part = .prelude → ending.settles = false) (state : State) :
      Step engine number slot w (.finished ending) { slot with state, holder := none }
        { w with phase := .done ending }

end Worker

/-- A request in the queue. Requests are numbered as they arrive. -/
structure Waiter where
  number : Nat
  chunk : String
  timeout : UInt32

/-- The request that has the session's turn, and whether its deadline has passed. -/
structure Turn where
  number : Nat
  timeout : UInt32
  overdue : Bool

/-- What happens in a session. -/
inductive Move where
  | arrived (number : Nat)
  | served (number : Nat)
  | worked (number : Nat) (act : Act)
  | cancelled (number : Nat)
  | answered (number : Nat) (outcome : Outcome)

/-- The state of a session that is in use: the requests in the queue, first one first, the one that has
the turn, the chunks that are pending, and the workers that have been started, each under the number of
its request. -/
structure Traffic (State : Type) where
  arrivals : Nat
  queue : List Waiter
  turn : Option Turn
  pending : List String
  workers : Nat → Option Worker
  slot : LockedSlot State
  outputLimit : Nat

namespace Traffic

variable {Shared State : Type}

/-- A session that nobody uses. -/
def ofSession (session : Session State) : Traffic State where
  arrivals := 0
  queue := []
  turn := none
  pending := session.pending
  workers _ := none
  slot := { holder := none, state := session.slot.state, preludeApplied := session.slot.preludeApplied }
  outputLimit := session.outputLimit

/-- A worker takes the place of the one with the same number, or of none. -/
def setWorker (s : Traffic State) (number : Nat) (w : Worker) : Traffic State :=
  { s with workers := Function.update s.workers number (some w) }

/-- A step of a session that is in use. -/
inductive Step (engine : Engine Shared State) (config : SupervisorConfig) :
    Traffic State → Move → Traffic State → Prop
  | arrive {s : Traffic State} (chunk : String) (timeout : UInt32) :
      Step engine config s (.arrived s.arrivals)
        { s with arrivals := s.arrivals + 1, queue := s.queue ++ [⟨s.arrivals, chunk, timeout⟩] }
  /-- The first in the queue gets the turn. Its chunk joins those that are pending, and its worker is
  started. -/
  | serve {s : Traffic State} {first : Waiter} {rest : List Waiter} {pending : List String}
      (free : s.turn = none) (queue : s.queue = first :: rest)
      (joined : pending = s.pending ++ [first.chunk]) :
      Step engine config s (.served first.number)
        { s.setWorker first.number (.new (Session.joinChunks pending) s.outputLimit) with
          queue := rest, turn := some ⟨first.number, first.timeout, false⟩, pending }
  | work {s : Traffic State} (number : Nat) {w w' : Worker} {act : Act} {slot : LockedSlot State}
      (worker : s.workers number = some w) (step : Worker.Step engine number s.slot w act slot w') :
      Step engine config s (.worked number act) { s.setWorker number w' with slot }
  /-- The deadline passes, if there is one, and the worker is cancelled. -/
  | cancel {s : Traffic State} {turn : Turn} {w : Worker} (current : s.turn = some turn)
      (due : turn.overdue = false) (limited : (config.deadline turn.timeout).isSome = true)
      (worker : s.workers turn.number = some w) :
      Step engine config s (.cancelled turn.number)
        { s.setWorker turn.number { w with cancelled := true } with
          turn := some { turn with overdue := true } }
  /-- The worker was done before the deadline. -/
  | answer {s : Traffic State} {turn : Turn} {w : Worker} {ending : Ending} {outcome : Outcome}
      {pending : List String} (current : s.turn = some turn) (due : turn.overdue = false)
      (worker : s.workers turn.number = some w) (done : w.phase = .done ending)
      (settled : Supervisor.settle ending w.output s.pending = some (outcome, pending)) :
      Step engine config s (.answered turn.number outcome) { s with turn := none, pending }
  /-- The worker stopped within the grace period. -/
  | stop {s : Traffic State} {turn : Turn} {w : Worker} {ending : Ending}
      (current : s.turn = some turn) (overdue : turn.overdue = true)
      (worker : s.workers turn.number = some w) (done : w.phase = .done ending) :
      Step engine config s (.answered turn.number .timedOut)
        { s with turn := none, pending := config.timeoutPolicy.apply s.pending }
  /-- The grace period is over, and the worker is left behind. -/
  | abandon {s : Traffic State} {turn : Turn} (current : s.turn = some turn)
      (overdue : turn.overdue = true) :
      Step engine config s (.answered turn.number .probablyTimedOut)
        { s with turn := none, pending := config.timeoutPolicy.apply s.pending }

/-- What may happen in a session from some state on, and the state that it leads to. -/
inductive Run (engine : Engine Shared State) (config : SupervisorConfig) (start : Traffic State) :
    List Move → Traffic State → Prop
  | nil : Run engine config start [] start
  | snoc {moves : List Move} {move : Move} {s t : Traffic State}
      (run : Run engine config start moves s) (step : Step engine config s move t) :
      Run engine config start (moves ++ [move]) t

/-- A worker is inside an evaluation, of the prelude or of its source. -/
def Evaluates (s : Traffic State) (number : Nat) : Prop :=
  ∃ (w : Worker) (part : Part), s.workers number = some w ∧ w.phase = .evaluating part

end Traffic

/-- The requests that have arrived, in order. -/
def arrivals (moves : List Move) : List Nat :=
  moves.filterMap fun
    | .arrived number => some number
    | _ => none

/-- The requests whose source has come to be evaluated, in order. -/
def starts (moves : List Move) : List Nat :=
  moves.filterMap fun
    | .worked number (.called .source _) => some number
    | _ => none

/-- The requests that have been answered, with their answers, in order. -/
def answers (moves : List Move) : List (Nat × Outcome) :=
  moves.filterMap fun
    | .answered number outcome => some (number, outcome)
    | _ => none

/-- The texts that the worker of a request has written, in order. -/
def written (number : Nat) (moves : List Move) : List String :=
  moves.filterMap fun
    | .worked other (.wrote text) => if other = number then some text else none
    | _ => none

end ReplDaemon
