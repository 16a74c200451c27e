import ReplDaemon.Engine.Script
import ReplDaemon.Registry
import ReplDaemon.Supervisor
import ReplDaemon.Text.Blank

/-!
# The evaluation service

What every connection talks to: it maps a request to a response. Blank code is answered at once and
touches nothing. Any other code goes to the session of its key or, in the legacy protocol, to the one
session there is.
-/

namespace ReplDaemon

/-- A service: its engine and settings, the sessions, what they share, and the time. -/
structure Service (Shared State : Type) where
  engine : Engine Shared State
  config : DaemonConfig
  registry : Registry State
  shared : Shared
  clock : Instant

namespace Service

variable {Shared State : Type}

/-- A service before its first request. -/
def start (engine : Engine Shared State) (config : DaemonConfig) (shared : Shared) :
    Service Shared State where
  engine
  config
  registry := .empty
  shared
  clock := 0

/-- The service of the engine that is configured. -/
def ofConfig (config : DaemonConfig) : Service Unit Script.Bindings :=
  match config.engine.kind with
  | .script =>
    start (Script.engine (config.engine.prelude.getD Script.defaultPrelude)) config ()

/-- The key of the only session of the legacy protocol. -/
def legacyKey : String := ""

/-- The key of the session that a request goes to. -/
def keyOf (s : Service Shared State) (key : String) : String :=
  match s.config.protocol with
  | .keyed => key
  | .legacy => legacyKey

/-- A reference to the session of a key. Time passes, so that no two uses are at the same instant. -/
def acquire (s : Service Shared State) (key : String) :
    Except EngineError (Reference × Service Shared State) := do
  let (reference, registry) ← s.registry.acquire s.config.registry s.engine.newSession
    s.config.supervisor.maxOutputBytes key s.clock
  return (reference, { s with registry, clock := s.clock + 1 })

/-- How an outcome is answered. -/
def responseOf (o : Outcome) : Response where
  success := o.isFinished
  text := o.text

/-- The response to code that is blank. -/
def blankResponse : Response where
  success := true
  text := ""

/-- The response where no session can be made. -/
def refusal (e : EngineError) : Response where
  success := false
  text := "internal error: " ++ e.message

/-- Evaluates a request at some time in the session that a reference is to, and lets the reference
go. The answer comes with the time at which it is given. -/
def evaluate (s : Service Shared State) (reference : Reference) (request : Request)
    (now : Instant) : Option (Response × Instant) × Service Shared State :=
  match s.registry.sessions.find? (·.identity == reference.identity) with
  | none => (none, s)
  | some session =>
    let r := Supervisor.run s.engine s.config.supervisor s.shared session request.code
      request.timeout now
    let registry := (s.registry.update r.session).unhold reference
    (r.outcome.map fun o => (responseOf o, r.now), { s with registry, shared := r.shared })

/-- Handles a request. There is no response if the evaluation never ends and nothing limits it. -/
def handle (s : Service Shared State) (request : Request) :
    Option Response × Service Shared State :=
  if Text.isBlankText request.code then (some blankResponse, s)
  else match s.acquire (s.keyOf request.key) with
    | .error e => (some (refusal e), s)
    | .ok (reference, s) =>
      match s.evaluate reference request s.clock with
      | (some (response, now), s) => (some response, { s with clock := now + 1 })
      | (none, s) => (none, s)

/-- A request of a batch: answered already, or waiting in a session. -/
inductive Ticket where
  | answered (response : Response)
  | waiting (reference : Reference) (request : Request)

/-- Accepts the requests of a batch in turn: those that need a session get hold of it. -/
def accept (s : Service Shared State) : List Request → List Ticket × Service Shared State
  | [] => ([], s)
  | request :: rest =>
    if Text.isBlankText request.code then
      let (tickets, s) := s.accept rest
      (.answered blankResponse :: tickets, s)
    else match s.acquire (s.keyOf request.key) with
      | .error e =>
        let (tickets, s) := s.accept rest
        (.answered (refusal e) :: tickets, s)
      | .ok (reference, s) =>
        let (tickets, s) := s.accept rest
        (.waiting reference request :: tickets, s)

/-- Serves what waits, in order. A session serves one request after the other; different sessions do
not wait for each other. `served` holds the time of the last answer of each session. -/
def serve (s : Service Shared State) (issued : Instant) (served : List (Nat × Instant)) :
    List Ticket → Option (List Response) × Instant × Service Shared State
  | [] => (some [], issued, s)
  | .answered response :: rest =>
    let (responses, last, s) := s.serve issued served rest
    (responses.map (response :: ·), last, s)
  | .waiting reference request :: rest =>
    let start := (served.lookup reference.identity).getD issued
    match s.evaluate reference request start with
    | (none, s) => (none, issued, s)
    | (some (response, now), s) =>
      let (responses, last, s) := s.serve issued ((reference.identity, now) :: served) rest
      (responses.map (response :: ·), max last now, s)

/-- Handles requests that are issued all at once and awaited together. -/
def handleAll (s : Service Shared State) (requests : List Request) :
    Option (List Response) × Service Shared State :=
  let (tickets, s) := s.accept requests
  let (responses, last, s) := s.serve s.clock [] tickets
  (responses, { s with clock := last + 1 })

/-- The chunks that wait in the session that a key means, if there is such a session. -/
def pending? (s : Service Shared State) (key : String) : Option (List String) :=
  (s.registry.find? (s.keyOf key)).map (·.pending)

/-- Gets hold of the session of a key; the answer tells whether it is the session that was held under
this key last. -/
def hold (s : Service Shared State) (key : String) :
    Except EngineError (Bool × Service Shared State) := do
  let before := s.registry.heldLast? key
  let (reference, s) ← s.acquire key
  return (before == some reference, s)

/-- Lets go of all references under a key; the answer is how many. -/
def release (s : Service Shared State) (key : String) : Nat × Service Shared State :=
  let (count, registry) := s.registry.release key
  (count, { s with registry })

/-- Takes the session of a key out; the answer tells whether there was one. -/
def remove (s : Service Shared State) (key : String) : Bool × Service Shared State :=
  let (found, registry) := s.registry.remove key
  (found, { s with registry })

/-- Sweeps once; the answer is how many sessions were dropped. -/
def sweep (s : Service Shared State) : Nat × Service Shared State :=
  let (count, registry) := s.registry.sweep s.config.registry s.clock
  (count, { s with registry })

/-- Lets the sweeper run for some milliseconds; the answer tells whether there is one. It sweeps at
the end of every interval. Nothing is used meanwhile, so the last sweep decides. -/
def runSweeper (s : Service Shared State) (time : Nat) : Bool × Service Shared State :=
  let config := s.config.registry
  let after := s.clock + time * millisecond
  if config.idleTtl.isNone then (false, { s with clock := after })
  else
    let sweeps := time / config.sweepInterval
    let last := s.clock + sweeps * config.sweepInterval * millisecond
    let registry := if sweeps = 0 then s.registry else (s.registry.sweep config last).2
    (true, { s with registry, clock := after })

end Service

end ReplDaemon
