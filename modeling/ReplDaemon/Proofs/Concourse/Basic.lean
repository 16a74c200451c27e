import ReplDaemon.Proofs.Eviction
import ReplDaemon.Proofs.Traffic.Basic

/-!
# A service that is in use

Many may use a service at once. Whoever wants something evaluated gets hold of the session of a key, takes
its reference into the session's queue, and lets go of it when the request is answered; others may hold
references without a request. Meanwhile the sessions are swept now and then, and time passes.

What happens inside of a session is its traffic. The registry knows of a session which key it has, who
refers to it and when it was used last, and it decides by that which ones to drop. A session that has been
dropped lives on as long as something happens in it.
-/

namespace ReplDaemon

variable {Shared State : Type}

/-- The reference to a session. -/
def Session.reference (s : Session State) : Reference :=
  ⟨s.key, s.identity⟩

/-- How many requests are in a session: those in the queue, and the one that has the turn. -/
def Traffic.requests (t : Traffic State) : Nat :=
  t.queue.length + t.turn.toList.length

namespace Registry

/-- The references to the registered sessions. -/
def references (r : Registry State) : List Reference :=
  r.sessions.map (·.reference)

/-- Marks a session as used, if it is still registered. -/
def used (r : Registry State) (identity : Nat) (now : Instant) : Registry State :=
  { r with sessions := r.sessions.map fun s => if s.identity == identity then s.touch now else s }

end Registry

/-- A service in use: the registry, the traffic in each of the sessions made so far, and the time. -/
@[ext]
structure Concourse (State : Type) where
  registry : Registry State
  traffic : Reference → Option (Traffic State)
  clock : Instant

/-- What happens in a service. -/
inductive Event where
  | acquired (reference : Reference)
  | refused (key : String) (error : EngineError)
  | released (reference : Reference)
  | moved (reference : Reference) (move : Move)
  | swept
  | waited (time : Nat)

/-- The references held after an event: whoever acquires a key holds one, and a request lets go of its own
when it is answered. -/
def Event.hold (held : List Reference) : Event → List Reference
  | acquired reference => reference :: held
  | released reference | moved reference (.answered _ _) => held.erase reference
  | refused _ _ | moved _ _ | swept | waited _ => held

namespace Concourse

/-- A service that nobody has used. -/
def start : Concourse State where
  registry := .empty
  traffic _ := none
  clock := 0

/-- The sessions that are registered, by their references. -/
def Registered (s : Concourse State) (reference : Reference) : Prop :=
  reference ∈ s.registry.references

instance (s : Concourse State) (reference : Reference) : Decidable (s.Registered reference) :=
  inferInstanceAs (Decidable (_ ∈ _))

/-- What comes of acquiring a key, if the engine is asked for a new session and this is its answer. -/
def acquire (config : DaemonConfig) (s : Concourse State) (newSession : Except EngineError State)
    (key : String) : Except EngineError (Reference × Registry State) :=
  s.registry.acquire config.registry newSession config.supervisor.maxOutputBytes key s.clock

/-- Someone has acquired a session. If it is new, nothing has happened in it yet. -/
def enter (s : Concourse State) (reference : Reference) (registry : Registry State) :
    Concourse State :=
  { s with
    registry
    traffic := Function.update s.traffic reference
      ((s.traffic reference).or ((registry.find? reference.key).map .ofSession)) }

/-- What the registry notes of a move in a session: that it is used when a request gets the turn and when
it is answered, and that the request then lets go of it. -/
def note (s : Concourse State) (reference : Reference) : Move → Registry State
  | .served _ => s.registry.used reference.identity s.clock
  | .answered _ _ => (s.registry.used reference.identity s.clock).unhold reference
  | .arrived _ | .worked _ _ | .cancelled _ => s.registry

/-- There was a move in a session, which its traffic shows. -/
def proceed (s : Concourse State) (reference : Reference) (move : Move) (t : Traffic State) :
    Concourse State :=
  { s with
    registry := s.note reference move
    traffic := Function.update s.traffic reference (some t) }

/-- Not all references held to a session are those of the requests in it. -/
def Spare (s : Concourse State) (reference : Reference) : Prop :=
  (s.traffic reference).elim 0 Traffic.requests < s.registry.held.count reference

instance (s : Concourse State) (reference : Reference) : Decidable (s.Spare reference) :=
  inferInstanceAs (Decidable (_ < _))

/-- A step of a service in use. Whether the engine can make a session is open each time. -/
inductive Step (engine : Engine Shared State) (config : DaemonConfig) :
    Concourse State → Event → Concourse State → Prop
  | acquire {s : Concourse State} (newSession : Except EngineError State) (key : String)
      {reference : Reference} {registry : Registry State}
      (acquired : s.acquire config newSession key = .ok (reference, registry)) :
      Step engine config s (.acquired reference) (s.enter reference registry)
  | refuse {s : Concourse State} (newSession : Except EngineError State) (key : String)
      {error : EngineError} (refused : s.acquire config newSession key = .error error) :
      Step engine config s (.refused key error) s
  | release {s : Concourse State} (reference : Reference) (spare : s.Spare reference) :
      Step engine config s (.released reference)
        { s with registry := s.registry.unhold reference }
  /-- Anything may happen in a session, but a request comes with a reference of its own. -/
  | move {s : Concourse State} (reference : Reference) {t u : Traffic State} {move : Move}
      (traffic : s.traffic reference = some t) (step : t.Step engine config.supervisor move u)
      (entitled : ∀ number, move = .arrived number → s.Spare reference) :
      Step engine config s (.moved reference move) (s.proceed reference move u)
  | sweep {s : Concourse State} :
      Step engine config s .swept
        { s with registry := (s.registry.sweep config.registry s.clock).2 }
  | wait {s : Concourse State} (time : Nat) :
      Step engine config s (.waited time) { s with clock := s.clock + time }

/-- What may happen in a service from the beginning, and the state that it leads to. -/
inductive Run (engine : Engine Shared State) (config : DaemonConfig) :
    List Event → Concourse State → Prop
  | nil : Run engine config [] start
  | snoc {events : List Event} {event : Event} {s t : Concourse State}
      (run : Run engine config events s) (step : Step engine config s event t) :
      Run engine config (events ++ [event]) t

/-- A session is in use: someone refers to it, or a request has the turn in it. -/
def InUse (s : Concourse State) (reference : Reference) : Prop :=
  reference ∈ s.registry.held ∨ ∃ t, s.traffic reference = some t ∧ t.turn.isSome = true

end Concourse

/-- The references held after some events. -/
def references (events : List Event) : List Reference :=
  events.foldl Event.hold []

/-- The moves in a session, in order. -/
def moves (reference : Reference) (events : List Event) : List Move :=
  events.filterMap fun
    | .moved other move => if other = reference then some move else none
    | _ => none

/-- Requests are handled one at a time, and nobody refers to a session in between. -/
def OneAtATime (events : List Event) : Prop :=
  ∀ (front back : List Event) (reference : Reference),
    events = front ++ .acquired reference :: back → references front = []

end ReplDaemon
