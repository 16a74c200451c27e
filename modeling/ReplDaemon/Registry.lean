import ReplDaemon.Config.Basic
import ReplDaemon.Session

/-!
# The registry of sessions

The registry owns the sessions, one for each key, and makes them on first use. It may be told to drop
sessions again: the ones used longest ago when there are too many, and, in a sweep, all that have been
unused for some time. A session to which someone outside holds a reference is not dropped. A session
that was removed can live on in such a reference, while its key gets a new one.
-/

namespace ReplDaemon

/-- A reference to a session, held outside the registry. -/
structure Reference where
  key : String
  identity : Nat
  deriving Repr, DecidableEq

/-- The registered sessions, the references held to sessions, last one first, and the number of
sessions made so far, which names the next one. -/
structure Registry (State : Type) where
  sessions : List (Session State)
  held : List Reference
  made : Nat

namespace Registry

variable {State : Type}

/-- A registry without sessions. -/
def empty : Registry State where
  sessions := []
  held := []
  made := 0

/-- The session of a key. -/
def find? (r : Registry State) (key : String) : Option (Session State) :=
  r.sessions.find? (·.key == key)

/-- Whether a key has a session. -/
def contains (r : Registry State) (key : String) : Bool :=
  (r.find? key).isSome

/-- The number of sessions. -/
def size (r : Registry State) : Nat :=
  r.sessions.length

/-- The keys that have sessions, in the order in which these were made. -/
def keys (r : Registry State) : List String :=
  r.sessions.map (·.key)

/-- Whether nobody outside the registry refers to a session. -/
def isIdle (r : Registry State) (s : Session State) : Bool :=
  r.held.all fun reference => reference.identity != s.identity

/-- Takes a session out by its identity. -/
def erase (r : Registry State) (identity : Nat) : Registry State :=
  { r with sessions := r.sessions.filter (·.identity != identity) }

/-- Takes the session of a key out; the answer tells whether there was one. -/
def remove (r : Registry State) (key : String) : Bool × Registry State :=
  (r.contains key, { r with sessions := r.sessions.filter (·.key != key) })

/-- Puts a session in the place of the one with the same identity, if that is still registered. -/
def update (r : Registry State) (s : Session State) : Registry State :=
  { r with sessions := r.sessions.map fun t => if t.identity == s.identity then s else t }

/-- Holds a reference. -/
def hold (r : Registry State) (reference : Reference) : Registry State :=
  { r with held := reference :: r.held }

/-- Lets one reference go. -/
def unhold (r : Registry State) (reference : Reference) : Registry State :=
  { r with held := r.held.erase reference }

/-- The reference to a key's session that was taken last. -/
def heldLast? (r : Registry State) (key : String) : Option Reference :=
  r.held.find? (·.key == key)

/-- Lets all references under a key go; the answer is how many there were. -/
def release (r : Registry State) (key : String) : Nat × Registry State :=
  ((r.held.filter (·.key == key)).length, { r with held := r.held.filter (·.key != key) })

/-- The session used longest ago. -/
def oldest? : List (Session State) → Option (Session State)
  | [] => none
  | s :: rest =>
    match oldest? rest with
    | some t => if t.lastUsed < s.lastUsed then some t else some s
    | none => some s

/-- Drops idle sessions, the ones used longest ago first, until at most `most` sessions are left or
none is idle; every round drops one. -/
def evict (most : Nat) : (rounds : Nat) → Registry State → Registry State
  | 0, r => r
  | rounds + 1, r =>
    if r.size ≤ most then r
    else match oldest? (r.sessions.filter r.isIdle) with
      | some s => evict most rounds (r.erase s.identity)
      | none => r

/-- Drops sessions for as long as there are more than allowed. -/
def enforceCapacity (config : RegistryConfig) (r : Registry State) : Registry State :=
  match config.maxSessions with
  | none => r
  | some most => evict most r.size r

/-- A reference to the session of a key, which is made if there is none; making it may push others
out. The caller holds the reference. -/
def acquire (r : Registry State) (config : RegistryConfig)
    (newSession : Except EngineError State) (outputLimit : Nat) (key : String) (now : Instant) :
    Except EngineError (Reference × Registry State) :=
  match r.find? key with
  | some s =>
    let reference := ⟨key, s.identity⟩
    .ok (reference, (r.update (s.touch now)).hold reference)
  | none => do
    let state ← newSession
    let reference := ⟨key, r.made⟩
    let s := Session.new key r.made state outputLimit now
    let r := { r with sessions := r.sessions ++ [s], made := r.made + 1 }
    return (reference, (r.hold reference).enforceCapacity config)

/-- Drops the idle sessions that have been unused for the configured time; the answer is how many. -/
def sweep (r : Registry State) (config : RegistryConfig) (now : Instant) : Nat × Registry State :=
  match config.idleTtl with
  | none => (0, r)
  | some ttl =>
    let kept := r.sessions.filter fun s => !r.isIdle s || now - s.lastUsed < ttl * millisecond
    (r.size - kept.length, { r with sessions := kept })

end Registry

end ReplDaemon
