import ReplDaemon.Engine.Basic

/-!
# Sessions

A session keeps an engine's state for one key, together with the source chunks that still wait for
their statement to be completed. The engine's half of it is a slot that only one evaluation can hold
at a time. An evaluation that is given up goes on in the slot until it ends by itself, and whoever
wants the slot has to wait for that.
-/

namespace ReplDaemon

/-- The engine's half of a session. Since an evaluation is computed as soon as it is known when it
starts, the state is the one from `freeAt` on; it is `none` if the slot is never free again. -/
structure Slot (State : Type) where
  state : State
  preludeApplied : Bool
  freeAt : Option Instant

/-- A session. -/
structure Session (State : Type) where
  key : String
  /-- Tells sessions apart that were made for the same key one after the other. -/
  identity : Nat
  /-- The chunks accepted so far for a statement that is not yet complete. -/
  pending : List String
  slot : Slot State
  outputLimit : Nat
  lastUsed : Instant

namespace Session

variable {State : Type}

/-- A new session. -/
def new (key : String) (identity : Nat) (state : State) (outputLimit : Nat) (now : Instant) :
    Session State where
  key
  identity
  pending := []
  slot := { state, preludeApplied := false, freeAt := some 0 }
  outputLimit
  lastUsed := now

/-- Chunks as one source text. -/
def joinChunks (chunks : List String) : String :=
  "\n".intercalate chunks

/-- Marks the session as used. -/
def touch (s : Session State) (now : Instant) : Session State :=
  { s with lastUsed := now }

end Session

end ReplDaemon
