import ReplDaemon.Evaluation.Context
import ReplDaemon.Value.Basic

/-!
# Engines

The daemon evaluates through an engine: something that makes sessions and evaluates source text in
them. An engine may also keep something that its sessions share. Evaluations are functions: the
answer to a source is how it ends, together with everything that is different afterwards.
-/

namespace ReplDaemon

/-- What an evaluation that ends regularly says about a source: that it ran, perhaps with a value,
that it is the beginning of something longer, or that the language reports an error. -/
inductive Evaluation where
  | completed (value : Option Value)
  | incomplete
  | failed (message : String)

/-- What goes wrong with an engine itself. -/
inductive EngineError where
  | cancelled
  | session (reason : String)
  | internal (message : String)
  deriving Repr, DecidableEq

/-- The wording of an engine's error. -/
def EngineError.message : EngineError → String
  | .cancelled => "evaluation cancelled"
  | .session reason => "failed to create session: " ++ reason
  | .internal message => message

/-- How an evaluation ends: with an answer, by breaking down, perhaps with a message, or not at
all. -/
inductive Ending where
  | returned (answer : Except EngineError Evaluation)
  | panicked (message : Option String)
  | endless

/-- What is different after an evaluation. -/
structure Report (Shared Session : Type) where
  ending : Ending
  shared : Shared
  session : Session
  context : Context

/-- An engine, with what its sessions share and the state of one session. -/
structure Engine (Shared Session : Type) where
  name : String
  /-- What every session evaluates before anything else. -/
  prelude : Option String
  newSession : Except EngineError Session
  evaluate : String → Shared → Session → Context → Report Shared Session

end ReplDaemon
