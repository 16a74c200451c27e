import ReplDaemon.Config.Basic
import ReplDaemon.Engine.Basic

/-!
# Errors of the daemon and its clients
-/

namespace ReplDaemon

/-- What can go wrong between the daemon and those it talks to. -/
inductive DaemonError where
  | frame (e : FrameError)
  | engine (e : EngineError)
  | config (e : ConfigError)
  | io (reason : String)
  | connectionClosed
  | internal (message : String)
  deriving Repr, DecidableEq

/-- The wording of an error. -/
def DaemonError.message : DaemonError → String
  | .frame e => s!"Frame error: {e.message}"
  | .engine e => s!"Engine error: {e.message}"
  | .config e => s!"Config error: {e.message}"
  | .io reason => s!"I/O error: {reason}"
  | .connectionClosed => "Connection closed"
  | .internal message => s!"Internal error: {message}"

/-- The error of a side that only reads requests: a stream that cannot be read is no frame. -/
def DaemonError.ofFrameError : FrameError → DaemonError
  | .io reason => .io reason
  | e => .frame e

/-- What the operating system refuses. -/
inductive SystemError where
  | notFound
  | badDescriptor
  | isDirectory
  | brokenPipe
  | connectionRefused
  deriving Repr, DecidableEq

/-- The wording of a refusal, with its number. -/
def SystemError.message : SystemError → String
  | .notFound => "No such file or directory (os error 2)"
  | .badDescriptor => "Bad file descriptor (os error 9)"
  | .isDirectory => "Is a directory (os error 21)"
  | .brokenPipe => "Broken pipe (os error 32)"
  | .connectionRefused => "Connection refused (os error 111)"

/-- A frame error, and what is behind it. -/
def FrameError.causes (e : FrameError) : List String :=
  match e with
  | .io reason => [e.message, reason]
  | _ => [e.message]

/-- A configuration error, and what is behind it. -/
def ConfigError.causes (e : ConfigError) : List String :=
  match e with
  | .unreadable reason | .ungrammatical reason => [e.message, reason]
  | .invalid _ => [e.message]

/-- An error, and what is behind it. -/
def DaemonError.causes (e : DaemonError) : List String :=
  match e with
  | .frame inner => e.message :: inner.causes
  | .engine inner => [e.message, inner.message]
  | .config inner => e.message :: inner.causes
  | .io reason => [e.message, reason]
  | .connectionClosed | .internal _ => [e.message]

/-- Why a client has no text to read. -/
inductive ReadFailure where
  | system (e : SystemError)
  | invalidText (reason : String)
  deriving Repr, DecidableEq

/-- The wording of a failure to read. -/
def ReadFailure.message : ReadFailure → String
  | .system e => e.message
  | .invalidText reason => reason

/-- What can go wrong in a client. -/
inductive ClientError where
  | daemon (e : DaemonError)
  | io (e : ReadFailure)
  | noCode
  deriving Repr, DecidableEq

/-- The wording of a client's error. -/
def ClientError.message : ClientError → String
  | .daemon e => s!"daemon request failed: {e.message}"
  | .io e => s!"I/O error: {e.message}"
  | .noCode => "no code given"

end ReplDaemon
