import ReplDaemon.Text.Utf8

/-!
# Requests and responses

What travels between a client and the daemon, in either of two protocols: the keyed one, with a
session for every key, and the legacy one, with a single session and a flag in its responses.
-/

namespace ReplDaemon

/-- The protocols. -/
inductive Protocol where
  | keyed
  | legacy
  deriving Repr, DecidableEq

/-- The name of a protocol. -/
def Protocol.text : Protocol → String
  | .keyed => "keyed"
  | .legacy => "legacy"

/-- The protocol with a given name. -/
def Protocol.ofText? : String → Option Protocol
  | "keyed" => some .keyed
  | "legacy" => some .legacy
  | _ => none

/-- A request to evaluate code in the session of a key, within some milliseconds or, if the time is
0, without a limit. -/
structure Request where
  timeout : UInt32
  key : String
  code : String
  deriving Repr, DecidableEq

/-- The answer to a request. -/
structure Response where
  success : Bool
  text : String
  deriving Repr, DecidableEq

/-- Why bytes are not a frame: what they hold makes no sense, they announce more than is allowed, or
they cannot be read. -/
inductive FrameError where
  | unexpectedFlag (flag : UInt8)
  | malformed (reason : String)
  | tooLarge (declared limit : Nat)
  | io (reason : String)
  deriving Repr, DecidableEq

/-- The wording of a frame error. -/
def FrameError.message : FrameError → String
  | .unexpectedFlag flag => s!"Malformed frame: unexpected success flag {flag.toNat}"
  | .malformed reason => s!"Malformed frame: {reason}"
  | .tooLarge declared limit => s!"Frame too large: declared {declared} bytes, limit {limit}"
  | .io reason => s!"I/O error: {reason}"

/-- What reading says of a stream that ends inside a frame. -/
def FrameError.truncated : FrameError :=
  .io "bytes remaining on stream"

end ReplDaemon
