import ReplDaemon.Frame.Basic

/-!
# Configuration

What can be set about the daemon. Times are in milliseconds.
-/

namespace ReplDaemon

/-- The engines that can be chosen. -/
inductive EngineKind where
  | script
  deriving Repr, DecidableEq

/-- The name of an engine. -/
def EngineKind.text : EngineKind → String
  | .script => "script"

/-- The engine with a given name. -/
def EngineKind.ofText? : String → Option EngineKind
  | "script" => some .script
  | _ => none

/-- What becomes of source that waits for its statement to be completed when an evaluation times
out: it is discarded, or only the last chunk is. -/
inductive TimeoutPolicy where
  | discard
  | preserve
  deriving Repr, DecidableEq

/-- The name of a policy. -/
def TimeoutPolicy.text : TimeoutPolicy → String
  | .discard => "discard"
  | .preserve => "preserve"

/-- The policy with a given name. -/
def TimeoutPolicy.ofText? : String → Option TimeoutPolicy
  | "discard" => some .discard
  | "preserve" => some .preserve
  | _ => none

/-- Settings of the frames: how many bytes of payload one may announce. -/
structure CodecConfig where
  maxFrameLength : Nat := 1048576
  deriving Repr, DecidableEq

/-- Settings of the engine. Without a prelude the engine's own is used. -/
structure EngineConfig where
  kind : EngineKind := .script
  prelude : Option (List String) := none
  deriving Repr, DecidableEq

/-- Settings of the supervision of evaluations. -/
structure SupervisorConfig where
  /-- How long a cancelled evaluation may take to stop before it is given up. -/
  cancelGrace : Nat := 500
  timeoutPolicy : TimeoutPolicy := .discard
  /-- An upper bound for every deadline, also where a request sets none. -/
  timeoutCap : Option Nat := none
  maxOutputBytes : Nat := 1048576
  deriving Repr, DecidableEq

/-- Settings of the registry of sessions. -/
structure RegistryConfig where
  /-- Above this number the sessions used longest ago are dropped. -/
  maxSessions : Option Nat := none
  /-- Sessions unused for this long are dropped by a sweep. -/
  idleTtl : Option Nat := none
  sweepInterval : Nat := 60000
  deriving Repr, DecidableEq

/-- All settings of the daemon. -/
structure DaemonConfig where
  protocol : Protocol := .keyed
  codec : CodecConfig := {}
  engine : EngineConfig := {}
  supervisor : SupervisorConfig := {}
  registry : RegistryConfig := {}
  deriving Repr, DecidableEq

/-- Settings that make no sense. -/
inductive InvalidConfig where
  | maxFrameLength
  | maxSessions
  | sweepInterval
  /-- A complaint of someone else than this library. -/
  | other (reason : String)
  deriving Repr, DecidableEq

/-- The wording of a complaint about a setting. -/
def InvalidConfig.message : InvalidConfig → String
  | .maxFrameLength => "codec.max_frame_len must be positive"
  | .maxSessions => "registry.max_sessions must be positive when set"
  | .sweepInterval => "registry.sweep_interval must be positive"
  | .other reason => reason

/-- The first setting that makes no sense. -/
def DaemonConfig.complaint? (c : DaemonConfig) : Option InvalidConfig :=
  if c.codec.maxFrameLength = 0 then some .maxFrameLength
  else if c.registry.maxSessions = some 0 then some .maxSessions
  else if c.registry.sweepInterval = 0 then some .sweepInterval
  else none

/-- Why there is no configuration. -/
inductive ConfigError where
  | unreadable (reason : String)
  | ungrammatical (reason : String)
  | invalid (reason : InvalidConfig)
  deriving Repr, DecidableEq

/-- The wording of a configuration error. -/
def ConfigError.message : ConfigError → String
  | .unreadable reason => s!"Failed to open config file: {reason}"
  | .ungrammatical reason => s!"Failed to parse config: {reason}"
  | .invalid reason => s!"Invalid config: {reason.message}"

/-- A configuration whose settings make sense. -/
def DaemonConfig.check (c : DaemonConfig) : Except ConfigError DaemonConfig :=
  match c.complaint? with
  | some reason => .error (.invalid reason)
  | none => .ok c

end ReplDaemon
