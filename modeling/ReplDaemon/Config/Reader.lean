import ReplDaemon.Config.Basic
import ReplDaemon.Json.Reader

/-!
# Reading configurations

A configuration is written as JSON. A group of settings is an object, whose unknown fields are ignored
and whose known ones may come once each, or an array of the settings in order; what is left out has
its default. Integers are written without point and exponent, and `null` stands only for an optional
setting that is not made.
-/

namespace ReplDaemon

namespace Config

/-- The settings of a group, by position: the value given for each name. -/
def settings (names : List String) : Json → Option (List (Option Json))
  | .array items =>
    if items.length ≤ names.length then
      some (items.map some ++ List.replicate (names.length - items.length) none)
    else none
  | .object fields =>
    let given (name : String) := fields.filter fun f => f.1 == some name
    if fields.all (fun f => f.1.isSome) && names.all (fun name => (given name).length ≤ 1) then
      some (names.map fun name => fields.lookup (some name))
    else none
  | _ => none

/-- A setting with a default. -/
def setting {α : Type} (read : Json → Option α) (default : α) : Option Json → Option α
  | none => some default
  | some v => read v

/-- A setting that need not be made. -/
def optional {α : Type} (read : Json → Option α) : Json → Option (Option α)
  | .null => some none
  | v => (read v).map some

/-- A number of 64 bits. -/
def number (v : Json) : Option Nat := do
  let n ← v.nat?
  if n < UInt64.size then some n else none

/-- A choice by name: the name alone, or as the only field of an object, with nothing in it. -/
def choice {α : Type} (ofText? : String → Option α) : Json → Option α
  | .string s => s.bind ofText?
  | .object [(some name, .null)] => ofText? name
  | _ => none

/-- Several texts. -/
def texts (v : Json) : Option (List String) := do
  (← v.items?).mapM Json.text?

/-- Settings of the frames. -/
def codec (v : Json) : Option CodecConfig := do
  let d : CodecConfig := {}
  match ← settings ["max_frame_len"] v with
  | [length] => return { maxFrameLength := ← setting number d.maxFrameLength length }
  | _ => none

/-- Settings of the engine. -/
def engine (v : Json) : Option EngineConfig := do
  let d : EngineConfig := {}
  match ← settings ["kind", "prelude"] v with
  | [kind, prelude] =>
    return { kind := ← setting (choice EngineKind.ofText?) d.kind kind
             prelude := ← setting (optional texts) d.prelude prelude }
  | _ => none

/-- Settings of the supervision. -/
def supervisor (v : Json) : Option SupervisorConfig := do
  let d : SupervisorConfig := {}
  match ← settings ["cancel_grace", "timeout_policy", "timeout_cap", "max_output_bytes"] v with
  | [grace, policy, cap, bytes] =>
    return { cancelGrace := ← setting number d.cancelGrace grace
             timeoutPolicy := ← setting (choice TimeoutPolicy.ofText?) d.timeoutPolicy policy
             timeoutCap := ← setting (optional number) d.timeoutCap cap
             maxOutputBytes := ← setting number d.maxOutputBytes bytes }
  | _ => none

/-- Settings of the registry. -/
def registry (v : Json) : Option RegistryConfig := do
  let d : RegistryConfig := {}
  match ← settings ["max_sessions", "idle_ttl", "sweep_interval"] v with
  | [sessions, ttl, interval] =>
    return { maxSessions := ← setting (optional number) d.maxSessions sessions
             idleTtl := ← setting (optional number) d.idleTtl ttl
             sweepInterval := ← setting number d.sweepInterval interval }
  | _ => none

/-- All settings. -/
def daemon (v : Json) : Option DaemonConfig := do
  match ← settings ["protocol", "codec", "engine", "supervisor", "registry"] v with
  | [protocol, frames, kind, supervision, sessions] =>
    return { protocol := ← setting (choice Protocol.ofText?) .keyed protocol
             codec := ← setting codec {} frames
             engine := ← setting engine {} kind
             supervisor := ← setting supervisor {} supervision
             registry := ← setting registry {} sessions }
  | _ => none

end Config

/-- The configuration that some bytes spell. -/
def DaemonConfig.read (bytes : Text.Bytes) : Except ConfigError DaemonConfig :=
  match (Json.read bytes).bind Config.daemon with
  | some c => .ok c
  | none => .error (.ungrammatical "not a configuration")

end ReplDaemon
