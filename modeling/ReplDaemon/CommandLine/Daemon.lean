import ReplDaemon.CommandLine.Number
import ReplDaemon.CommandLine.Reader
import ReplDaemon.Config.Reader
import ReplDaemon.Prompt
import ReplDaemon.Server

/-!
# The command line of the daemon

It chooses a transport and a configuration file; three options override what that file says.
-/

namespace ReplDaemon.CommandLine

/-- The path of the socket unless another one is given. -/
def defaultSocket : String := "/tmp/evald.sock"

/-- The variable that gives the path of the socket. -/
def socketVariable : String := "EVALD_SOCKET"

/-- The variable that gives the path of the configuration file. -/
def configVariable : String := "EVALD_CONFIG"

/-- The file descriptors. -/
def descriptor? (s : String) : Option Int :=
  integer? Int32.minValue.toInt Int32.maxValue.toInt s

/-- The path of a socket. -/
def socketOption : Opt :=
  { Opt.value "socket" (some 's') isPath with fallback := some socketVariable }

/-- A protocol. -/
def protocolOption : Opt :=
  .value "protocol" (some 'p') fun s => (Protocol.ofText? s).isSome

/-- What the daemon understands. -/
def daemonCommand : Command where
  options := [
    socketOption,
    .value "listen-fd" none fun s => (descriptor? s).isSome,
    .flag "stdio" none,
    { Opt.value "config" (some 'c') isPath with fallback := some configVariable },
    protocolOption,
    .value "timeout-policy" none fun s => (TimeoutPolicy.ofText? s).isSome,
    .value "timeout-cap-ms" none fun s => (natural? s).isSome,
    .value "log-level" (some 'l') anyText,
    .help,
    .version]
  arguments := 0
  commands := []

/-- What is chosen on the command line of the daemon. -/
structure DaemonArguments where
  transport : Transport
  config : Option String
  protocol : Option Protocol
  timeoutPolicy : Option TimeoutPolicy
  timeoutCap : Option Nat
  logLevel : String
  deriving Repr, DecidableEq

namespace DaemonArguments

/-- The choices of a command line. The standard streams go before an inherited descriptor, and that
before a socket. -/
def ofLine (environment : Environment) (line : Line) : DaemonArguments where
  transport :=
    if line.flag "stdio" then .stdio
    else match (line.value? "listen-fd").bind descriptor? with
      | some descriptor => .inherited descriptor
      | none =>
        .socket (((line.value? "socket").or (environment.lookup socketVariable)).getD
          defaultSocket)
  config := (line.value? "config").or (environment.lookup configVariable)
  protocol := (line.value? "protocol").bind Protocol.ofText?
  timeoutPolicy := (line.value? "timeout-policy").bind TimeoutPolicy.ofText?
  timeoutCap := (line.value? "timeout-cap-ms").bind natural?
  logLevel := (line.value? "log-level").getD "info"

/-- Reads the command line of the daemon. -/
def read (environment : Environment) (words : List String) : Except Refusal DaemonArguments :=
  (CommandLine.read environment daemonCommand words).map (ofLine environment)

/-- A configuration with what the command line overrides. -/
def override (a : DaemonArguments) (c : DaemonConfig) : DaemonConfig :=
  { c with
    protocol := a.protocol.getD c.protocol
    supervisor :=
      { c.supervisor with
        timeoutPolicy := a.timeoutPolicy.getD c.supervisor.timeoutPolicy
        timeoutCap := a.timeoutCap.or c.supervisor.timeoutCap } }

end DaemonArguments

/-- The configuration in a file. -/
def configIn (content : FileContent) : Except ConfigError DaemonConfig :=
  match content with
  | .missing => .error (.unreadable SystemError.notFound.message)
  | .directory => .error (.ungrammatical SystemError.isDirectory.message)
  | .bytes bytes => do (← DaemonConfig.read bytes).check

/-- The configuration that the daemon runs with, given what the files hold. -/
def DaemonArguments.daemonConfig (a : DaemonArguments) (files : String → FileContent) :
    Except ServerError DaemonConfig :=
  match a.config with
  | none => .ok (a.override {})
  | some path =>
    match configIn (files path) with
    | .ok c => .ok (a.override c)
    | .error e => .error (.load path e)

end ReplDaemon.CommandLine
