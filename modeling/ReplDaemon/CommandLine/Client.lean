import ReplDaemon.CommandLine.Daemon

/-!
# The command line of the client

The client has two commands: one evaluates a single program, the other is interactive. The options
that tell where and how to reach the daemon can be given before or after the command.
-/

namespace ReplDaemon.CommandLine

/-- The milliseconds after which an evaluation times out. -/
def timeout? (s : String) : Option UInt32 :=
  (integer? 0 (UInt32.size - 1) s).map fun n => .ofNat n.toNat

/-- The options of every command. -/
def commonOptions : List Opt := [
  socketOption,
  protocolOption,
  .value "key" (some 'k') anyText,
  .value "timeout" (some 't') fun s => (timeout? s).isSome,
  .flag "verbose" (some 'v'),
  .help]

/-- The name of the command that evaluates a single program. -/
def evalName : String := "eval"

/-- The name of the interactive command. -/
def replName : String := "repl"

/-- What the client understands. -/
def clientCommand : Command where
  options := commonOptions ++ [.version]
  arguments := 0
  commands := [
    (evalName, {
      options := commonOptions ++ [.value "file" (some 'f') isPath]
      arguments := 1
      commands := [] }),
    (replName, { options := commonOptions, arguments := 0, commands := [] })]

/-- What a client does: it evaluates a program, given as an argument or as the path of a file, or is
interactive. -/
inductive Activity where
  | eval (code file : Option String)
  | repl
  deriving Repr, DecidableEq

/-- What is chosen on the command line of the client. -/
structure ClientArguments where
  socket : String
  protocol : Protocol
  key : String
  timeout : UInt32
  verbose : Bool
  activity : Activity
  deriving Repr, DecidableEq

namespace ClientArguments

/-- The choices of a command line. -/
def ofLine (environment : Environment) (line : Line) : ClientArguments where
  socket :=
    ((line.value? "socket").or (environment.lookup socketVariable)).getD defaultSocket
  protocol := ((line.value? "protocol").bind Protocol.ofText?).getD .keyed
  key := (line.value? "key").getD "default"
  timeout := ((line.value? "timeout").bind timeout?).getD 0
  verbose := line.flag "verbose"
  activity :=
    if line.commands.contains replName then .repl
    else .eval line.argument? (line.value? "file")

/-- Reads the command line of the client. -/
def read (environment : Environment) (words : List String) : Except Refusal ClientArguments :=
  (CommandLine.read environment clientCommand words).map (ofLine environment)

end ClientArguments

end ReplDaemon.CommandLine
