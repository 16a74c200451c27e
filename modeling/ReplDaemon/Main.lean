import ReplDaemon.Program.Client
import ReplDaemon.Program.Daemon

/-!
# The executable

The daemon over its standard streams, which answers requests as they come in; or, behind the word
`client`, the client, which talks to a daemon of its own inside the same process.
-/

namespace ReplDaemon.Program

open CommandLine Text

/-- Writes bytes. -/
def writeBytes (output : IO.FS.Stream) (bytes : Bytes) : IO Unit := do
  output.write ⟨bytes.toArray⟩
  output.flush

/-- What a file holds. -/
def readFile (path : String) : IO FileContent := do
  try return .bytes (← IO.FS.readBinFile path).data.toList
  catch _ => return .missing

/-- What the file of an option holds, if there is one. -/
def readFiles (path? : Option String) : IO (String → FileContent) := do
  let content ← match path? with
    | some path => readFile path
    | none => pure .missing
  return fun _ => content

/-- The variables that are looked at. -/
def readEnvironment : IO Environment :=
  [socketVariable, configVariable].filterMapM fun name => do
    return (← IO.getEnv name).map fun value => (name, value)

/-- Writes to the standard error. -/
def complain (text : String) : IO Unit := do
  (← IO.getStderr).putStr text

/-- How the executable is called. -/
def usageText : String := "Usage: repl-daemon --stdio [OPTIONS]\n       repl-daemon client COMMAND\n"

/-- Ends where a command line does not lead to a run. -/
def refuse (r : Refusal) : IO UInt32 := do
  complain usageText
  return .ofNat r.status

/-- Ends with a server's error. -/
def fail (e : ServerError) : IO UInt32 := do
  complain (failureText e.causes)
  return 1

/-- Answers what comes in until the input ends or holds something that is not a request. -/
partial def serveInput {σ : Type} (input output : IO.FS.Stream) (r : Responder σ) (c : Connection)
    (s : σ) : IO (Option DaemonError) := do
  let chunk := (← input.read 8192).data.toList
  let (c, s) := if chunk.isEmpty then c.finish r s else c.receive r s chunk
  writeBytes output c.answered
  match c.error with
  | some e => return some (.ofFrameError e)
  | none =>
    if chunk.isEmpty then return none
    serveInput input output r { c with answered := [] } s

/-- Serves the standard streams. -/
def serveStreams (a : DaemonArguments) : IO UInt32 := do
  match (a.daemonConfig (← readFiles a.config)).bind Server.start with
  | .error e => fail e
  | .ok service =>
    match ← serveInput (← IO.getStdin) (← IO.getStdout) service.responder .start service with
    | some e => fail (.stdio e)
    | none => return 0

/-- Runs the daemon. -/
def daemonMain (words : List String) : IO UInt32 := do
  match DaemonArguments.read (← readEnvironment) words with
  | .error r => refuse r
  | .ok a =>
    if a.transport = .stdio then serveStreams a
    else
      complain s!"Error: no connections over {a.transport.text}; use --stdio\n"
      return 1

/-- All bytes of an input, behind some that were read. -/
partial def readAll (input : IO.FS.Stream) (found : ByteArray) : IO ByteArray := do
  let chunk ← input.read 8192
  if chunk.isEmpty then return found
  readAll input (found ++ chunk)

/-- The file and the input that a client reads its program from. -/
def readSources (a : ClientArguments) : IO ((String → FileContent) × Bytes) := do
  match a.activity with
  | .eval (some _) _ => return (fun _ => .missing, [])
  | .eval none (some path) => return (← readFiles (some path), [])
  | .eval none none | .repl =>
    return (fun _ => .missing, (← readAll (← IO.getStdin) .empty).data.toList)

/-- Runs the client. -/
def clientMain (words : List String) : IO UInt32 := do
  match ClientArguments.read (← readEnvironment) words with
  | .error r => refuse r
  | .ok a =>
    let (files, input) ← readSources a
    let (run, _) := runClient a files input (.ok (.ofConfig { protocol := a.protocol }))
    writeBytes (← IO.getStdout) (encode run.output)
    complain run.complaint
    return .ofNat run.status

end ReplDaemon.Program

/-- Runs the client or the daemon with the words of the command line. -/
def main : List String → IO UInt32
  | "client" :: words => ReplDaemon.Program.clientMain words
  | words => ReplDaemon.Program.daemonMain words
