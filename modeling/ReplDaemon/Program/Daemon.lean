import ReplDaemon.CommandLine.Daemon

/-!
# The daemon as a program

A run of the daemon: from its command line, the files and its input, or the connections made to it, to
what it writes and its exit status.
-/

namespace ReplDaemon.Program

open CommandLine Text

/-- The text of a failure: what happened, and below it what is behind that, numbered if there is more
than one thing. -/
def failureText : List String → String
  | [] => "Error: \n"
  | e :: [] => s!"Error: {e}\n"
  | e :: [cause] => s!"Error: {e}\n\nCaused by:\n    {cause}\n"
  | e :: causes =>
    let lines := causes.zipIdx.map fun (cause, i) => s!"    {i}: {cause}\n"
    s!"Error: {e}\n\nCaused by:\n" ++ String.join lines

/-- What a run over the standard streams comes to. -/
structure DaemonRun where
  status : Nat
  output : Bytes
  /-- What is said of a failure. -/
  complaint : String

/-- A run that ends with an error. -/
def DaemonRun.failure (output : Bytes) (e : ServerError) : DaemonRun where
  status := 1
  output
  complaint := failureText e.causes

/-- Runs the daemon over the standard streams. -/
def runStdio (a : DaemonArguments) (files : String → FileContent) (input : Bytes) : DaemonRun :=
  match (a.daemonConfig files).bind Server.start with
  | .error e => .failure [] e
  | .ok service =>
    match Server.serveStdio service.responder service input with
    | (output, some e) => .failure output e
    | (output, none) => { status := 0, output, complaint := "" }

/-- What a run comes to that listens until it is interrupted. -/
structure ListeningRun where
  status : Nat
  received : List Server.Received
  complaint : String
  socketRemoved : Bool

/-- Runs the daemon until it is interrupted; meanwhile some connect to it. -/
def runListening (a : DaemonArguments) (files : String → FileContent) (occupant : Occupant)
    (descriptorOpen : Bool) (peers : List Server.Peer) : ListeningRun :=
  let service := do Server.listen (← a.daemonConfig files) a.transport occupant descriptorOpen
  match service with
  | .error e =>
    { status := 1, received := [], complaint := failureText e.causes, socketRemoved := false }
  | .ok service =>
    { status := 0, received := Server.serveAll service.responder service peers, complaint := ""
      socketRemoved := Server.ownsSocket a.transport }

end ReplDaemon.Program
