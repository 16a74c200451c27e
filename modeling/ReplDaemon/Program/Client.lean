import ReplDaemon.CommandLine.Client

/-!
# The client as a program

A run of the client: from its command line, the files and its input to what it writes, its exit status
and the state in which it leaves the daemon.
-/

namespace ReplDaemon.Program

open CommandLine Text

/-- What a run of the client comes to. -/
structure ClientRun where
  status : Nat
  output : String
  complaint : String

/-- What is said where the input ends within a statement. -/
def incompleteText : String := "input is incomplete\n"

/-- What is said where there is no program to evaluate. -/
def noCodeText : String :=
  "Error: no code given; pass it as an argument, with --file, or on stdin\n"

/-- A run that ends with an error, behind some output. -/
def ClientRun.failure (output : String) (e : ClientError) : ClientRun :=
  match e with
  | .noCode => { status := 64, output, complaint := noCodeText }
  | e => { status := 1, output, complaint := s!"Error: {e.message}\n" }

/-- A run that ends with a response. Only the legacy protocol tells a failure. -/
def ClientRun.ofResponse (protocol : Protocol) (r : Response) : ClientRun :=
  if isContinuation r then { status := 2, output := "", complaint := incompleteText }
  else
    { status := if protocol = .legacy && !r.success then 1 else 0
      output := displayText r, complaint := "" }

/-- The daemon at the other end: there is none, or one with its service. -/
abbrev Daemon (Shared State : Type) := Except SystemError (Service Shared State)

variable {Shared State : Type}

/-- What a client is told that cannot connect. -/
def connectFailure (e : SystemError) : ClientError :=
  .daemon (.io e.message)

/-- Sends a program to the daemon. -/
def evaluate (a : ClientArguments) (s : Service Shared State) (code : String) :
    ClientRun × Service Shared State :=
  let link := Link.connect s.responder s (.new a.protocol Client.defaultLimit)
  let (answer, link) := link.request { timeout := a.timeout, key := a.key, code }
  let run := match answer with
    | some (.ok response) => .ofResponse a.protocol response
    | some (.error e) => .failure "" (.daemon e)
    | none => .failure "" (.daemon .connectionClosed)
  (run, link.close.2)

/-- Talks to the daemon interactively. -/
def converse (a : ClientArguments) (s : Service Shared State) (input : Bytes) :
    ClientRun × Service Shared State :=
  let link := Link.connect s.responder s (.new a.protocol Client.defaultLimit)
  let (transcript, link) := Prompt.run link a.key a.timeout input
  let run := match transcript.error with
    | some e => .failure transcript.output e
    | none => { status := 0, output := transcript.output, complaint := "" }
  (run, link.close.2)

/-- Runs the client. A program to evaluate is read before the daemon is looked for. -/
def runClient (a : ClientArguments) (files : String → FileContent) (input : Bytes)
    (daemon : Daemon Shared State) : ClientRun × Daemon Shared State :=
  match a.activity with
  | .eval code file =>
    match readCode code (file.map files) input, daemon with
    | .error e, daemon => (.failure "" e, daemon)
    | .ok _, .error e => (.failure "" (connectFailure e), .error e)
    | .ok code, .ok s =>
      let (run, s) := evaluate a s code
      (run, .ok s)
  | .repl =>
    match daemon with
    | .error e => (.failure "" (connectFailure e), .error e)
    | .ok s =>
      let (run, s) := converse a s input
      (run, .ok s)

end ReplDaemon.Program
