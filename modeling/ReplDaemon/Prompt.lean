import ReplDaemon.Client
import ReplDaemon.Text.Blank

/-!
# The prompt

An interactive session: every line of the input is sent as one chunk, and the prompt tells whether
the next line continues a statement. Also here is where a program for a single evaluation comes from,
and how a response looks on a terminal.
-/

namespace ReplDaemon

open Text

/-- What a file gives: it may be missing, be something else than a file, or hold bytes. -/
inductive FileContent where
  | missing
  | directory
  | bytes (content : Bytes)

/-- What an input says of bytes that are no text: where the first ill-formed part starts and how long
it is, unless it is cut off by the end. -/
def faultText (fault : Text.Fault) : String :=
  match fault.length with
  | some n => s!"invalid utf-8 sequence of {n} bytes from index {fault.index}"
  | none => s!"incomplete utf-8 byte sequence from index {fault.index}"

/-- What a file says of bytes that are no text. -/
def fileFaultText : String := "stream did not contain valid UTF-8"

/-- The text of a file. -/
def FileContent.text : FileContent → Except ReadFailure String
  | .missing => .error (.system .notFound)
  | .directory => .error (.system .isDirectory)
  | .bytes content =>
    match decode? content with
    | some s => .ok s
    | none => .error (.invalidText fileFaultText)

/-- The text that arrives over an input. -/
def inputText (bytes : Bytes) : Except ReadFailure String :=
  match decode? bytes with
  | some s => .ok s
  | none => .error (.invalidText (((firstFault bytes).map faultText).getD fileFaultText))

/-- The program to evaluate: the argument if there is one, else the file, else all of the input, which
must not be blank. -/
def readCode (argument : Option String) (file : Option FileContent) (input : Bytes) :
    Except ClientError String :=
  match argument, file with
  | some code, _ => .ok code
  | none, some file => file.text.mapError .io
  | none, none => do
    let code ← (inputText input).mapError .io
    if isBlankText code then throw .noCode
    return code

/-- The text of a response as it should appear on a terminal: its last line is ended. -/
def displayText (r : Response) : String :=
  if r.text.isEmpty || r.text.toList.getLast? == some '\n' then r.text else r.text ++ "\n"

/-- Whether a response asks for more lines. -/
def isContinuation (r : Response) : Bool :=
  r.text == continueMarker

namespace Prompt

/-- The prompt for a new statement. -/
def fresh : String := "> "

/-- The prompt for the rest of a statement. -/
def continued : String := "... "

/-- The lines of some bytes, each with its line feed; what follows the last line feed is a line unless
it is empty. `line` is the line so far, last byte first. -/
def linesFrom (found : List Bytes) (line : Bytes) : Bytes → List Bytes
  | [] => (if line.isEmpty then found else line.reverse :: found).reverse
  | b :: rest =>
    if b = 10 then linesFrom ((b :: line).reverse :: found) [] rest
    else linesFrom found (b :: line) rest

/-- The lines of some bytes, each with its line feed. -/
def lines (bytes : Bytes) : List Bytes :=
  linesFrom [] [] bytes

/-- A line without its end: a line feed, and a carriage return before it. -/
def withoutEnd (line : Bytes) : Bytes :=
  match line.reverse with
  | 10 :: 13 :: rest | 10 :: rest => rest.reverse
  | _ => line

/-- The text of a line. -/
def lineText (line : Bytes) : Except ReadFailure String :=
  (inputText line).map fun _ => decode (withoutEnd line)

/-- How an interactive session went: what it wrote, and the error that ended it if one did. -/
structure Transcript where
  output : String
  error : Option ClientError

variable {σ : Type}

/-- Goes on with a session behind what was written so far. -/
def runFrom (link : Link σ) (key : String) (timeout : UInt32) (written prompt : String) :
    List Bytes → Transcript × Link σ
  | [] => ({ output := written ++ prompt ++ "\n", error := none }, link)
  | line :: rest =>
    let written := written ++ prompt
    match lineText line with
    | .error e => ({ output := written, error := some (.io e) }, link)
    | .ok code =>
      match link.request { timeout, key, code } with
      | (none, link) => ({ output := written, error := none }, link)
      | (some (.error e), link) => ({ output := written, error := some (.daemon e) }, link)
      | (some (.ok response), link) =>
        if isContinuation response then runFrom link key timeout written continued rest
        else runFrom link key timeout (written ++ displayText response) fresh rest

/-- An interactive session over the lines of an input. -/
def run (link : Link σ) (key : String) (timeout : UInt32) (input : Bytes) :
    Transcript × Link σ :=
  runFrom link key timeout "" fresh (lines input)

end Prompt

end ReplDaemon
