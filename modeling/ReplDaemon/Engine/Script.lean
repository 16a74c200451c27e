import ReplDaemon.Engine.Basic
import ReplDaemon.Script.Program.Parser
import ReplDaemon.Script.Run
import ReplDaemon.Script.Token.Lexer

/-!
# The script engine

Evaluates programs of the script language. The state of a session is its variables. A source whose
tokens end too early is incomplete; any other syntax error, and any error of the running program, is
reported as text.
-/

namespace ReplDaemon.Script

/-- How a source that is not a program is answered. -/
def ParseError.ending : ParseError → Ending
  | .unexpectedEnd => .returned (.ok .incomplete)
  | .unbalanced => .panicked (some ParseError.unbalanced.message)
  | e => .returned (.ok (.failed ("syntax error: " ++ e.message)))

/-- How a run is answered. -/
def ending : Except Stop (Option Value) → Ending
  | .ok value => .returned (.ok (.completed value))
  | .error .cancelled => .returned (.error .cancelled)
  | .error (.failed e) => .returned (.ok (.failed ("error: " ++ e.message)))
  | .error .endless => .endless

/-- Evaluates a source; no loop tests its condition more than `rounds` times. -/
def evaluateWithin (rounds : Nat) (source : String) (w : World) : Ending × World :=
  match tokens source with
  | .error e => (.returned (.ok (.failed ("syntax error: " ++ e.message))), w)
  | .ok ts =>
    match Program.ofTokens ts with
    | .error e => (e.ending, w)
    | .ok p =>
      let (outcome, w) := p.run rounds w
      (ending outcome, w)

/-- How often the condition of a loop is tested in an evaluation that nobody cancels before it counts
as endless: more often than there are moments in the longest time a request can ask for. -/
def patience : Nat := 1 <<< 42

/-- A bound on the rounds of any loop. Every round takes a moment, so one that is going to be
cancelled has no more of them than there are moments left. -/
def roundsIn (c : Context) : Nat :=
  match c.cancelAt with
  | none => patience
  | some t => t - c.clock + 1

/-- Evaluates a source in a session with these variables. -/
def evaluate (source : String) (vars : Bindings) (context : Context) : Report Unit Bindings :=
  let (ending, w) := evaluateWithin (roundsIn context) source { vars, context }
  { ending, shared := (), session := w.vars, context := w.context }

/-- The prelude unless another one is configured. -/
def defaultPrelude : List String :=
  ["let PI = 3.141592653589793;", "let E = 2.718281828459045;"]

/-- The engine of the script language with the lines of a prelude. -/
def engine (prelude : List String) : Engine Unit Bindings where
  name := "script"
  prelude := if prelude.isEmpty then none else some ("\n".intercalate prelude)
  newSession := .ok .empty
  evaluate source _ := evaluate source

end ReplDaemon.Script
