/-!
# Captured output

An evaluation writes into a capture of bounded size. Text beyond the limit is dropped at a character
boundary, and so is everything written after it; taking the text out says so.
-/

namespace ReplDaemon

/-- The output of one evaluation so far, at most `limit` bytes of it. -/
structure Capture where
  limit : Nat
  text : String
  truncated : Bool
  deriving Repr, DecidableEq

namespace Capture

/-- An empty capture. -/
def empty (limit : Nat) : Capture where
  limit
  text := ""
  truncated := false

/-- What follows output that was cut. -/
def notice : String := "\n(output truncated)"

/-- Appends to `text` the longest run of leading characters that takes at most `room` bytes. -/
def appendFitting (text : String) (room : Nat) : List Char → String
  | [] => text
  | c :: cs =>
    if c.utf8Size ≤ room then appendFitting (text.push c) (room - c.utf8Size) cs else text

/-- Writes a text, or as much of it as there is room for. -/
def write (c : Capture) (s : String) : Capture :=
  if c.truncated then c
  else
    let room := c.limit - c.text.utf8ByteSize
    if s.utf8ByteSize ≤ room then { c with text := c.text ++ s }
    else { c with text := appendFitting c.text room s.toList, truncated := true }

/-- Writes a line. -/
def writeLine (c : Capture) (s : String) : Capture :=
  (c.write s).write "\n"

/-- Whether nothing has been written. -/
def isEmpty (c : Capture) : Bool :=
  c.text.isEmpty && !c.truncated

/-- Forgets what was written. -/
def clear (c : Capture) : Capture :=
  empty c.limit

/-- The text written, with a notice if it was cut. -/
def shown (c : Capture) : String :=
  if c.truncated then c.text ++ notice else c.text

/-- Takes the text out, which leaves the capture empty. -/
def take (c : Capture) : String × Capture :=
  (c.shown, c.clear)

end Capture

end ReplDaemon
