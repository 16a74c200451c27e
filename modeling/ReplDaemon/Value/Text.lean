import ReplDaemon.Number.Shortest
import ReplDaemon.Text.Quoted
import ReplDaemon.Value.Basic

/-!
# The text of a value

`format` shows a value the way a literal would be written; `plain` is the same but for scalars, whose
text and characters it leaves unquoted. Lists and whatever enumerates are written `{ a, b }`, maps
`{{ k, v }, { k2, v2 }}`. Inside a string only the quotation mark is escaped.
-/

namespace ReplDaemon.Value

/-- A text between quotation marks, each mark inside it behind a backslash. -/
def quoted (s : String) : String :=
  "\"" ++ .ofList (s.toList.flatMap fun c => if c = '"' then ['\\', '"'] else [c]) ++ "\""

/-- Two hexadecimal digits at least. -/
def hexByte (n : Nat) : String :=
  let digits := Text.hexText n
  if digits.length < 2 then "0" ++ digits else digits

/-- What stands for a character between its quotation marks. Up to the space a character is spelled
out: seven controls have a letter, the others their number. -/
def characterBody (c : Char) : String :=
  match c with
  | '\'' => "\\'"
  | '\x07' => "\\a"
  | '\x08' => "\\b"
  | '\n' => "\\n"
  | '\x0b' => "\\v"
  | '\r' => "\\r"
  | '\x0c' => "\\f"
  | '\t' => "\\t"
  | c => if 32 < c.toNat then c.toString else "\\x" ++ hexByte c.toNat

/-- A character between quotation marks. -/
def quotedCharacter (c : Char) : String :=
  "'" ++ characterBody c ++ "'"

/-- The text of a truth value. -/
def boolText (b : Bool) : String :=
  if b then "true" else "false"

mutual

/-- Appends the literal-like text of a value to `out`. -/
def write (out : String) : Value → String
  | .null => out ++ "null"
  | .bool b => out ++ boolText b
  | .int i => out ++ toString i.toInt
  | .float x => out ++ Number.floatText x
  | .text s => out ++ quoted s
  | .char c => out ++ quotedCharacter c
  | .list items => writeItems (out ++ "\x7b ") "" items ++ " \x7d"
  | .map entries => writeEntries (out ++ "\x7b") "" entries ++ "\x7d"
  | .iterable _ elements _ => writeItems (out ++ "\x7b ") "" elements ++ " \x7d"
  | .sealed _ display => out ++ display
  | .native t => out ++ t

/-- Appends items, the first one behind `gap` and the others behind a comma. -/
def writeItems (out gap : String) : List Value → String
  | [] => out
  | v :: vs => writeItems (write (out ++ gap) v) ", " vs

/-- Appends entries, each in braces of its own. -/
def writeEntries (out gap : String) : List (Value × Value) → String
  | [] => out
  | (k, v) :: es =>
    writeEntries (write (write (out ++ gap ++ "\x7b ") k ++ ", ") v ++ " \x7d") ", " es

end

/-- The literal-like text of a value. -/
def format (v : Value) : String :=
  write "" v

/-- The text of what may be no value at all. -/
def formatOption : Option Value → String
  | none => "null"
  | some v => v.format

/-- The plain text of a value: strings and characters unquoted, containers as `format` shows
them. -/
def plain : Value → String
  | .text s => s
  | .char c => c.toString
  | .iterable _ _ display => display
  | v => v.format

end ReplDaemon.Value
