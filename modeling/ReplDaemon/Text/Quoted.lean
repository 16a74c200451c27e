import ReplDaemon.Text.Hidden

/-!
# Quoted text in messages

A message that shows a piece of the program quotes it: control characters and whatever does not
show by itself are spelled out, and the quotation mark in use is escaped.
-/

namespace ReplDaemon.Text

/-- The hexadecimal digits of a number, in lower case. -/
def hexText (n : Nat) : String :=
  .ofList (Nat.toDigits 16 n)

/-- One character inside quotation marks `mark`. -/
def quotedCharacter (mark c : Char) : String :=
  if c == mark || c == '\\' then .ofList ['\\', c]
  else match c with
    | '\x00' => "\\0"
    | '\t' => "\\t"
    | '\n' => "\\n"
    | '\r' => "\\r"
    | c => if isHidden c then "\\u\x7b" ++ hexText c.toNat ++ "\x7d" else c.toString

/-- A text between double quotation marks. -/
def quoteText (s : String) : String :=
  s.toList.foldl (fun acc c => acc ++ quotedCharacter '"' c) "\"" ++ "\""

/-- A character between single quotation marks. -/
def quoteCharacter (c : Char) : String :=
  "'" ++ quotedCharacter '\'' c ++ "'"

example : quoteText "a\"b'\n" = "\"a\\\"b'\\n\"" := by decide +kernel

end ReplDaemon.Text
