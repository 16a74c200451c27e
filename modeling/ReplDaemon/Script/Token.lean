import ReplDaemon.Number.Shortest
import ReplDaemon.Text.Quoted

/-!
# Tokens of the script language

The words of the language: literals, identifiers, seven keywords, fifteen operators and ten
delimiters, each with the place it starts at.
-/

namespace ReplDaemon.Script

/-- A place in a source text; lines and columns count from 1, columns in characters. -/
structure Position where
  line : Nat
  column : Nat
  deriving Repr, DecidableEq

/-- Where a text starts. -/
def Position.start : Position := ⟨1, 1⟩

/-- The place after a character. -/
def Position.after (p : Position) (c : Char) : Position :=
  if c = '\n' then ⟨p.line + 1, 1⟩ else ⟨p.line, p.column + 1⟩

/-- A place as messages give it. -/
def Position.text (p : Position) : String :=
  s!"line {p.line}, column {p.column}"

/-- The reserved words. -/
inductive Keyword where
  | letWord
  | ifWord
  | elseWord
  | whileWord
  | trueWord
  | falseWord
  | nullWord
  deriving Repr, DecidableEq

/-- The spelling of a keyword. -/
def Keyword.text : Keyword → String
  | .letWord => "let"
  | .ifWord => "if"
  | .elseWord => "else"
  | .whileWord => "while"
  | .trueWord => "true"
  | .falseWord => "false"
  | .nullWord => "null"

/-- The keyword with a given spelling. -/
def Keyword.ofText? (word : String) : Option Keyword :=
  [letWord, ifWord, elseWord, whileWord, trueWord, falseWord, nullWord].find? (·.text == word)

/-- The operators. -/
inductive Operator where
  | equalEqual
  | notEqual
  | lessEqual
  | greaterEqual
  | and
  | or
  | less
  | greater
  | plus
  | minus
  | times
  | divide
  | percent
  | not
  | assign
  deriving Repr, DecidableEq

/-- The spelling of an operator. -/
def Operator.text : Operator → String
  | .equalEqual => "=="
  | .notEqual => "!="
  | .lessEqual => "<="
  | .greaterEqual => ">="
  | .and => "&&"
  | .or => "||"
  | .less => "<"
  | .greater => ">"
  | .plus => "+"
  | .minus => "-"
  | .times => "*"
  | .divide => "/"
  | .percent => "%"
  | .not => "!"
  | .assign => "="

/-- The delimiters. -/
inductive Delimiter where
  | openParen
  | closeParen
  | openBrace
  | closeBrace
  | openBracket
  | closeBracket
  | openMap
  | comma
  | semicolon
  | colon
  deriving Repr, DecidableEq

/-- The spelling of a delimiter. -/
def Delimiter.text : Delimiter → String
  | .openParen => "("
  | .closeParen => ")"
  | .openBrace => "\x7b"
  | .closeBrace => "\x7d"
  | .openBracket => "["
  | .closeBracket => "]"
  | .openMap => "#\x7b"
  | .comma => ","
  | .semicolon => ";"
  | .colon => ":"

/-- A token. -/
inductive Token where
  | int (i : Int64)
  | float (x : Float)
  | text (s : String)
  | char (c : Char)
  | identifier (name : String)
  | keyword (k : Keyword)
  | operator (o : Operator)
  | delimiter (d : Delimiter)
  deriving Inhabited

/-- A spelling between the marks that messages put around code. -/
def codeText (s : String) : String :=
  "`" ++ s ++ "`"

/-- A token as messages show it. -/
def Token.shown : Token → String
  | .int i => codeText (toString i.toInt)
  | .float x => codeText (Number.floatText x)
  | .text s => "string " ++ Text.quoteText s
  | .char c => "char " ++ Text.quoteCharacter c
  | .identifier name => codeText name
  | .keyword k => codeText k.text
  | .operator o => codeText o.text
  | .delimiter d => codeText d.text

/-- A token and where it starts. -/
structure PlacedToken where
  token : Token
  position : Position

end ReplDaemon.Script
