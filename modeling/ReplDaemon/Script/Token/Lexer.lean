import ReplDaemon.Script.Token
import ReplDaemon.Text.Alphabetic
import ReplDaemon.Text.Blank
import ReplDaemon.Text.Numeric

/-!
# Reading tokens

A source text is read character by character. Between tokens, white space and comments are skipped;
anything else must start a token, whose length is then known. No token reaches over the end of a
line.
-/

namespace ReplDaemon.Script

/-- Why a text is not a sequence of tokens. -/
inductive LexError where
  | unterminatedText (position : Position)
  | integerOutOfRange (position : Position)
  | unexpected (found : Char) (position : Position)
  deriving Repr, DecidableEq

/-- The wording of a lexical error. -/
def LexError.message : LexError → String
  | .unterminatedText p => s!"unterminated string literal at {p.text}"
  | .integerOutOfRange p => s!"integer literal out of range at {p.text}"
  | .unexpected c p => s!"unexpected character {Text.quoteCharacter c} at {p.text}"

/-- Whether a word may start with a character. -/
def isWordStart (c : Char) : Bool :=
  Text.isAlphabetic c || c == '_'

/-- Whether a word may go on with a character. -/
def isWordPart (c : Char) : Bool :=
  Text.isAlphabetic c || Text.isNumeric c || c == '_'

/-- The number that decimal digits stand for. -/
def digitsValue (digits : List Char) : Nat :=
  digits.foldl (fun n d => n * 10 + (d.toNat - '0'.toNat)) 0

/-- What follows a backslash in a literal. -/
def escaped? : Char → Option Char
  | 'n' => some '\n'
  | 't' => some '\t'
  | 'r' => some '\r'
  | '0' => some '\x00'
  | '\\' => some '\\'
  | '"' => some '"'
  | '\'' => some '\''
  | _ => none

/-- A token and the number of characters it takes. -/
abbrev Lexeme := Token × Nat

/-- A number: an integer that fits 64 bits, or digits around a point. -/
def scanNumber (cs : List Char) : Option Lexeme :=
  let whole := cs.takeWhile Char.isDigit
  match cs.dropWhile Char.isDigit with
  | '.' :: rest =>
    let fraction := rest.takeWhile Char.isDigit
    if fraction.isEmpty then integer whole
    else
      let value := Number.ofDecimal (digitsValue (whole ++ fraction)) fraction.length
      some (.float value, whole.length + 1 + fraction.length)
  | _ => integer whole
where
  /-- An integer literal that is not too large. -/
  integer (digits : List Char) : Option Lexeme :=
    let n := digitsValue digits
    if n ≤ Int64.maxValue.toInt.toNat then some (.int (Int64.ofNat n), digits.length) else none

/-- The inside of a string literal up to its closing mark; `taken` counts the characters read. -/
def scanText (content : String) (taken : Nat) : List Char → Option Lexeme
  | '"' :: _ => some (.text content, taken + 1)
  | '\\' :: e :: rest =>
    match escaped? e with
    | some c => scanText (content.push c) (taken + 2) rest
    | none => none
  | c :: rest =>
    if c = '\\' || c = '\n' then none else scanText (content.push c) (taken + 1) rest
  | [] => none

/-- A character literal behind its opening mark. -/
def scanCharacter : List Char → Option Lexeme
  | '\\' :: e :: '\'' :: _ => (escaped? e).map fun c => (.char c, 4)
  | c :: '\'' :: _ => if c = '\\' || c = '\'' || c = '\n' then none else some (.char c, 3)
  | _ => none

/-- A keyword or an identifier. -/
def scanWord (cs : List Char) : Lexeme :=
  let word := cs.takeWhile isWordPart
  let name := String.ofList word
  match Keyword.ofText? name with
  | some k => (.keyword k, word.length)
  | none => (.identifier name, word.length)

/-- An operator or a delimiter, the longest one that fits. -/
def scanSymbol : List Char → Option Lexeme
  | '=' :: '=' :: _ => some (.operator .equalEqual, 2)
  | '!' :: '=' :: _ => some (.operator .notEqual, 2)
  | '<' :: '=' :: _ => some (.operator .lessEqual, 2)
  | '>' :: '=' :: _ => some (.operator .greaterEqual, 2)
  | '&' :: '&' :: _ => some (.operator .and, 2)
  | '|' :: '|' :: _ => some (.operator .or, 2)
  | '#' :: '{' :: _ => some (.delimiter .openMap, 2)
  | '<' :: _ => some (.operator .less, 1)
  | '>' :: _ => some (.operator .greater, 1)
  | '+' :: _ => some (.operator .plus, 1)
  | '-' :: _ => some (.operator .minus, 1)
  | '*' :: _ => some (.operator .times, 1)
  | '/' :: _ => some (.operator .divide, 1)
  | '%' :: _ => some (.operator .percent, 1)
  | '!' :: _ => some (.operator .not, 1)
  | '=' :: _ => some (.operator .assign, 1)
  | '(' :: _ => some (.delimiter .openParen, 1)
  | ')' :: _ => some (.delimiter .closeParen, 1)
  | '{' :: _ => some (.delimiter .openBrace, 1)
  | '}' :: _ => some (.delimiter .closeBrace, 1)
  | '[' :: _ => some (.delimiter .openBracket, 1)
  | ']' :: _ => some (.delimiter .closeBracket, 1)
  | ',' :: _ => some (.delimiter .comma, 1)
  | ';' :: _ => some (.delimiter .semicolon, 1)
  | ':' :: _ => some (.delimiter .colon, 1)
  | _ => none

/-- The token that starts with the character `c`, before `rest`. -/
def scanToken (c : Char) (rest : List Char) : Option Lexeme :=
  if c.isDigit then scanNumber (c :: rest)
  else if c = '"' then scanText "" 1 rest
  else if c = '\'' then scanCharacter rest
  else if isWordStart c then some (scanWord (c :: rest))
  else scanSymbol (c :: rest)

/-- Why no token starts with the character `c`. -/
def LexError.at (position : Position) (c : Char) : LexError :=
  if c = '"' then .unterminatedText position
  else if c.isDigit then .integerOutOfRange position
  else .unexpected c position

/-- Where the reading of a text stands: between tokens, inside one with some characters left, or in
a comment. -/
inductive Scanning where
  | between
  | inside (left : Nat)
  | comment
  deriving Repr, DecidableEq

/-- Reads on from a place; `found` holds the tokens so far, last one first. -/
def tokensFrom (found : List PlacedToken) (position : Position) :
    Scanning → List Char → Except LexError (List PlacedToken)
  | _, [] => .ok found.reverse
  | .inside (left + 1), c :: cs => tokensFrom found (position.after c) (.inside left) cs
  | .comment, c :: cs =>
    tokensFrom found (position.after c) (if c = '\n' then .between else .comment) cs
  | .between, c :: cs | .inside 0, c :: cs =>
    if Text.isBlank c then tokensFrom found (position.after c) .between cs
    else if c = '/' ∧ cs.head? = some '/' then
      tokensFrom found (position.after c) .comment cs
    else match scanToken c cs with
      | some (token, length) =>
        tokensFrom (⟨token, position⟩ :: found) (position.after c) (.inside (length - 1)) cs
      | none => .error (.at position c)

/-- The tokens of a source text. -/
def tokens (source : String) : Except LexError (List PlacedToken) :=
  tokensFrom [] .start .between source.toList

end ReplDaemon.Script
