import ReplDaemon.Script.Program
import ReplDaemon.Script.Token

/-!
# Reading programs

A program is read from its tokens by descent. The cursor holds the tokens left and counts how deep
the reading has descended: into expressions, blocks, `else if` links, operands of unary operators,
and, for as long as a chain of operators or indices goes on, one level for each of its links. Nothing
deeper than `maxDepth` levels is accepted. Tokens that end too early are an error of their own,
because more of them can mend it.
-/

namespace ReplDaemon.Script

/-- The deepest nesting accepted. -/
def maxDepth : Nat := 128

/-- What the reader was waiting for. -/
inductive Expected where
  | delimiter (d : Delimiter)
  | identifier
  | equalSign
  | expression
  deriving Repr, DecidableEq

/-- How messages name what was expected. -/
def Expected.text : Expected → String
  | .delimiter d => codeText d.text
  | .identifier => "identifier"
  | .equalSign => codeText "="
  | .expression => "expression"

/-- Why tokens are not a program. An `unbalanced` descent cannot happen. -/
inductive ParseError where
  | unexpectedEnd
  | unexpected (expected : Expected) (found : Token) (position : Position)
  | invalidTarget (position : Position)
  | tooDeep (position : Position)
  | unbalanced

/-- The wording of a syntax error. -/
def ParseError.message : ParseError → String
  | .unexpectedEnd => "unexpected end of input"
  | .unexpected e t p => s!"expected {e.text}, found {t.shown} at {p.text}"
  | .invalidTarget p => s!"invalid assignment target at {p.text}"
  | .tooDeep p => s!"nesting deeper than {maxDepth} levels at {p.text}"
  | .unbalanced => "unbalanced nesting"

/-- The tokens left, the place of the last token taken, and how deep the reading is. -/
structure Cursor where
  rest : List PlacedToken
  last : Position
  depth : Nat

/-- A cursor in front of some tokens. -/
def Cursor.start (tokens : List PlacedToken) : Cursor where
  rest := tokens
  last := .start
  depth := 0

/-- The place of the next token, or of the last one when none is left. -/
def Cursor.position (c : Cursor) : Position :=
  match c.rest with
  | [] => c.last
  | t :: _ => t.position

/-- A reader of something: it takes tokens from the cursor or fails. -/
abbrev Parser (α : Type) := StateT Cursor (Except ParseError) α

namespace Parser

/-- The next token, which stays where it is. -/
def peek : Parser (Option Token) :=
  fun c => .ok (c.rest.head?.map (·.token), c)

/-- Takes the next token. -/
def next : Parser PlacedToken :=
  fun c => match c.rest with
  | [] => .error .unexpectedEnd
  | t :: rest => .ok (t, { c with rest, last := t.position })

/-- Fails at a token. -/
def reject {α : Type} (expected : Expected) (found : PlacedToken) : Parser α :=
  throw (.unexpected expected found.token found.position)

/-- Goes one level deeper. -/
def descend : Parser Unit :=
  fun c =>
    if c.depth < maxDepth then .ok ((), { c with depth := c.depth + 1 })
    else .error (.tooDeep c.position)

/-- Comes back up. -/
def ascend (levels : Nat) : Parser Unit :=
  fun c =>
    if levels ≤ c.depth then .ok ((), { c with depth := c.depth - levels })
    else .error .unbalanced

/-- Reads something one level deeper. -/
def nested {α : Type} (p : Parser α) : Parser α := do
  descend
  let a ← p
  ascend 1
  return a

/-- Whether the next token is a given delimiter. -/
def atDelimiter (d : Delimiter) : Parser Bool := do
  match ← peek with
  | some (.delimiter e) => return e == d
  | _ => return false

/-- Takes the next token if it is a given delimiter, and tells whether it did. -/
def eat (d : Delimiter) : Parser Bool := do
  if ← atDelimiter d then
    discard next
    return true
  else return false

/-- Takes a delimiter, which must be there. -/
def expect (d : Delimiter) : Parser Unit := do
  let t ← next
  match t.token with
  | .delimiter e => if e == d then return () else reject (.delimiter d) t
  | _ => reject (.delimiter d) t

/-- Takes a name. -/
def name : Parser String := do
  let t ← next
  match t.token with
  | .identifier n => return n
  | _ => reject .identifier t

/-- Fails for want of levels. -/
def tooDeep {α : Type} : Parser α :=
  fun c => .error (.tooDeep c.position)

/-- The tokens left. Every round of a loop takes one of them at least, so a loop has no more rounds
than there are tokens. -/
def remaining : Parser (List PlacedToken) :=
  fun c => .ok (c.rest, c)

/-- Items with commas between them, from behind the first item up to the closing delimiter, one round
for each; `found` holds the items so far, last one first. A comma may come last. -/
def itemsFrom {α : Type} (item : Parser α) (close : Delimiter) (found : List α) :
    (rounds : List PlacedToken) → Parser (List α)
  | [] => throw .unexpectedEnd
  | _ :: rounds => do
    if ← eat close then return found.reverse
    expect .comma
    if ← eat close then return found.reverse
    itemsFrom item close ((← item) :: found) rounds

/-- Items up to a closing delimiter. -/
def items {α : Type} (item : Parser α) (close : Delimiter) : Parser (List α) := do
  if ← eat close then return []
  let first ← item
  itemsFrom item close [first] (← remaining)

end Parser

/-- The binary operator that an operator token stands for. -/
def BinaryOp.ofOperator? : Operator → Option BinaryOp
  | .or => some .or
  | .and => some .and
  | .equalEqual => some .equal
  | .notEqual => some .notEqual
  | .less => some (.compare .less)
  | .lessEqual => some (.compare .lessEqual)
  | .greater => some (.compare .greater)
  | .greaterEqual => some (.compare .greaterEqual)
  | .plus => some (.arithmetic .add)
  | .minus => some (.arithmetic .subtract)
  | .times => some (.arithmetic .multiply)
  | .divide => some (.arithmetic .divide)
  | .percent => some (.arithmetic .remainder)
  | .not | .assign => none

/-- How loosely an operator binds, from 1 to `loosest`. -/
def BinaryOp.looseness : BinaryOp → Nat
  | .arithmetic .multiply | .arithmetic .divide | .arithmetic .remainder => 1
  | .arithmetic .add | .arithmetic .subtract => 2
  | .compare _ => 3
  | .equal | .notEqual => 4
  | .and => 5
  | .or => 6

/-- The looseness of the operators that bind the least. -/
def BinaryOp.loosest : Nat := 6

/-- The unary operator that an operator token stands for. -/
def UnaryOp.ofOperator? : Operator → Option UnaryOp
  | .minus => some .negate
  | .not => some .not
  | _ => none

namespace Parser

/-- A bound for the rounds of a loop whose every round but one goes a level deeper: at most
`maxDepth` of them succeed. -/
def maxRounds : Nat := maxDepth + 2

/-- The binary operator of a given looseness that comes next, if one does. -/
def binaryOp? (looseness : Nat) : Parser (Option BinaryOp) := do
  match ← peek with
  | some (.operator o) =>
    return (BinaryOp.ofOperator? o).filter fun op => op.looseness == looseness
  | _ => return none

/-- The unary operator that comes next, if one does. -/
def unaryOp? : Parser (Option UnaryOp) := do
  match ← peek with
  | some (.operator o) => return UnaryOp.ofOperator? o
  | _ => return none

/-- The rest of a chain of operators of one looseness behind its left operand. Every link nests the
tree built so far one level deeper; `links` of them are open. -/
def chainFrom (operand : Parser Expr) (looseness : Nat) (links : Nat) (lhs : Expr) :
    (rounds : Nat) → Parser Expr
  | 0 => tooDeep
  | rounds + 1 => do
    match ← binaryOp? looseness with
    | none =>
      ascend links
      return lhs
    | some op =>
      discard next
      descend
      let rhs ← operand
      chainFrom operand looseness (links + 1) (.binary op lhs rhs) rounds

/-- A chain of operators up to a given looseness, over operands that bind tighter. -/
def chain (operand : Parser Expr) : (looseness : Nat) → Parser Expr
  | 0 => operand
  | looseness + 1 => do
    let lhs ← chain operand looseness
    chainFrom (chain operand looseness) (looseness + 1) 0 lhs maxRounds

/-- An operand behind unary operators. -/
def unaryFrom (operand : Parser Expr) : (rounds : Nat) → Parser Expr
  | 0 => tooDeep
  | rounds + 1 => do
    match ← unaryOp? with
    | none => operand
    | some op =>
      discard next
      let e ← nested (unaryFrom operand rounds)
      return .unary op e

/-- An operand behind any number of unary operators. -/
def unary (operand : Parser Expr) : Parser Expr :=
  unaryFrom operand maxRounds

/-- The indices and calls behind an operand. Every index nests it one level deeper; `links` of them
are open. Only a name can be called. -/
def linksFrom (expression : Parser Expr) (links : Nat) (e : Expr) : (rounds : Nat) → Parser Expr
  | 0 => tooDeep
  | rounds + 1 => do
    if ← eat .openBracket then
      descend
      let position ← expression
      expect .closeBracket
      linksFrom expression (links + 1) (.index e position) rounds
    else if ← atDelimiter .openParen then
      let t ← next
      match e with
      | .var name =>
        let arguments ← items expression .closeParen
        linksFrom expression links (.call name arguments) rounds
      | _ => reject (.delimiter .semicolon) t
    else
      ascend links
      return e

/-- A key and its value in a map. -/
def entry (expression : Parser Expr) : Parser (Expr × Expr) := do
  let key ← expression
  expect .colon
  let value ← expression
  return (key, value)

/-- A literal, a name, or something in brackets. -/
def primary (expression : Parser Expr) : Parser Expr := do
  let t ← next
  match t.token with
  | .int i => return .literal (.int i)
  | .float x => return .literal (.float x)
  | .text s => return .literal (.text s)
  | .char c => return .literal (.char c)
  | .keyword .trueWord => return .literal (.bool true)
  | .keyword .falseWord => return .literal (.bool false)
  | .keyword .nullWord => return .literal .null
  | .identifier name => return .var name
  | .delimiter .openParen =>
    let e ← expression
    expect .closeParen
    return e
  | .delimiter .openBracket => return .list (← items expression .closeBracket)
  | .delimiter .openMap => return .map (← items (entry expression) .closeBrace)
  | _ => reject .expression t

/-- A primary expression with the indices and calls behind it. -/
def postfixed (expression : Parser Expr) : Parser Expr := do
  let e ← primary expression
  linksFrom expression 0 e maxRounds

/-- An expression, with at most `levels` others around its parts. -/
def expressionWithin : (levels : Nat) → Parser Expr
  | 0 => tooDeep
  | levels + 1 => nested (chain (unary (postfixed (expressionWithin levels))) BinaryOp.loosest)

/-- An expression. An expression inside another one is a level deeper, so what has no levels left
here is too deep in any case. -/
def expression : Parser Expr :=
  expressionWithin (maxDepth + 1)

/-- Takes the semicolon behind a statement, which may be missing before a closing brace and at the
end. Tells whether the tokens ended there. -/
def terminator : Parser Bool :=
  fun c => match c.rest with
  | [] => .ok (true, c)
  | t :: rest => match t.token with
    | .delimiter .semicolon => .ok (false, { c with rest, last := t.position })
    | .delimiter .closeBrace => .ok (false, c)
    | _ => .error (.unexpected (.delimiter .semicolon) t.token t.position)

/-- What an expression means on the left of an assignment. -/
def Target.ofExpr? : Expr → Option Target
  | .var name => some (.variable name)
  | .index (.var name) position => some (.element name position)
  | _ => none

/-- An `if` statement behind its keyword. Every one chained to it by `else` is a level deeper. -/
def ifFrom (block : Parser (List Stmt)) : (rounds : Nat) → Parser Stmt
  | 0 => tooDeep
  | rounds + 1 => do
    let condition ← expression
    let body ← block
    match ← peek with
    | some (.keyword .elseWord) =>
      discard next
      match ← peek with
      | some (.keyword .ifWord) =>
        discard next
        let chained ← nested (ifFrom block rounds)
        return .ifElse condition body [chained]
      | _ => return .ifElse condition body (← block)
    | _ => return .ifThen condition body

/-- A statement, and whether it is an expression that nothing closes. -/
def statement (block : Parser (List Stmt)) : Parser (Stmt × Bool) := do
  match ← peek with
  | some (.keyword .letWord) =>
    discard next
    let name ← name
    let t ← next
    match t.token with
    | .operator .assign =>
      let value ← expression
      discard terminator
      return (.declare name value, false)
    | _ => reject .equalSign t
  | some (.keyword .ifWord) =>
    discard next
    return (← ifFrom block maxRounds, false)
  | some (.keyword .whileWord) =>
    discard next
    let condition ← expression
    return (.whileLoop condition (← block), false)
  | some (.delimiter .semicolon) =>
    discard next
    return (.evaluate (.literal .null), false)
  | _ =>
    let start := (← get).position
    let e ← expression
    match ← peek with
    | some (.operator .assign) =>
      discard next
      match Target.ofExpr? e with
      | some target =>
        let value ← expression
        discard terminator
        return (.assign target value, false)
      | none => throw (.invalidTarget start)
    | _ => return (.evaluate e, ← terminator)

/-- The statements of a block behind its opening brace, one round for each. -/
def blockFrom (block : Parser (List Stmt)) (found : List Stmt) :
    (rounds : List PlacedToken) → Parser (List Stmt)
  | [] => throw .unexpectedEnd
  | _ :: rounds => do
    if ← eat .closeBrace then return found.reverse
    match ← peek with
    | none => throw .unexpectedEnd
    | some _ =>
      let (s, _) ← statement block
      blockFrom block (s :: found) rounds

/-- A block with at most `levels` others around its parts. -/
def blockWithin : (levels : Nat) → Parser (List Stmt)
  | 0 => do
    expect .openBrace
    tooDeep
  | levels + 1 => do
    expect .openBrace
    nested do
      blockFrom (blockWithin levels) [] (← remaining)

/-- A block. -/
def block : Parser (List Stmt) :=
  blockWithin (maxDepth + 1)

/-- The statements of a program, one round for each. An expression that nothing closes ends the
tokens and is the result. -/
def programFrom (found : List Stmt) : (rounds : List PlacedToken) → Parser Program
  | [] => return { statements := found.reverse, result := none }
  | _ :: rounds => do
    match ← peek with
    | none => return { statements := found.reverse, result := none }
    | some _ =>
      match ← statement block with
      | (.evaluate e, true) => return { statements := found.reverse, result := some e }
      | (s, _) => programFrom (s :: found) rounds

end Parser

/-- The program that some tokens spell. -/
def Program.ofTokens (tokens : List PlacedToken) : Except ParseError Program :=
  (Parser.programFrom [] tokens).run' (.start tokens)

end ReplDaemon.Script
