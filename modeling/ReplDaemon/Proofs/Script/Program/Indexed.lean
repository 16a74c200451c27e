import ReplDaemon.Proofs.Fault
import ReplDaemon.Script.Program.Parser

/-!
# Reading by index

The readers of programs once more, over a fixed list of tokens. What is left of them is known by the
index of the next one alone, and three operations are applied that are not defined everywhere: taking
the token at an index that is believed to be one, and coming back up from a depth that is believed to
have been reached.
-/

namespace ReplDaemon.Script

/-- Where a reading by index stands: the index of the next token, and how deep the reading is. -/
structure Spot where
  next : Nat
  depth : Nat

/-- In front of all tokens. -/
def Spot.start : Spot where
  next := 0
  depth := 0

/-- A reader by index: it comes to a fault, fails or reads something. -/
abbrev IndexedParser (α : Type) :=
  ReaderT (List PlacedToken) (StateT Spot (ExceptT ParseError (Except Fault))) α

namespace IndexedParser

/-- Fails. -/
def fail {α : Type} (e : ParseError) : IndexedParser α :=
  fun _ _ => Except.ok (.error e)

/-- The next token, which stays where it is. -/
def peek : IndexedParser (Option Token) :=
  fun tokens s => Except.ok (.ok (tokens[s.next]?.map (·.token), s))

/-- Goes past the next token. -/
def advance : IndexedParser Unit :=
  fun _ s => Except.ok (.ok ((), { s with next := s.next + 1 }))

/-- Takes the next token, if there is one. -/
def next : IndexedParser PlacedToken :=
  fun tokens s => match tokens[s.next]? with
  | none => Except.ok (.error .unexpectedEnd)
  | some t => Except.ok (.ok (t, { s with next := s.next + 1 }))

/-- The token at an index, which must be one. -/
def tokenAt (i : Nat) : IndexedParser PlacedToken :=
  fun tokens s => (Fault.item tokens i).map fun t => .ok (t, s)

/-- The next token, which must be there and stays where it is. -/
def current : IndexedParser PlacedToken := do
  tokenAt (← get).next

/-- Fails at a token. -/
def reject {α : Type} (expected : Expected) (found : PlacedToken) : IndexedParser α :=
  fail (.unexpected expected found.token found.position)

/-- Fails for want of levels, at the next token or at the last one. -/
def tooDeep {α : Type} : IndexedParser α :=
  fun tokens s =>
    Except.ok (.error (.tooDeep ((tokens[s.next]?.or tokens.getLast?).elim .start (·.position))))

/-- Goes one level deeper. -/
def descend : IndexedParser Unit := do
  modify fun s => { s with depth := s.depth + 1 }
  if (← get).depth ≤ maxDepth then return () else tooDeep

/-- Comes back up, which must be possible. -/
def ascend (levels : Nat) : IndexedParser Unit :=
  fun _ s => (Fault.minus s.depth levels).map fun depth => .ok ((), { s with depth })

/-- Reads something one level deeper. -/
def nested {α : Type} (p : IndexedParser α) : IndexedParser α := do
  descend
  let a ← p
  ascend 1
  return a

/-- Whether the next token is a given delimiter. -/
def atDelimiter (d : Delimiter) : IndexedParser Bool := do
  match ← peek with
  | some (.delimiter e) => return e == d
  | _ => return false

/-- Takes the next token if it is a given delimiter, and tells whether it did. -/
def eat (d : Delimiter) : IndexedParser Bool := do
  if ← atDelimiter d then
    advance
    return true
  else return false

/-- Takes a delimiter, which must be there. -/
def expect (d : Delimiter) : IndexedParser Unit := do
  let t ← next
  match t.token with
  | .delimiter e => if e == d then return () else reject (.delimiter d) t
  | _ => reject (.delimiter d) t

/-- Takes a name. -/
def name : IndexedParser String := do
  let t ← next
  match t.token with
  | .identifier n => return n
  | _ => reject .identifier t

/-- The tokens left. -/
def remaining : IndexedParser (List PlacedToken) :=
  fun tokens s => Except.ok (.ok (tokens.drop s.next, s))

/-- Items with commas between them, behind the first one. -/
def itemsFrom {α : Type} (item : IndexedParser α) (close : Delimiter) (found : List α) :
    (rounds : List PlacedToken) → IndexedParser (List α)
  | [] => fail .unexpectedEnd
  | _ :: rounds => do
    if ← eat close then return found.reverse
    expect .comma
    if ← eat close then return found.reverse
    itemsFrom item close ((← item) :: found) rounds

/-- Items up to a closing delimiter. -/
def items {α : Type} (item : IndexedParser α) (close : Delimiter) : IndexedParser (List α) := do
  if ← eat close then return []
  let first ← item
  itemsFrom item close [first] (← remaining)

/-- The binary operator of a given looseness that comes next, if one does. -/
def binaryOp? (looseness : Nat) : IndexedParser (Option BinaryOp) := do
  match ← peek with
  | some (.operator o) =>
    return (BinaryOp.ofOperator? o).filter fun op => op.looseness == looseness
  | _ => return none

/-- The unary operator that comes next, if one does. -/
def unaryOp? : IndexedParser (Option UnaryOp) := do
  match ← peek with
  | some (.operator o) => return UnaryOp.ofOperator? o
  | _ => return none

/-- The rest of a chain of operators of one looseness behind its left operand. -/
def chainFrom (operand : IndexedParser Expr) (looseness : Nat) (links : Nat) (lhs : Expr) :
    (rounds : Nat) → IndexedParser Expr
  | 0 => tooDeep
  | rounds + 1 => do
    match ← binaryOp? looseness with
    | none =>
      ascend links
      return lhs
    | some op =>
      advance
      descend
      let rhs ← operand
      chainFrom operand looseness (links + 1) (.binary op lhs rhs) rounds

/-- A chain of operators up to a given looseness, over operands that bind tighter. -/
def chain (operand : IndexedParser Expr) : (looseness : Nat) → IndexedParser Expr
  | 0 => operand
  | looseness + 1 => do
    let lhs ← chain operand looseness
    chainFrom (chain operand looseness) (looseness + 1) 0 lhs Parser.maxRounds

/-- An operand behind unary operators. -/
def unaryFrom (operand : IndexedParser Expr) : (rounds : Nat) → IndexedParser Expr
  | 0 => tooDeep
  | rounds + 1 => do
    match ← unaryOp? with
    | none => operand
    | some op =>
      advance
      let e ← nested (unaryFrom operand rounds)
      return .unary op e

/-- An operand behind any number of unary operators. -/
def unary (operand : IndexedParser Expr) : IndexedParser Expr :=
  unaryFrom operand Parser.maxRounds

/-- The indices and calls behind an operand. -/
def linksFrom (expression : IndexedParser Expr) (links : Nat) (e : Expr) :
    (rounds : Nat) → IndexedParser Expr
  | 0 => tooDeep
  | rounds + 1 => do
    if ← eat .openBracket then
      descend
      let position ← expression
      expect .closeBracket
      linksFrom expression (links + 1) (.index e position) rounds
    else if ← atDelimiter .openParen then
      let t ← current
      match e with
      | .var name =>
        advance
        let arguments ← items expression .closeParen
        linksFrom expression links (.call name arguments) rounds
      | _ => reject (.delimiter .semicolon) t
    else
      ascend links
      return e

/-- A key and its value in a map. -/
def entry (expression : IndexedParser Expr) : IndexedParser (Expr × Expr) := do
  let key ← expression
  expect .colon
  let value ← expression
  return (key, value)

/-- A literal, a name, or something in brackets. -/
def primary (expression : IndexedParser Expr) : IndexedParser Expr := do
  let t ← next
  match t.token with
  | .int i => return .literal (.int i)
  | .float x => return .literal (.float x)
  | .text s => return .literal (.text s)
  | .char c => return .literal (.char c)
  | .keyword .trueWord => return .literal (.bool true)
  | .keyword .falseWord => return .literal (.bool false)
  | .keyword .nullWord => return .literal .null
  | .identifier name => return .var name
  | .delimiter .openParen =>
    let e ← expression
    expect .closeParen
    return e
  | .delimiter .openBracket => return .list (← items expression .closeBracket)
  | .delimiter .openMap => return .map (← items (entry expression) .closeBrace)
  | _ => reject .expression t

/-- A primary expression with the indices and calls behind it. -/
def postfixed (expression : IndexedParser Expr) : IndexedParser Expr := do
  let e ← primary expression
  linksFrom expression 0 e Parser.maxRounds

/-- An expression, with at most `levels` others around its parts. -/
def expressionWithin : (levels : Nat) → IndexedParser Expr
  | 0 => tooDeep
  | levels + 1 => nested (chain (unary (postfixed (expressionWithin levels))) BinaryOp.loosest)

/-- An expression. -/
def expression : IndexedParser Expr :=
  expressionWithin (maxDepth + 1)

/-- Takes the semicolon behind a statement. Any token that may not stand in its place is looked up. -/
def terminator : IndexedParser Bool := do
  match ← peek with
  | none => return true
  | some (.delimiter .semicolon) =>
    advance
    return false
  | some (.delimiter .closeBrace) => return false
  | some _ => reject (.delimiter .semicolon) (← current)

/-- What an assignment changes. Where it can change nothing, the token at its start is looked up. -/
def target (e : Expr) (start : Nat) : IndexedParser Target :=
  match Parser.Target.ofExpr? e with
  | some target => return target
  | none => do
    let t ← tokenAt start
    fail (.invalidTarget t.position)

/-- An `if` statement behind its keyword. -/
def ifFrom (block : IndexedParser (List Stmt)) : (rounds : Nat) → IndexedParser Stmt
  | 0 => tooDeep
  | rounds + 1 => do
    let condition ← expression
    let body ← block
    match ← peek with
    | some (.keyword .elseWord) =>
      advance
      match ← peek with
      | some (.keyword .ifWord) =>
        advance
        let chained ← nested (ifFrom block rounds)
        return .ifElse condition body [chained]
      | _ => return .ifElse condition body (← block)
    | _ => return .ifThen condition body

/-- A statement without a keyword, and whether it is an expression that nothing closes. -/
def unmarked : IndexedParser (Stmt × Bool) := do
  let start := (← get).next
  let e ← expression
  match ← peek with
  | some (.operator .assign) =>
    advance
    let target ← target e start
    let value ← expression
    discard terminator
    return (.assign target value, false)
  | _ => return (.evaluate e, ← terminator)

/-- A statement, and whether it is an expression that nothing closes. -/
def statement (block : IndexedParser (List Stmt)) : IndexedParser (Stmt × Bool) := do
  match ← peek with
  | some (.keyword .letWord) =>
    advance
    let name ← name
    let t ← next
    match t.token with
    | .operator .assign =>
      let value ← expression
      discard terminator
      return (.declare name value, false)
    | _ => reject .equalSign t
  | some (.keyword .ifWord) =>
    advance
    return (← ifFrom block Parser.maxRounds, false)
  | some (.keyword .whileWord) =>
    advance
    let condition ← expression
    return (.whileLoop condition (← block), false)
  | some (.delimiter .semicolon) =>
    advance
    return (.evaluate (.literal .null), false)
  | _ => unmarked

/-- The statements of a block behind its opening brace, one round for each. -/
def blockFrom (block : IndexedParser (List Stmt)) (found : List Stmt) :
    (rounds : List PlacedToken) → IndexedParser (List Stmt)
  | [] => fail .unexpectedEnd
  | _ :: rounds => do
    if ← eat .closeBrace then return found.reverse
    match ← peek with
    | none => fail .unexpectedEnd
    | some _ =>
      let (s, _) ← statement block
      blockFrom block (s :: found) rounds

/-- A block with at most `levels` others around its parts. -/
def blockWithin : (levels : Nat) → IndexedParser (List Stmt)
  | 0 => do
    expect .openBrace
    tooDeep
  | levels + 1 => do
    expect .openBrace
    nested do
      blockFrom (blockWithin levels) [] (← remaining)

/-- A block. -/
def block : IndexedParser (List Stmt) :=
  blockWithin (maxDepth + 1)

/-- The statements of a program, one round for each. -/
def programFrom (found : List Stmt) : (rounds : List PlacedToken) → IndexedParser Program
  | [] => return { statements := found.reverse, result := none }
  | _ :: rounds => do
    match ← peek with
    | none => return { statements := found.reverse, result := none }
    | some _ =>
      match ← statement block with
      | (.evaluate e, true) => return { statements := found.reverse, result := some e }
      | (s, _) => programFrom (s :: found) rounds

end IndexedParser

/-- The program that some tokens spell, read by index. -/
def Program.ofIndexedTokens (tokens : List PlacedToken) :
    Except Fault (Except ParseError Program) :=
  (IndexedParser.programFrom [] tokens).run tokens |>.run' .start

end ReplDaemon.Script
