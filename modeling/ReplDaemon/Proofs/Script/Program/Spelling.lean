import ReplDaemon.Script.Program.Parser

/-!
# Programs spelt out

A program is spelt with a semicolon behind every statement that takes one, with braces around every
alternative, and with parentheses only where an operand binds more loosely than its place allows. How
deep a reader of these tokens descends is the need of the program.
-/

namespace ReplDaemon.Script

/-- The token of a literal. -/
def Literal.token : Literal → Token
  | .null => .keyword .nullWord
  | .bool true => .keyword .trueWord
  | .bool false => .keyword .falseWord
  | .int i => .int i
  | .float x => .float x
  | .text s => .text s
  | .char c => .char c

/-- The spelling of a unary operator. -/
def UnaryOp.operator : UnaryOp → Operator
  | .negate => .minus
  | .not => .not

/-- The spelling of a binary operator. -/
def BinaryOp.operator : BinaryOp → Operator
  | .or => .or
  | .and => .and
  | .equal => .equalEqual
  | .notEqual => .notEqual
  | .compare .less => .less
  | .compare .lessEqual => .lessEqual
  | .compare .greater => .greater
  | .compare .greaterEqual => .greaterEqual
  | .arithmetic .add => .plus
  | .arithmetic .subtract => .minus
  | .arithmetic .multiply => .times
  | .arithmetic .divide => .divide
  | .arithmetic .remainder => .percent

@[simp] theorem UnaryOp.ofOperator?_operator (op : UnaryOp) : ofOperator? op.operator = some op := by
  cases op <;> rfl

@[simp] theorem BinaryOp.ofOperator?_operator (op : BinaryOp) :
    ofOperator? op.operator = some op := by
  rcases op with _ | _ | _ | _ | (_ | _ | _ | _) | (_ | _ | _ | _ | _) <;> rfl

theorem BinaryOp.looseness_pos (op : BinaryOp) : 0 < op.looseness := by
  rcases op with _ | _ | _ | _ | (_ | _ | _ | _) | (_ | _ | _ | _ | _) <;> decide

theorem BinaryOp.looseness_le (op : BinaryOp) : op.looseness ≤ loosest := by
  rcases op with _ | _ | _ | _ | (_ | _ | _ | _) | (_ | _ | _ | _ | _) <;> decide

/-- How loosely the parts of an expression hold together: not at all where it can be indexed, 1 for a
unary operator, and more than its operator's looseness for a binary one. -/
def Expr.level : Expr → Nat
  | .unary _ _ => 1
  | .binary op _ _ => op.looseness + 1
  | _ => 0

/-- The level up to which a whole expression may go. -/
def topLevel : Nat := BinaryOp.loosest + 1

theorem Expr.level_le (e : Expr) : e.level ≤ topLevel := by
  cases e with
  | binary op l r => exact Nat.succ_le_succ op.looseness_le
  | _ => simp [level, topLevel]

/-- Tokens of something of a level in a place that allows another one. -/
def enclosed (allowed level : Nat) (tokens : List Token) : List Token :=
  if level ≤ allowed then tokens
  else .delimiter .openParen :: tokens ++ [.delimiter .closeParen]

/-- Items with commas between them. -/
def commaSeparated : List (List Token) → List Token
  | [] => []
  | [item] => item
  | item :: next :: rest => item ++ .delimiter .comma :: commaSeparated (next :: rest)

mutual

/-- The tokens of an expression. -/
def Expr.tokens : Expr → List Token
  | .literal l => [l.token]
  | .var name => [.identifier name]
  | .list items =>
    .delimiter .openBracket :: commaSeparated (Expr.itemTokens items) ++ [.delimiter .closeBracket]
  | .map entries =>
    .delimiter .openMap :: commaSeparated (Expr.entryTokens entries) ++ [.delimiter .closeBrace]
  | .unary op e => .operator op.operator :: enclosed 1 e.level e.tokens
  | .binary op lhs rhs =>
    enclosed (op.looseness + 1) lhs.level lhs.tokens ++
      .operator op.operator :: enclosed op.looseness rhs.level rhs.tokens
  | .call name arguments =>
    .identifier name :: .delimiter .openParen :: commaSeparated (Expr.itemTokens arguments) ++
      [.delimiter .closeParen]
  | .index base position =>
    enclosed 0 base.level base.tokens ++
      .delimiter .openBracket :: position.tokens ++ [.delimiter .closeBracket]

/-- The tokens of each of several expressions. -/
def Expr.itemTokens : List Expr → List (List Token)
  | [] => []
  | e :: rest => e.tokens :: Expr.itemTokens rest

/-- The tokens of each entry of a map. -/
def Expr.entryTokens : List (Expr × Expr) → List (List Token)
  | [] => []
  | (key, value) :: rest =>
    (key.tokens ++ .delimiter .colon :: value.tokens) :: Expr.entryTokens rest

end

-- A chain leans to the left, so only the right operand stands in parentheses.
example :
    (Expr.binary (.arithmetic .subtract)
      (.binary (.arithmetic .subtract) (.var "a") (.var "b"))
      (.binary (.arithmetic .subtract) (.var "c") (.var "d"))).tokens =
      [.identifier "a", .operator .minus, .identifier "b", .operator .minus, .delimiter .openParen,
        .identifier "c", .operator .minus, .identifier "d", .delimiter .closeParen] := rfl

/-- The tokens of an expression in a place that allows a level. -/
def Expr.tokensIn (allowed : Nat) (e : Expr) : List Token :=
  enclosed allowed e.level e.tokens

/-- The links of the chain of operators of one looseness that an expression is. -/
def Expr.links (looseness : Nat) : Expr → Nat
  | .binary op lhs _ => if op.looseness = looseness then lhs.links looseness + 1 else 0
  | _ => 0

/-- The indices behind what an expression indexes first. -/
def Expr.indices : Expr → Nat
  | .index base _ => base.indices + 1
  | _ => 0

/-- The levels that something in a place needs. -/
def needWithin (allowed level need : Nat) : Nat :=
  if level ≤ allowed then need else need + 1

mutual

/-- How many levels a reader of the tokens of an expression descends below it. -/
def Expr.need : Expr → Nat
  | .literal _ => 0
  | .var _ => 0
  | .list items => Expr.itemNeed items
  | .map entries => Expr.entryNeed entries
  | .unary _ e => needWithin 1 e.level e.need + 1
  | .binary op lhs rhs =>
    max (needWithin (op.looseness + 1) lhs.level lhs.need)
      (lhs.links op.looseness + 1 + needWithin op.looseness rhs.level rhs.need)
  | .call _ arguments => Expr.itemNeed arguments
  | .index base position =>
    max (needWithin 0 base.level base.need) (base.indices + 1 + (position.need + 1))

/-- The levels that the items of a list need. -/
def Expr.itemNeed : List Expr → Nat
  | [] => 0
  | e :: rest => max (e.need + 1) (Expr.itemNeed rest)

/-- The levels that the entries of a map need. -/
def Expr.entryNeed : List (Expr × Expr) → Nat
  | [] => 0
  | (key, value) :: rest => max (max (key.need + 1) (value.need + 1)) (Expr.entryNeed rest)

end

/-- The levels that an expression needs in a place. -/
def Expr.needIn (allowed : Nat) (e : Expr) : Nat :=
  needWithin allowed e.level e.need

/-- What an assignment changes, as an expression. -/
def Target.expr : Target → Expr
  | .variable name => .var name
  | .element name position => .index (.var name) position

mutual

/-- The tokens of a statement. -/
def Stmt.tokens : Stmt → List Token
  | .declare name value =>
    .keyword .letWord :: .identifier name :: .operator .assign :: value.tokens ++
      [.delimiter .semicolon]
  | .assign target value =>
    target.expr.tokens ++ .operator .assign :: value.tokens ++ [.delimiter .semicolon]
  | .ifThen condition body =>
    .keyword .ifWord :: condition.tokens ++
      .delimiter .openBrace :: Stmt.allTokens body ++ [.delimiter .closeBrace]
  | .ifElse condition body alternative =>
    .keyword .ifWord :: condition.tokens ++
      .delimiter .openBrace :: Stmt.allTokens body ++ .delimiter .closeBrace ::
        .keyword .elseWord ::
          .delimiter .openBrace :: Stmt.allTokens alternative ++ [.delimiter .closeBrace]
  | .whileLoop condition body =>
    .keyword .whileWord :: condition.tokens ++
      .delimiter .openBrace :: Stmt.allTokens body ++ [.delimiter .closeBrace]
  | .evaluate e => e.tokens ++ [.delimiter .semicolon]

/-- The tokens of several statements. -/
def Stmt.allTokens : List Stmt → List Token
  | [] => []
  | s :: rest => s.tokens ++ Stmt.allTokens rest

end

mutual

/-- How many levels a reader of the tokens of a statement descends. -/
def Stmt.need : Stmt → Nat
  | .declare _ value => value.need + 1
  | .assign target value => max (target.expr.need + 1) (value.need + 1)
  | .ifThen condition body => max (condition.need + 1) (Stmt.allNeed body + 1)
  | .ifElse condition body alternative =>
    max (max (condition.need + 1) (Stmt.allNeed body + 1)) (Stmt.allNeed alternative + 1)
  | .whileLoop condition body => max (condition.need + 1) (Stmt.allNeed body + 1)
  | .evaluate e => e.need + 1

/-- The levels that several statements need. -/
def Stmt.allNeed : List Stmt → Nat
  | [] => 0
  | s :: rest => max s.need (Stmt.allNeed rest)

end

/-- The tokens of the result of a program, which nothing closes. -/
def resultTokens (result : Option Expr) : List Token :=
  result.elim [] Expr.tokens

/-- The levels that the result of a program needs. -/
def resultNeed (result : Option Expr) : Nat :=
  result.elim 0 (·.need + 1)

/-- The tokens of a program. -/
def Program.tokens (p : Program) : List Token :=
  Stmt.allTokens p.statements ++ resultTokens p.result

/-- How many levels a reader of the tokens of a program descends. -/
def Program.need (p : Program) : Nat :=
  max (Stmt.allNeed p.statements) (resultNeed p.result)

end ReplDaemon.Script
