import ReplDaemon.Value.Basic

/-!
# Programs of the script language

The syntax tree. What the grammar rules out cannot be written down: a literal is a scalar, an
assignment goes to a name or to one of its elements, and only a whole program has a result, the
expression that it ends with when nothing closes it.
-/

namespace ReplDaemon.Script

/-- A scalar written out in a program. -/
inductive Literal where
  | null
  | bool (b : Bool)
  | int (i : Int64)
  | float (x : Float)
  | text (s : String)
  | char (c : Char)

/-- The value of a literal. -/
def Literal.value : Literal → Value
  | .null => .null
  | .bool b => .bool b
  | .int i => .int i
  | .float x => .float x
  | .text s => .text s
  | .char c => .char c

/-- The operators in front of an operand. -/
inductive UnaryOp where
  | negate
  | not
  deriving Repr, DecidableEq

/-- The operators that compute. -/
inductive Arithmetic where
  | add
  | subtract
  | multiply
  | divide
  | remainder
  deriving Repr, DecidableEq

/-- The operators that ask for an order. -/
inductive Comparison where
  | less
  | lessEqual
  | greater
  | greaterEqual
  deriving Repr, DecidableEq

/-- The operators between two operands. -/
inductive BinaryOp where
  | or
  | and
  | equal
  | notEqual
  | compare (c : Comparison)
  | arithmetic (a : Arithmetic)
  deriving Repr, DecidableEq

/-- Expressions. -/
inductive Expr where
  | literal (l : Literal)
  | var (name : String)
  | list (items : List Expr)
  | map (entries : List (Expr × Expr))
  | unary (op : UnaryOp) (operand : Expr)
  | binary (op : BinaryOp) (lhs rhs : Expr)
  | call (name : String) (arguments : List Expr)
  | index (base position : Expr)
  deriving Inhabited

/-- What an assignment changes: a variable, or the element of its value at an index. -/
inductive Target where
  | variable (name : String)
  | element (name : String) (position : Expr)

/-- Statements. -/
inductive Stmt where
  | declare (name : String) (value : Expr)
  | assign (target : Target) (value : Expr)
  | ifThen (condition : Expr) (body : List Stmt)
  | ifElse (condition : Expr) (body alternative : List Stmt)
  | whileLoop (condition : Expr) (body : List Stmt)
  | evaluate (e : Expr)
  deriving Inhabited

/-- A program: statements, and the expression that gives its result if it ends with one. -/
structure Program where
  statements : List Stmt
  result : Option Expr

end ReplDaemon.Script
