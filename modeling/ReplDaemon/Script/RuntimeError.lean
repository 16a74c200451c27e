import ReplDaemon.Script.Program
import ReplDaemon.Script.Token
import ReplDaemon.Value.Depth

/-!
# Errors of running programs
-/

namespace ReplDaemon.Script

/-- The functions of the language. -/
inductive Builtin where
  | print
  | eprint
  | len
  | str
  | type
  | range
  | push
  | keys
  | chr
  | ord
  | error
  | sleep
  | block
  deriving Repr, DecidableEq

/-- The name of a function. -/
def Builtin.name : Builtin → String
  | .print => "print"
  | .eprint => "eprint"
  | .len => "len"
  | .str => "str"
  | .type => "type"
  | .range => "range"
  | .push => "push"
  | .keys => "keys"
  | .chr => "chr"
  | .ord => "ord"
  | .error => "error"
  | .sleep => "sleep"
  | .block => "block"

/-- All functions. -/
def Builtin.all : List Builtin :=
  [.print, .eprint, .len, .str, .type, .range, .push, .keys, .chr, .ord, .error, .sleep, .block]

/-- The function with a given name. -/
def Builtin.ofName? (name : String) : Option Builtin :=
  all.find? (·.name == name)

/-- The longest list that `range` builds. -/
def maxRangeLength : Nat := 1000000

/-- The spelling of an operator between two operands that computes. -/
def Arithmetic.text : Arithmetic → String
  | .add => "+"
  | .subtract => "-"
  | .multiply => "*"
  | .divide => "/"
  | .remainder => "%"

/-- The spelling of an operator in front of an operand. -/
def UnaryOp.text : UnaryOp → String
  | .negate => "-"
  | .not => "!"

/-- Why a running program stops with an error. Types are given by name, offending values by their
plain text. -/
inductive RuntimeError where
  | undefinedVariable (name : String)
  | unknownFunction (name : String)
  | integerOverflow
  | divisionByZero
  | cannotApplyTo (op : UnaryOp) (type : String)
  | cannotApply (op : Arithmetic) (left right : String)
  | cannotCompare (left right : String)
  | indexOutOfRange (index : Int64) (length : Nat)
  | cannotIndexWith (type : String)
  | cannotIndexInto (type : String)
  | cannotAssignInto (type : String)
  | keyNotFound (key : String)
  | nestedTooDeep
  | wrongArity (function : Builtin) (expected given : Nat)
  | wrongOperand (function : Builtin) (type : String)
  | rangeArguments
  | rangeTooLong
  | invalidCodePoint (code : Int64)
  | invalidDuration (function : Builtin) (value : String)
  | raised (message : String)
  deriving Repr, DecidableEq

/-- The wording of an error. -/
def RuntimeError.message : RuntimeError → String
  | .undefinedVariable n => s!"undefined variable {codeText n}"
  | .unknownFunction n => s!"unknown function {codeText n}"
  | .integerOverflow => "integer overflow"
  | .divisionByZero => "division by zero"
  | .cannotApplyTo op t => s!"cannot apply {codeText op.text} to {t}"
  | .cannotApply op a b => s!"cannot apply {codeText op.text} to {a} and {b}"
  | .cannotCompare a b => s!"cannot compare {a} and {b}"
  | .indexOutOfRange i n => s!"index {i.toInt} out of range for length {n}"
  | .cannotIndexWith t => s!"cannot index with {t}"
  | .cannotIndexInto t => s!"cannot index into {t}"
  | .cannotAssignInto t => s!"cannot assign into {t}"
  | .keyNotFound k => s!"key {k} not found"
  | .nestedTooDeep => s!"values nested deeper than {Value.maxNesting} levels"
  | .wrongArity f expected given =>
    s!"{codeText f.name} takes {expected} argument(s), got {given}"
  | .wrongOperand .push t => s!"{codeText Builtin.push.name} onto {t}"
  | .wrongOperand f t => s!"{codeText f.name} of {t}"
  | .rangeArguments => s!"{codeText Builtin.range.name} expects one or two ints"
  | .rangeTooLong => s!"{codeText Builtin.range.name} longer than {maxRangeLength}"
  | .invalidCodePoint code => s!"invalid code point {code.toInt}"
  | .invalidDuration f v => s!"{codeText f.name} expects a non-negative int, got {v}"
  | .raised m => m

end ReplDaemon.Script
