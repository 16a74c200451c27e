import ReplDaemon.Evaluation.Context
import ReplDaemon.Script.Bindings
import ReplDaemon.Script.Operation

/-!
# Running programs

The meaning of expressions, statements and programs. An expression reads the variables and may use
the context: it can print, and it can take time. A statement may change variables as well. Before
every statement of a program or block, and before every round of a loop, a checkpoint looks whether
the evaluation has been cancelled.

`rounds` bounds how often the condition of any one loop is tested. A run that would need more is
`endless`; whatever a run comes to otherwise it comes to with any greater bound as well.
-/

namespace ReplDaemon.Script

/-- Why a run stops before its end. -/
inductive Stop where
  | cancelled
  | failed (e : RuntimeError)
  | endless
  deriving Repr, DecidableEq

/-- What an expression does: it comes to a value or stops, and leaves a context in either case. -/
abbrev Run (α : Type) := ExceptT Stop (StateM Context) α

/-- Stops with an error. -/
def Run.fail {α : Type} (e : RuntimeError) : Run α :=
  throw (.failed e)

/-- Takes over the outcome of an operation. -/
def Run.ofExcept {α : Type} : Except RuntimeError α → Run α
  | .ok a => pure a
  | .error e => .fail e

/-- Stops if the evaluation has been cancelled, and else takes a moment. -/
def checkpoint : Run Unit := do
  let c ← get
  if c.cancelled then throw .cancelled
  set (c.wait 1)

/-- Sleeps for some milliseconds, unless cancelled. -/
def sleepFor (time : Nat) : Run Unit := do
  let c ← get
  if c.cancelled then throw .cancelled
  let (completed, c) := c.sleep (time * millisecond)
  set c
  unless completed do throw .cancelled

/-- Plain texts with blanks between them. -/
def joined (values : List Value) : String :=
  " ".intercalate (values.map Value.plain)

/-- A duration in milliseconds. -/
def duration (f : Builtin) : Value → Except RuntimeError Nat
  | .int i => if 0 ≤ i.toInt then .ok i.toInt.toNat else .error (.invalidDuration f (toString i.toInt))
  | v => .error (.invalidDuration f v.plain)

/-- The integers from `first` to below `limit`. -/
def rangeList (first limit : Int64) : Except RuntimeError Value :=
  let length := limit.toInt - first.toInt
  if maxRangeLength < length then .error .rangeTooLong
  else .ok (.list ((List.range length.toNat).map fun k : Nat => .int (.ofInt (first.toInt + k))))

/-- The length of a string, list or map. -/
def lengthOf : Value → Except RuntimeError Value
  | .text s => .ok (.int (.ofNat s.length))
  | .list items => .ok (.int (.ofNat items.length))
  | .map entries => .ok (.int (.ofNat entries.length))
  | v => .error (.wrongOperand .len v.typeName)

/-- The character with a given code point. -/
def characterAt (code : Int64) : Except RuntimeError Value :=
  if h : 0 ≤ code.toInt ∧ code.toInt.toNat.isValidChar then
    .ok (.char (.ofNatAux code.toInt.toNat h.2))
  else .error (.invalidCodePoint code)

/-- A call of a function. -/
def Builtin.call (f : Builtin) (arguments : List Value) : Run Value :=
  match f, arguments with
  | .print, arguments | .eprint, arguments => do
    modify (·.printLine (joined arguments))
    return .null
  | .len, [v] => .ofExcept (lengthOf v)
  | .str, [v] => return .text v.plain
  | .type, [v] => return .text v.typeName
  | .range, [.int limit] => .ofExcept (rangeList 0 limit)
  | .range, [.int first, .int limit] => .ofExcept (rangeList first limit)
  | .range, _ => .fail .rangeArguments
  | .push, [.list items, item] => do
    let item ← .ofExcept (nestable item)
    return .list (items ++ [item])
  | .push, [v, _] => .fail (.wrongOperand .push v.typeName)
  | .push, arguments => .fail (.wrongArity .push 2 arguments.length)
  | .keys, [.map entries] => return .list (entries.map (·.1))
  | .keys, [v] => .fail (.wrongOperand .keys v.typeName)
  | .chr, [.int code] => .ofExcept (characterAt code)
  | .chr, [v] => .fail (.wrongOperand .chr v.typeName)
  | .ord, [.char c] => return .int (.ofNat c.toNat)
  | .ord, [v] => .fail (.wrongOperand .ord v.typeName)
  | .error, arguments => .fail (.raised (joined arguments))
  | .sleep, [v] => do
    sleepFor (← .ofExcept (duration .sleep v))
    return .null
  | .block, [v] => do
    let time ← .ofExcept (duration .block v)
    modify (·.wait (time * millisecond))
    return .null
  | f, arguments => .fail (.wrongArity f 1 arguments.length)

/-- A call by name. -/
def call (name : String) (arguments : List Value) : Run Value :=
  match Builtin.ofName? name with
  | some f => f.call arguments
  | none => .fail (.unknownFunction name)

/-- Whether a function is called for its effect alone. -/
def Builtin.isVoid : Builtin → Bool
  | .print | .eprint | .sleep | .block => true
  | _ => false

mutual

/-- The meaning of an expression. -/
def Expr.run (vars : Bindings) : Expr → Run Value
  | .literal l => return l.value
  | .var name =>
    match vars.find? name with
    | some v => return v
    | none => .fail (.undefinedVariable name)
  | .list items => return .list (← runItems vars [] items)
  | .map entries => return .map (← runEntries vars [] entries)
  | .unary op operand => do .ofExcept (op.apply (← operand.run vars))
  | .binary .and lhs rhs => do
    if (← lhs.run vars).truthy then return .bool (← rhs.run vars).truthy
    else return .bool false
  | .binary .or lhs rhs => do
    if (← lhs.run vars).truthy then return .bool true
    else return .bool (← rhs.run vars).truthy
  | .binary .equal lhs rhs => do
    let a ← lhs.run vars
    let b ← rhs.run vars
    return .bool (a == b)
  | .binary .notEqual lhs rhs => do
    let a ← lhs.run vars
    let b ← rhs.run vars
    return .bool (a != b)
  | .binary (.compare op) lhs rhs => do
    let a ← lhs.run vars
    let b ← rhs.run vars
    .ofExcept (op.apply a b)
  | .binary (.arithmetic op) lhs rhs => do
    let a ← lhs.run vars
    let b ← rhs.run vars
    .ofExcept (op.apply a b)
  | .index base position => do
    let base ← base.run vars
    let position ← position.run vars
    .ofExcept (lookup base position)
  | .call name arguments => do call name (← runArguments vars [] arguments)

/-- The items of a list, in order; `found` holds those before them, last one first. -/
def runItems (vars : Bindings) (found : List Value) : List Expr → Run (List Value)
  | [] => return found.reverse
  | e :: es => do
    let v ← .ofExcept (nestable (← e.run vars))
    runItems vars (v :: found) es

/-- The entries of a map, set one after the other on top of `entries`. -/
def runEntries (vars : Bindings) (entries : List (Value × Value)) :
    List (Expr × Expr) → Run (List (Value × Value))
  | [] => return entries
  | (k, e) :: es => do
    let key ← k.run vars
    let value ← e.run vars
    let value ← .ofExcept (nestable value)
    runEntries vars (← .ofExcept (assignKey entries key value)) es

/-- The arguments of a call, in order; `found` holds those before them, last one first. -/
def runArguments (vars : Bindings) (found : List Value) : List Expr → Run (List Value)
  | [] => return found.reverse
  | e :: es => do
    let v ← e.run vars
    runArguments vars (v :: found) es

end

/-- The variables of a session and the context of an evaluation. -/
structure World where
  vars : Bindings
  context : Context

/-- What a statement does: it ends or stops, and leaves a world in either case. -/
abbrev Action (α : Type) := ExceptT Stop (StateM World) α

/-- Something that leaves the variables alone. -/
def Action.ofRun {α : Type} (r : Bindings → Run α) : Action α :=
  fun w =>
    let (outcome, context) := r w.vars w.context
    (outcome, { w with context })

/-- Binds a name. -/
def bindName (name : String) (value : Value) : Action Unit :=
  modify fun w => { w with vars := w.vars.set name value }

/-- The value of a variable that has to exist. -/
def bindingOf? (name : String) : Action Value := do
  match (← get).vars.find? name with
  | some v => return v
  | none => throw (.failed (.undefinedVariable name))

/-- Repeats a body, behind a checkpoint, for as long as a condition holds. -/
def repeatWhile (condition : Action Bool) (body : Action Unit) : (rounds : Nat) → Action Unit
  | 0 => throw .endless
  | rounds + 1 => do
    if ← condition then
      .ofRun fun _ => checkpoint
      body
      repeatWhile condition body rounds

/-- Whether a condition holds. -/
def Expr.holds (e : Expr) : Action Bool := do
  return (← .ofRun (e.run ·)).truthy

mutual

/-- The meaning of a statement. -/
def Stmt.run (rounds : Nat) : Stmt → Action Unit
  | .declare name e => do
    let v ← .ofRun (e.run ·)
    bindName name v
  | .assign (.variable name) e => do
    discard (bindingOf? name)
    let v ← .ofRun (e.run ·)
    bindName name v
  | .assign (.element name position) e => do
    let i ← .ofRun (position.run ·)
    let v ← .ofRun (e.run ·)
    let container ← bindingOf? name
    let container ← .ofRun fun _ => .ofExcept (assignElement container i v)
    bindName name container
  | .ifThen condition body => do
    if ← condition.holds then runAll rounds body
  | .ifElse condition body alternative => do
    if ← condition.holds then runAll rounds body else runAll rounds alternative
  | .whileLoop condition body => repeatWhile condition.holds (runAll rounds body) rounds
  | .evaluate e => discard (Action.ofRun (e.run ·))

/-- The meaning of statements in a row, each behind a checkpoint. -/
def runAll (rounds : Nat) : List Stmt → Action Unit
  | [] => return ()
  | s :: ss => do
    .ofRun fun _ => checkpoint
    s.run rounds
    runAll rounds ss

end

/-- The value that an expression at the end of a program produces: none where a function is called
for its effect alone. -/
def Expr.result (e : Expr) : Action (Option Value) := do
  let v ← .ofRun (e.run ·)
  match e with
  | .call name _ => return if (Builtin.ofName? name).any (·.isVoid) then none else some v
  | _ => return some v

/-- The meaning of a program: perhaps a value. -/
def Program.run (rounds : Nat) (p : Program) : Action (Option Value) := do
  runAll rounds p.statements
  match p.result with
  | none => return none
  | some e =>
    .ofRun fun _ => checkpoint
    e.result

end ReplDaemon.Script
