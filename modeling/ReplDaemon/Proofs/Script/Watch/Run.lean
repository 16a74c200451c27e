import ReplDaemon.Proofs.Script.Effects
import ReplDaemon.Proofs.Script.Watch.Operation

/-!
# Watched runs

The meaning of expressions, statements and programs once more, under watch: the value of every
expression is noted as soon as it is known, also of those inside others, and every operation that is not
defined everywhere is applied as such. A watched run that comes to what is not defined ends with that
fault.
-/

namespace ReplDaemon.Script

/-- Why a watched run stops before its end. -/
inductive Halt where
  | stop (s : Stop)
  | fault (f : Fault)

/-- What is done under watch: it comes to a value or halts, and leaves a state and the values noted so
far, first one first. -/
abbrev Watch (S α : Type) := ExceptT Halt (StateM (S × List Value)) α

namespace Watch

variable {S α : Type}

/-- Something that evaluates no expression and is defined everywhere. -/
def of (r : ExceptT Stop (StateM S) α) : Watch S α :=
  fun (s, noted) => match r s with
    | (.ok a, s) => (.ok a, (s, noted))
    | (.error e, s) => (.error (.stop e), (s, noted))

/-- An operation that may not be defined. -/
def ofAttempt (x : Attempt α) : Watch S α :=
  match x.run with
  | .error f => throw (.fault f)
  | .ok (.error e) => throw (.stop (.failed e))
  | .ok (.ok a) => pure a

/-- Notes the value that an evaluation comes to. -/
def noting (r : Watch S Value) : Watch S Value := do
  let v ← r
  modify fun (s, noted) => (s, noted ++ [v])
  return v

/-- Prints a line. -/
def printLine (s : String) : Watch Context Unit :=
  fun (c, noted) => match c.output.writeLineCut s with
    | .error f => (.error (.fault f), (c, noted))
    | .ok output => (.ok (), ({ c with output }, noted))

/-- Sleeps for some milliseconds, unless cancelled. -/
def sleepFor (time : Nat) : Watch Context Unit :=
  fun (c, noted) => match sleepSlices c.clock (time * millisecond) c with
    | .error f => (.error (.fault f), (c, noted))
    | .ok (true, c) => (.ok (), (c, noted))
    | .ok (false, c) => (.error (.stop .cancelled), (c, noted))

end Watch

/-- A call of a function under watch. -/
def Builtin.watched (f : Builtin) (arguments : List Value) : Watch Context Value :=
  match f with
  | .print | .eprint => do
    Watch.printLine (joined arguments)
    return .null
  | .range | .push | .error => .of (f.call arguments)
  | .sleep => do
    let v ← .ofAttempt (onlyArgument .sleep arguments)
    let time ← .ofAttempt (.of (duration .sleep v))
    Watch.sleepFor time
    return .null
  | .len | .str | .type | .keys | .chr | .ord | .block => do
    let v ← .ofAttempt (onlyArgument f arguments)
    .of (f.call [v])

/-- A call by name under watch. -/
def callWatched (name : String) (arguments : List Value) : Watch Context Value :=
  match Builtin.ofName? name with
  | some f => f.watched arguments
  | none => .of (Run.fail (.unknownFunction name))

mutual

/-- The meaning of an expression under watch. -/
def Expr.watched (vars : Bindings) : Expr → Watch Context Value
  | .literal l => .noting (pure l.value)
  | .var name => .noting <|
    match vars.find? name with
    | some v => pure v
    | none => .of (Run.fail (.undefinedVariable name))
  | .list items => .noting do
    return .list (← itemsWatched vars [] items)
  | .map entries => .noting do
    return .map (← entriesWatched vars [] entries)
  | .unary op operand => .noting do
    .ofAttempt (.of (op.apply (← operand.watched vars)))
  | .binary .and lhs rhs => .noting do
    if (← lhs.watched vars).truthy then return .bool (← rhs.watched vars).truthy
    else return .bool false
  | .binary .or lhs rhs => .noting do
    if (← lhs.watched vars).truthy then return .bool true
    else return .bool (← rhs.watched vars).truthy
  | .binary op lhs rhs => .noting do
    let a ← lhs.watched vars
    let b ← rhs.watched vars
    .ofAttempt (op.applyAt a b)
  | .index base position => .noting do
    let base ← base.watched vars
    let position ← position.watched vars
    .ofAttempt (lookupAt base position)
  | .call name arguments => .noting do
    callWatched name (← argumentsWatched vars [] arguments)

/-- The items of a list under watch. -/
def itemsWatched (vars : Bindings) (found : List Value) : List Expr → Watch Context (List Value)
  | [] => return found.reverse
  | e :: es => do
    let v ← .ofAttempt (.of (nestable (← e.watched vars)))
    itemsWatched vars (v :: found) es

/-- The entries of a map under watch. -/
def entriesWatched (vars : Bindings) (entries : List (Value × Value)) :
    List (Expr × Expr) → Watch Context (List (Value × Value))
  | [] => return entries
  | (k, e) :: es => do
    let key ← k.watched vars
    let value ← e.watched vars
    let value ← .ofAttempt (.of (nestable value))
    entriesWatched vars (← .ofAttempt (.of (assignKey entries key value))) es

/-- The arguments of a call under watch. -/
def argumentsWatched (vars : Bindings) (found : List Value) :
    List Expr → Watch Context (List Value)
  | [] => return found.reverse
  | e :: es => do
    let v ← e.watched vars
    argumentsWatched vars (v :: found) es

end

/-- Something under watch that leaves the variables alone. -/
def Watch.ofRun {α : Type} (r : Bindings → Watch Context α) : Watch World α :=
  fun (w, noted) =>
    let (outcome, context, noted) := r w.vars (w.context, noted)
    (outcome, { w with context }, noted)

/-- Repeats a body under watch, behind a checkpoint, for as long as a condition holds. -/
def repeatWatched (condition : Watch World Bool) (body : Watch World Unit) :
    (rounds : Nat) → Watch World Unit
  | 0 => .of (throw .endless)
  | rounds + 1 => do
    if ← condition then
      Watch.ofRun fun _ => .of checkpoint
      body
      repeatWatched condition body rounds

/-- Whether a condition holds, under watch. -/
def Expr.holdsWatched (e : Expr) : Watch World Bool := do
  return (← .ofRun (e.watched ·)).truthy

mutual

/-- The meaning of a statement under watch. -/
def Stmt.watched (rounds : Nat) : Stmt → Watch World Unit
  | .declare name e => do
    let v ← .ofRun (e.watched ·)
    .of (bindName name v)
  | .assign (.variable name) e => do
    discard (Watch.of (bindingOf? name))
    let v ← .ofRun (e.watched ·)
    .of (bindName name v)
  | .assign (.element name position) e => do
    let i ← .ofRun (position.watched ·)
    let v ← .ofRun (e.watched ·)
    let container ← .of (bindingOf? name)
    let container ← .ofRun fun _ => .ofAttempt (assignElementAt container i v)
    .of (bindName name container)
  | .ifThen condition body => do
    if ← condition.holdsWatched then allWatched rounds body
  | .ifElse condition body alternative => do
    if ← condition.holdsWatched then allWatched rounds body else allWatched rounds alternative
  | .whileLoop condition body =>
    repeatWatched condition.holdsWatched (allWatched rounds body) rounds
  | .evaluate e => discard (Watch.ofRun (e.watched ·))

/-- The meaning of statements in a row under watch. -/
def allWatched (rounds : Nat) : List Stmt → Watch World Unit
  | [] => return ()
  | s :: ss => do
    Watch.ofRun fun _ => .of checkpoint
    s.watched rounds
    allWatched rounds ss

end

/-- The value that an expression at the end of a program produces, under watch. -/
def Expr.resultWatched (e : Expr) : Watch World (Option Value) := do
  let v ← .ofRun (e.watched ·)
  match e with
  | .call name _ => return if (Builtin.ofName? name).any (·.isVoid) then none else some v
  | _ => return some v

/-- The meaning of a program under watch. -/
def Program.watched (rounds : Nat) (p : Program) : Watch World (Option Value) := do
  allWatched rounds p.statements
  match p.result with
  | none => return none
  | some e =>
    Watch.ofRun fun _ => .of checkpoint
    e.resultWatched

end ReplDaemon.Script
