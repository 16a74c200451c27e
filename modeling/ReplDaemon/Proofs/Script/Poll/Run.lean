import ReplDaemon.Proofs.Script.Passage

/-!
# Runs that are told of a cancellation

The meaning of expressions, statements and programs once more, with every look for a cancellation as a
step of its own. What a look is told comes from outside: it may depend on how many looks there were before
and on the time, and on nothing that the run knows of otherwise. A sleeper looks before every slice and
when the time is over. What a look sees is put down, and so is every statement, and every body of a loop,
that begins.
-/

namespace ReplDaemon.Script

/-- What there is at a moment of an evaluation, but for its cancellation. -/
structure Snapshot where
  vars : Bindings
  output : Capture
  clock : Instant

/-- The world at a moment of an evaluation that is cancelled at some instant, or never. -/
def Snapshot.under (s : Snapshot) (cancelAt : Option Instant) : World where
  vars := s.vars
  context := { output := s.output, clock := s.clock, cancelAt }

/-- What there is in a world, but for a cancellation. -/
def World.snapshot (w : World) : Snapshot where
  vars := w.vars
  output := w.context.output
  clock := w.context.clock

/-- The moment after some time. -/
def Snapshot.wait (s : Snapshot) (time : Nat) : Snapshot :=
  { s with clock := s.clock + time }

/-- What is put down of a run. -/
inductive Event where
  | look (s : Snapshot)
  | statement (s : Stmt)
  | round (body : List Stmt)

/-- Whether a statement or the body of a loop begins. -/
def Event.isStart : Event → Bool
  | .look _ => false
  | .statement _ | .round _ => true

/-- The number of looks among events. -/
def looksIn : List Event → Nat
  | [] => 0
  | .look _ :: es => looksIn es + 1
  | .statement _ :: es | .round _ :: es => looksIn es

/-- What looks are told: whether the evaluation has been cancelled, by the number of looks before and by
the time. -/
abbrev Answers := Nat → Instant → Bool

/-- What looks are told where the evaluation is cancelled at some instant, or never. -/
def Answers.cancelledAt (cancelAt : Option Instant) : Answers :=
  fun _ now => cancelAt.any (· ≤ now)

/-- What looks are told where the evaluation is never cancelled. -/
def Answers.never : Answers :=
  fun _ _ => false

/-- What is done by one that looks for a cancellation: it comes to a value or stops, and leaves what there
is then and what has been put down, first event first. -/
abbrev Poll (α : Type) := ReaderT Answers (ExceptT Stop (StateM (Snapshot × List Event))) α

namespace Poll

variable {α : Type}

/-- Something that does not look. -/
def of (a : Action α) : Poll α :=
  fun _ (s, log) =>
    let (outcome, w) := a (s.under none)
    (outcome, w.snapshot, log)

/-- Takes over the outcome of an operation. -/
def ofExcept (x : Except RuntimeError α) : Poll α :=
  of (.ofRun fun _ => .ofExcept x)

/-- Stops if the evaluation has been cancelled. -/
def look : Poll Unit :=
  fun answers (s, log) =>
    if answers (looksIn log) s.clock then (.error .cancelled, s, log ++ [.look s])
    else (.ok (), s, log ++ [.look s])

/-- Lets some time pass. -/
def wait (time : Nat) : Poll Unit :=
  fun _ (s, log) => (.ok (), s.wait time, log)

/-- Puts an event down. -/
def note (e : Event) : Poll Unit :=
  fun _ (s, log) => (.ok (), s, log ++ [e])

/-- Does something, and puts down before that it begins. -/
def starting (e : Event) (p : Poll α) : Poll α := do
  note e
  p

/-- Looks, and then takes a moment. -/
def checkpoint : Poll Unit := do
  look
  wait 1

/-- Sleeps for what is left of a time, one slice after the other, with a look before each and one at the
end. -/
def nap (left : Nat) : Poll Unit := do
  look
  if left = 0 then return ()
  else
    wait (min Context.sleepSlice left)
    nap (left - min Context.sleepSlice left)
termination_by left
decreasing_by
  have hslice : 0 < Context.sleepSlice := by decide
  omega

end Poll

/-- A call of a function. -/
def Builtin.polled (f : Builtin) (arguments : List Value) : Poll Value :=
  match f, arguments with
  | .sleep, [v] => do
    let time ← .ofExcept (duration .sleep v)
    .nap (time * millisecond)
    return .null
  | f, arguments => .of (.ofRun fun _ => f.call arguments)

/-- A call by name. -/
def callPolled (name : String) (arguments : List Value) : Poll Value :=
  match Builtin.ofName? name with
  | some f => f.polled arguments
  | none => .of (.ofRun fun _ => .fail (.unknownFunction name))

mutual

/-- The meaning of an expression. -/
def Expr.polled : Expr → Poll Value
  | .literal l => return l.value
  | .var name => .of (bindingOf? name)
  | .list items => do
    let items ← itemsPolled [] items
    return .list items
  | .map entries => do
    let entries ← entriesPolled [] entries
    return .map entries
  | .unary op operand => do
    let a ← operand.polled
    .ofExcept (op.apply a)
  | .binary .and lhs rhs => do
    let a ← lhs.polled
    if a.truthy then
      let b ← rhs.polled
      return .bool b.truthy
    else return .bool false
  | .binary .or lhs rhs => do
    let a ← lhs.polled
    if a.truthy then return .bool true
    else
      let b ← rhs.polled
      return .bool b.truthy
  | .binary .equal lhs rhs => do
    let a ← lhs.polled
    let b ← rhs.polled
    return .bool (a == b)
  | .binary .notEqual lhs rhs => do
    let a ← lhs.polled
    let b ← rhs.polled
    return .bool (a != b)
  | .binary (.compare op) lhs rhs => do
    let a ← lhs.polled
    let b ← rhs.polled
    .ofExcept (op.apply a b)
  | .binary (.arithmetic op) lhs rhs => do
    let a ← lhs.polled
    let b ← rhs.polled
    .ofExcept (op.apply a b)
  | .index base position => do
    let base ← base.polled
    let position ← position.polled
    .ofExcept (lookup base position)
  | .call name arguments => do
    let arguments ← argumentsPolled [] arguments
    callPolled name arguments

/-- The items of a list, in order; `found` holds those before them, last one first. -/
def itemsPolled (found : List Value) : List Expr → Poll (List Value)
  | [] => return found.reverse
  | e :: es => do
    let v ← e.polled
    let v ← .ofExcept (nestable v)
    itemsPolled (v :: found) es

/-- The entries of a map, set one after the other on top of `entries`. -/
def entriesPolled (entries : List (Value × Value)) :
    List (Expr × Expr) → Poll (List (Value × Value))
  | [] => return entries
  | (k, e) :: es => do
    let key ← k.polled
    let value ← e.polled
    let value ← .ofExcept (nestable value)
    let entries ← .ofExcept (assignKey entries key value)
    entriesPolled entries es

/-- The arguments of a call, in order; `found` holds those before them, last one first. -/
def argumentsPolled (found : List Value) : List Expr → Poll (List Value)
  | [] => return found.reverse
  | e :: es => do
    let v ← e.polled
    argumentsPolled (v :: found) es

end

/-- Whether a condition holds. -/
def Expr.holdsPolled (e : Expr) : Poll Bool := do
  let v ← e.polled
  return v.truthy

/-- Repeats a body, behind a checkpoint, for as long as a condition holds. -/
def repeatPolled (condition : Poll Bool) (body : Poll Unit) : (rounds : Nat) → Poll Unit
  | 0 => throw .endless
  | rounds + 1 => do
    if ← condition then
      Poll.checkpoint
      body
      repeatPolled condition body rounds

mutual

/-- The meaning of a statement. -/
def Stmt.polled (rounds : Nat) : Stmt → Poll Unit
  | .declare name e => .starting (.statement (.declare name e)) do
    let v ← e.polled
    .of (bindName name v)
  | .assign (.variable name) e => .starting (.statement (.assign (.variable name) e)) do
    discard (Poll.of (bindingOf? name))
    let v ← e.polled
    .of (bindName name v)
  | .assign (.element name position) e =>
    .starting (.statement (.assign (.element name position) e)) do
      let i ← position.polled
      let v ← e.polled
      let container ← .of (bindingOf? name)
      let container ← .ofExcept (assignElement container i v)
      .of (bindName name container)
  | .ifThen condition body => .starting (.statement (.ifThen condition body)) do
    if ← condition.holdsPolled then allPolled rounds body
  | .ifElse condition body alternative =>
    .starting (.statement (.ifElse condition body alternative)) do
      if ← condition.holdsPolled then allPolled rounds body else allPolled rounds alternative
  | .whileLoop condition body => .starting (.statement (.whileLoop condition body)) <|
    repeatPolled condition.holdsPolled (.starting (.round body) (allPolled rounds body)) rounds
  | .evaluate e => .starting (.statement (.evaluate e)) (discard e.polled)

/-- The meaning of statements in a row, each behind a checkpoint. -/
def allPolled (rounds : Nat) : List Stmt → Poll Unit
  | [] => return ()
  | s :: ss => do
    Poll.checkpoint
    s.polled rounds
    allPolled rounds ss

end

/-- The value that an expression at the end of a program produces. -/
def Expr.resultPolled (e : Expr) : Poll (Option Value) := .starting (.statement (.evaluate e)) do
  let v ← e.polled
  match e with
  | .call name _ => return if (Builtin.ofName? name).any (·.isVoid) then none else some v
  | _ => return some v

/-- The meaning of a program. -/
def Program.polled (rounds : Nat) (p : Program) : Poll (Option Value) := do
  allPolled rounds p.statements
  match p.result with
  | none => return none
  | some e =>
    Poll.checkpoint
    e.resultPolled

end ReplDaemon.Script
