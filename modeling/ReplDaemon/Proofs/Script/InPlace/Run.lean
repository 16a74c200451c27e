import ReplDaemon.Proofs.Script.Passage

/-!
# Runs in place

The meaning of programs once more, with everything done where it is kept. An expression is evaluated among
the variables themselves, free to change them. The element of a container is set inside of it, and whatever
an edit has left there stays, also if it fails. The simple statements that have been completed, which are
those without others inside, are kept in a journal.
-/

namespace ReplDaemon.Script

/-- A world, and the simple statements that have been completed in it, first one first. -/
structure Scene extends World where
  journal : List Stmt

/-- What is done in place: it ends or stops, and leaves a scene in either case. -/
abbrev InPlace (α : Type) := ExceptT Stop (StateM Scene) α

/-- A change to a value: it ends or fails, and leaves a value in either case. -/
abbrev Edit := ExceptT RuntimeError (StateM Value) Unit

/-- Sets the element of a container at an index. -/
def Edit.setElement (index value : Value) : Edit := do
  let value ← nestable value
  match ← get with
  | .list items =>
    let place ← placeIn items.length index
    set (Value.list (items.set place value))
  | .map entries =>
    match entries.findIdx? fun e => e.1 == index with
    | some place => set (Value.map (entries.modify place fun e => (e.1, value)))
    | none => set (Value.map (entries ++ [(← nestable index, value)]))
  | container => throw (.cannotAssignInto container.typeName)

namespace InPlace

variable {α : Type}

/-- Something that is done to the world. -/
def of (a : Action α) : InPlace α :=
  fun σ =>
    let (outcome, world) := a σ.toWorld
    (outcome, { σ with toWorld := world })

/-- Takes over the outcome of an operation. -/
def ofExcept (x : Except RuntimeError α) : InPlace α :=
  of (.ofRun fun _ => .ofExcept x)

/-- Stops if the evaluation has been cancelled, and else takes a moment. -/
def checkpoint : InPlace Unit :=
  of (.ofRun fun _ => Script.checkpoint)

/-- Edits a value that no variable has. -/
def editValue (container : Value) (edit : Edit) : InPlace Value := do
  let (outcome, container) := edit container
  ofExcept outcome
  return container

/-- Edits the value of a variable, which keeps what the edit leaves. -/
def editBinding (name : String) (edit : Edit) : InPlace Unit := do
  let (outcome, container) := edit (← of (bindingOf? name))
  of (bindName name container)
  ofExcept outcome

/-- Does what a statement says, and enters it in the journal when that is completed. -/
def complete (s : Stmt) (body : InPlace Unit) : InPlace Unit := do
  body
  modify fun σ => { σ with journal := σ.journal ++ [s] }

end InPlace

mutual

/-- The meaning of an expression, in place. -/
def Expr.inPlace : Expr → InPlace Value
  | .literal l => return l.value
  | .var name => .of (bindingOf? name)
  | .list items => return .list (← itemsInPlace [] items)
  | .map entries => entriesInPlace (.map []) entries
  | .unary op operand => do .ofExcept (op.apply (← operand.inPlace))
  | .binary .and lhs rhs => do
    if (← lhs.inPlace).truthy then return .bool (← rhs.inPlace).truthy
    else return .bool false
  | .binary .or lhs rhs => do
    if (← lhs.inPlace).truthy then return .bool true
    else return .bool (← rhs.inPlace).truthy
  | .binary .equal lhs rhs => do
    let a ← lhs.inPlace
    let b ← rhs.inPlace
    return .bool (a == b)
  | .binary .notEqual lhs rhs => do
    let a ← lhs.inPlace
    let b ← rhs.inPlace
    return .bool (a != b)
  | .binary (.compare op) lhs rhs => do
    let a ← lhs.inPlace
    let b ← rhs.inPlace
    .ofExcept (op.apply a b)
  | .binary (.arithmetic op) lhs rhs => do
    let a ← lhs.inPlace
    let b ← rhs.inPlace
    .ofExcept (op.apply a b)
  | .index base position => do
    let base ← base.inPlace
    let position ← position.inPlace
    .ofExcept (lookup base position)
  | .call name arguments => do
    let arguments ← argumentsInPlace [] arguments
    .of (.ofRun fun _ => call name arguments)

/-- The items of a list, in order; `found` holds those before them, last one first. -/
def itemsInPlace (found : List Value) : List Expr → InPlace (List Value)
  | [] => return found.reverse
  | e :: es => do
    let v ← .ofExcept (nestable (← e.inPlace))
    itemsInPlace (v :: found) es

/-- The entries of a map, set one after the other in what is found so far. -/
def entriesInPlace (found : Value) : List (Expr × Expr) → InPlace Value
  | [] => return found
  | (k, e) :: es => do
    let key ← k.inPlace
    let value ← e.inPlace
    entriesInPlace (← .editValue found (.setElement key value)) es

/-- The arguments of a call, in order; `found` holds those before them, last one first. -/
def argumentsInPlace (found : List Value) : List Expr → InPlace (List Value)
  | [] => return found.reverse
  | e :: es => do
    let v ← e.inPlace
    argumentsInPlace (v :: found) es

end

/-- Whether a condition holds, in place. -/
def Expr.holdsInPlace (e : Expr) : InPlace Bool := do
  return (← e.inPlace).truthy

/-- Repeats a body in place, behind a checkpoint, for as long as a condition holds. -/
def repeatInPlace (condition : InPlace Bool) (body : InPlace Unit) : (rounds : Nat) → InPlace Unit
  | 0 => throw .endless
  | rounds + 1 => do
    if ← condition then
      InPlace.checkpoint
      body
      repeatInPlace condition body rounds

mutual

/-- The meaning of a statement, in place. -/
def Stmt.inPlace (rounds : Nat) : Stmt → InPlace Unit
  | .declare name e => .complete (.declare name e) do
    let v ← e.inPlace
    .of (bindName name v)
  | .assign (.variable name) e => .complete (.assign (.variable name) e) do
    discard (InPlace.of (bindingOf? name))
    let v ← e.inPlace
    .of (bindName name v)
  | .assign (.element name position) e => .complete (.assign (.element name position) e) do
    let i ← position.inPlace
    let v ← e.inPlace
    .editBinding name (.setElement i v)
  | .ifThen condition body => do
    if ← condition.holdsInPlace then allInPlace rounds body
  | .ifElse condition body alternative => do
    if ← condition.holdsInPlace then allInPlace rounds body else allInPlace rounds alternative
  | .whileLoop condition body =>
    repeatInPlace condition.holdsInPlace (allInPlace rounds body) rounds
  | .evaluate e => .complete (.evaluate e) (discard e.inPlace)

/-- The meaning of statements in a row, in place, each behind a checkpoint. -/
def allInPlace (rounds : Nat) : List Stmt → InPlace Unit
  | [] => return ()
  | s :: ss => do
    InPlace.checkpoint
    s.inPlace rounds
    allInPlace rounds ss

end

/-- The value that an expression at the end of a program produces, in place. -/
def Expr.resultInPlace (e : Expr) : InPlace (Option Value) := do
  let v ← e.inPlace
  match e with
  | .call name _ => return if (Builtin.ofName? name).any (·.isVoid) then none else some v
  | _ => return some v

/-- The meaning of a program, in place. -/
def Program.inPlace (rounds : Nat) (p : Program) : InPlace (Option Value) := do
  allInPlace rounds p.statements
  match p.result with
  | none => return none
  | some e =>
    InPlace.checkpoint
    e.resultInPlace

end ReplDaemon.Script
