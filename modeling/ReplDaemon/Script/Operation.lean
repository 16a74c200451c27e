import ReplDaemon.Number.Binary64
import ReplDaemon.Script.RuntimeError
import ReplDaemon.Value.Text

/-!
# Operations on values

What the operators of the language compute. Integers are exact or an error; where one operand is a
floating point number, both are taken as such.
-/

namespace ReplDaemon.Script

/-- The integer with a given value, if it fits 64 bits. -/
def checkedInt (n : Int) : Except RuntimeError Value :=
  if Int64.minValue.toInt ≤ n ∧ n ≤ Int64.maxValue.toInt then .ok (.int (.ofInt n))
  else .error .integerOverflow

/-- Integer arithmetic. Division truncates, the remainder has the sign of the dividend, and neither
is defined where the quotient overflows. -/
def Arithmetic.onInts (op : Arithmetic) (a b : Int64) : Except RuntimeError Value :=
  let x := a.toInt
  let y := b.toInt
  match op with
  | .add => checkedInt (x + y)
  | .subtract => checkedInt (x - y)
  | .multiply => checkedInt (x * y)
  | .divide => if y = 0 then .error .divisionByZero else checkedInt (x.tdiv y)
  | .remainder =>
    if y = 0 then .error .divisionByZero
    else do
      let _ ← checkedInt (x.tdiv y)
      checkedInt (x.tmod y)

/-- Floating point arithmetic. -/
def Arithmetic.onFloats (op : Arithmetic) (x y : Float) : Float :=
  match op with
  | .add => x + y
  | .subtract => x - y
  | .multiply => x * y
  | .divide => x / y
  | .remainder => Number.remainder x y

/-- A number as a floating point number. -/
def asFloat? : Value → Option Float
  | .int i => some i.toFloat
  | .float x => some x
  | _ => none

/-- Arithmetic on values. Besides numbers, lists can be joined, and anything can be appended to a
string. -/
def Arithmetic.apply (op : Arithmetic) (a b : Value) : Except RuntimeError Value :=
  match op, a, b with
  | op, .int x, .int y => op.onInts x y
  | .add, .text s, v => .ok (.text (s ++ v.plain))
  | .add, .list xs, .list ys => .ok (.list (xs ++ ys))
  | op, a, b =>
    match asFloat? a, asFloat? b with
    | some x, some y => .ok (.float (op.onFloats x y))
    | _, _ => .error (.cannotApply op a.typeName b.typeName)

/-- The order of two things of an ordered type. -/
def order {α : Type} [LT α] [DecidableLT α] (a b : α) : Ordering :=
  if a < b then .lt else if b < a then .gt else .eq

/-- The order of two floating point numbers; a NaN has none. -/
def floatOrder? (x y : Float) : Option Ordering :=
  if x < y then some .lt else if y < x then some .gt else if x == y then some .eq else none

/-- The order of two values: of strings, characters, or numbers. Numbers that have none are neither
below nor above each other. -/
def valueOrder? (a b : Value) : Except RuntimeError (Option Ordering) :=
  match a, b with
  | .text s, .text t => .ok (some (order s t))
  | .char c, .char d => .ok (some (order c d))
  | .int i, .int j => .ok (some (order i j))
  | a, b =>
    match asFloat? a, asFloat? b with
    | some x, some y => .ok (floatOrder? x y)
    | _, _ => .error (.cannotCompare a.typeName b.typeName)

/-- Whether a comparison holds for an order. -/
def Comparison.holds : Comparison → Ordering → Bool
  | .less, o => o.isLT
  | .lessEqual, o => o.isLE
  | .greater, o => o.isGT
  | .greaterEqual, o => o.isGE

/-- A comparison of values. -/
def Comparison.apply (op : Comparison) (a b : Value) : Except RuntimeError Value := do
  let o ← valueOrder? a b
  return .bool (o.any op.holds)

/-- An operation on one value. -/
def UnaryOp.apply (op : UnaryOp) (v : Value) : Except RuntimeError Value :=
  match op, v with
  | .not, v => .ok (.bool !v.truthy)
  | .negate, .int i => checkedInt (-i.toInt)
  | .negate, .float x => .ok (.float (-x))
  | .negate, v => .error (.cannotApplyTo .negate v.typeName)

/-- Admits a value as a part of a container. -/
def nestable (v : Value) : Except RuntimeError Value :=
  if v.depth < Value.maxNesting then .ok v else .error .nestedTooDeep

/-- The place in a sequence that an index means. -/
def placeIn (length : Nat) : Value → Except RuntimeError (Fin length)
  | .int i =>
    if h : 0 ≤ i.toInt ∧ i.toInt.toNat < length then .ok ⟨i.toInt.toNat, h.2⟩
    else .error (.indexOutOfRange i length)
  | v => .error (.cannotIndexWith v.typeName)

/-- The value under a key, the first one where several match. -/
def find? (entries : List (Value × Value)) (key : Value) : Option Value :=
  (entries.find? fun e => e.1 == key).map (·.2)

/-- The element of a container at an index. -/
def lookup (base index : Value) : Except RuntimeError Value :=
  match base with
  | .list items => do
    let i ← placeIn items.length index
    return items[i]
  | .text s => do
    let characters := s.toList
    let i ← placeIn characters.length index
    return .char characters[i]
  | .map entries =>
    match find? entries index with
    | some v => .ok v
    | none => .error (.keyNotFound index.plain)
  | v => .error (.cannotIndexInto v.typeName)

/-- Gives a key a new value, where the key is already present. -/
def replace? (key value : Value) : List (Value × Value) → Option (List (Value × Value))
  | [] => none
  | (k, v) :: es =>
    if k == key then some ((k, value) :: es) else (replace? key value es).map ((k, v) :: ·)

/-- Sets the value under a key; a new key comes last. -/
def assignKey (entries : List (Value × Value)) (key value : Value) :
    Except RuntimeError (List (Value × Value)) :=
  match replace? key value entries with
  | some entries => .ok entries
  | none => do
    let key ← nestable key
    return entries ++ [(key, value)]

/-- A container with one element set. -/
def assignElement (container index value : Value) : Except RuntimeError Value := do
  let value ← nestable value
  match container with
  | .list items =>
    let i ← placeIn items.length index
    return .list (items.set i value)
  | .map entries => return .map (← assignKey entries index value)
  | v => throw (.cannotAssignInto v.typeName)

end ReplDaemon.Script
