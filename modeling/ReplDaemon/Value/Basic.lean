/-!
# Values

What an evaluation produces: scalars, lists, insertion-ordered maps, and the values of other engines
that are known by their text alone.
-/

namespace ReplDaemon

/-- A value. The last three constructors never come from the script language: an `iterable` can be
enumerated, a `sealed` one refuses to be, and each has an identity of its own; of a `native` value
only its text is known. -/
inductive Value where
  | null
  | bool (b : Bool)
  | int (i : Int64)
  | float (x : Float)
  | text (s : String)
  | char (c : Char)
  | list (items : List Value)
  | map (entries : List (Value × Value))
  | iterable (identity : Nat) (elements : List Value) (display : String)
  | sealed (identity : Nat) (display : String)
  | native (text : String)
  deriving Inhabited

namespace Value

/-- The name of a value's type. -/
def typeName : Value → String
  | .null => "null"
  | .bool _ => "bool"
  | .int _ => "int"
  | .float _ => "float"
  | .text _ => "string"
  | .char _ => "char"
  | .list _ => "list"
  | .map _ => "map"
  | .iterable .. | .sealed .. => "iterable"
  | .native _ => "opaque"

/-- Whether a condition with this value holds. -/
def truthy : Value → Bool
  | .null => false
  | .bool b => b
  | .int i => i != 0
  | .float x => x != 0.0
  | .text s => !s.isEmpty
  | .list items => !items.isEmpty
  | .map entries => !entries.isEmpty
  | .char _ | .iterable .. | .sealed .. | .native _ => true

mutual

/-- Equality of values. An integer equals a floating point number of the same magnitude, a NaN
equals nothing, and values that can be enumerated are equal only to themselves. -/
def equal : Value → Value → Bool
  | .null, .null => true
  | .bool a, .bool b => a == b
  | .int a, .int b => a == b
  | .float a, .float b => a == b
  | .int a, .float b => a.toFloat == b
  | .float a, .int b => b.toFloat == a
  | .text a, .text b => a == b
  | .char a, .char b => a == b
  | .list as, .list bs => equalItems as bs
  | .map as, .map bs => equalEntries as bs
  | .iterable a _ _, .iterable b _ _ => a == b
  | .sealed a _, .sealed b _ => a == b
  | .native a, .native b => a == b
  | _, _ => false

/-- Lists are equal item by item. -/
def equalItems : List Value → List Value → Bool
  | [], [] => true
  | a :: as, b :: bs => equal a b && equalItems as bs
  | _, _ => false

/-- Maps are equal entry by entry, in order. -/
def equalEntries : List (Value × Value) → List (Value × Value) → Bool
  | [], [] => true
  | (k, v) :: as, (l, w) :: bs => equal k l && (equal v w && equalEntries as bs)
  | _, _ => false

end

instance : BEq Value := ⟨equal⟩

/-- Whether a value is neither a container nor of another engine. -/
def isScalar : Value → Bool
  | .null | .bool _ | .int _ | .float _ | .text _ | .char _ => true
  | _ => false

end Value

end ReplDaemon
