/-!
# JSON values

A JSON document as it was written: numbers keep their spelling, and the fields of an object their
order and their repetitions. A string is `none` if what is written in it is no text, for example half
of a surrogate pair: such a string can stand wherever nobody reads it.
-/

namespace ReplDaemon

/-- A JSON value. -/
inductive Json where
  | null
  | bool (b : Bool)
  | number (spelling : String)
  | string (s : Option String)
  | array (items : List Json)
  | object (fields : List (Option String × Json))
  deriving Inhabited

namespace Json

/-- The first field of a given name. -/
def field? (name : String) : Json → Option Json
  | .object fields => fields.lookup (some name)
  | _ => none

/-- The text of a string. -/
def text? : Json → Option String
  | .string s => s
  | _ => none

/-- The value of a number that is spelled as digits alone. -/
def nat? : Json → Option Nat
  | .number spelling =>
    let digits := spelling.toList
    if digits.all Char.isDigit then some (digits.foldl (fun n d => 10 * n + (d.toNat - 48)) 0)
    else none
  | _ => none

/-- The items of an array. -/
def items? : Json → Option (List Json)
  | .array items => some items
  | _ => none

end Json

end ReplDaemon
