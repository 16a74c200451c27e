import ReplDaemon.Value.Basic

/-!
# Variables

The variables of a session live in one flat scope. A name is bound at most once; binding it again
changes its value in place.
-/

namespace ReplDaemon.Script

/-- Names with their values, in the order of their first binding. -/
structure Bindings where
  entries : List (String × Value)

namespace Bindings

/-- No variables. -/
def empty : Bindings := ⟨[]⟩

/-- The value of a name. -/
def find? (b : Bindings) (name : String) : Option Value :=
  b.entries.lookup name

/-- Binds a name in a list of entries. -/
def setIn (name : String) (value : Value) : List (String × Value) → List (String × Value)
  | [] => [(name, value)]
  | (n, v) :: es => if n == name then (n, value) :: es else (n, v) :: setIn name value es

/-- Binds a name. -/
def set (b : Bindings) (name : String) (value : Value) : Bindings :=
  ⟨setIn name value b.entries⟩

theorem lookup_setIn (name other : String) (value : Value) (entries : List (String × Value)) :
    (setIn name value entries).lookup other =
      if other = name then some value else entries.lookup other := by
  induction entries with
  | nil => grind [setIn]
  | cons e es ih => grind [setIn]

/-- The name just bound has its new value, every other name the one from before. -/
theorem find?_set (b : Bindings) (name other : String) (value : Value) :
    (b.set name value).find? other = if other = name then some value else b.find? other :=
  lookup_setIn name other value b.entries

end Bindings

end ReplDaemon.Script
