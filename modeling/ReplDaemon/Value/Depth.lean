import ReplDaemon.Value.Basic

/-!
# How deep a value nests

A scalar has depth 0, a list or map is one deeper than the deepest thing in it. The depth of a value
is found with a list of work instead of by recursion, so that the length of a container costs no
stack; `nesting` is the recursive definition of the same number.
-/

namespace ReplDaemon.Value

mutual

/-- The depth of a value, by recursion. -/
def nesting : Value → Nat
  | .list items => 1 + nestingItems items
  | .map entries => 1 + nestingEntries entries
  | _ => 0

/-- The deepest of the items. -/
def nestingItems : List Value → Nat
  | [] => 0
  | v :: vs => max (nesting v) (nestingItems vs)

/-- The deepest of the keys and values. -/
def nestingEntries : List (Value × Value) → Nat
  | [] => 0
  | (k, v) :: es => max (max (nesting k) (nesting v)) (nestingEntries es)

end

/-- Values still to visit, each with the number of containers around it. -/
abbrev Visits := List (Value × Nat)

/-- How much there is left to visit. -/
noncomputable def Visits.weight : Visits → Nat
  | [] => 0
  | visit :: rest => sizeOf visit.1 + weight rest

/-- Puts the items of a list in front of what is left to visit. -/
def Visits.addItems (depth : Nat) : List Value → Visits → Visits
  | [], rest => rest
  | v :: vs, rest => addItems depth vs ((v, depth) :: rest)

/-- Puts the keys and values of a map in front of what is left to visit. -/
def Visits.addEntries (depth : Nat) : List (Value × Value) → Visits → Visits
  | [], rest => rest
  | (k, v) :: es, rest => addEntries depth es ((v, depth) :: (k, depth) :: rest)

theorem Visits.weight_addItems (depth : Nat) (items : List Value) (rest : Visits) :
    Visits.weight (addItems depth items rest) < sizeOf items + Visits.weight rest := by
  induction items generalizing rest with
  | nil => simp [addItems]
  | cons v vs ih =>
    have := ih ((v, depth) :: rest)
    simp only [addItems, List.cons.sizeOf_spec]
    simp only [weight] at this ⊢
    omega

theorem Visits.weight_addEntries (depth : Nat) (entries : List (Value × Value)) (rest : Visits) :
    Visits.weight (addEntries depth entries rest) < sizeOf entries + Visits.weight rest := by
  induction entries generalizing rest with
  | nil => simp [addEntries]
  | cons e es ih =>
    obtain ⟨k, v⟩ := e
    have := ih ((v, depth) :: (k, depth) :: rest)
    simp only [addEntries, List.cons.sizeOf_spec, Prod.mk.sizeOf_spec]
    simp only [weight] at this ⊢
    omega

/-- Visits everything in turn and keeps the greatest depth met. -/
def deepest (visits : Visits) (found : Nat) : Nat :=
  match visits with
  | [] => found
  | (.list items, depth) :: rest =>
    deepest (Visits.addItems (depth + 1) items rest) (max found (depth + 1))
  | (.map entries, depth) :: rest =>
    deepest (Visits.addEntries (depth + 1) entries rest) (max found (depth + 1))
  | (_, depth) :: rest => deepest rest (max found depth)
termination_by Visits.weight visits
decreasing_by
  · have := Visits.weight_addItems (depth + 1) items rest
    simp only [Visits.weight, Value.list.sizeOf_spec] at this ⊢
    omega
  · have := Visits.weight_addEntries (depth + 1) entries rest
    simp only [Visits.weight, Value.map.sizeOf_spec] at this ⊢
    omega
  · simp only [Visits.weight]
    have : ∀ v : Value, 0 < sizeOf v := by intro v; cases v <;> simp +arith
    have := this ‹Value›
    omega

/-- The depth of a value. -/
def depth (v : Value) : Nat :=
  deepest [(v, 0)] 0

/-- The deepest nesting that a value of the script language may have. -/
def maxNesting : Nat := 128

end ReplDaemon.Value
