import ReplDaemon.Value.Depth

/-!
# Depths found by walking

The depth of a value is found by visiting what it is made of, one value in a round, last one first.
Whatever is visited first, a round keeps the deepest that is reached by what is left to visit and was
found before; and it takes one away of all the values that are left, with what they are made of. So a
walk ends after one round for each value, with the depth that recursion gives.
-/

namespace ReplDaemon.Value

/-- The deepest that visits reach. -/
def Visits.reach : Visits → Nat
  | [] => 0
  | visit :: rest => max (visit.2 + nesting visit.1) (reach rest)

theorem Visits.reach_addItems (depth : Nat) (items : List Value) (rest : Visits) :
    max depth (reach (addItems depth items rest)) =
      max (depth + nestingItems items) (reach rest) := by
  induction items generalizing rest with
  | nil => rfl
  | cons v vs ih =>
      rw [addItems, ih, reach, nestingItems]
      dsimp only
      omega

theorem Visits.reach_addEntries (depth : Nat) (entries : List (Value × Value)) (rest : Visits) :
    max depth (reach (addEntries depth entries rest)) =
      max (depth + nestingEntries entries) (reach rest) := by
  induction entries generalizing rest with
  | nil => rfl
  | cons e es ih =>
      rw [addEntries, ih, reach, reach, nestingEntries]
      dsimp only
      omega

/-- What is found is the deepest that the visits reach, unless something deeper was found before. -/
theorem deepest_eq (visits : Visits) (found : Nat) :
    deepest visits found = max found visits.reach := by
  induction visits, found using deepest.induct with
  | case1 found => simp [deepest, Visits.reach]
  | case2 found items depth rest ih =>
      have hreach := Visits.reach_addItems (depth + 1) items rest
      rw [deepest, ih, Visits.reach, nesting]
      omega
  | case3 found entries depth rest ih =>
      have hreach := Visits.reach_addEntries (depth + 1) entries rest
      rw [deepest, ih, Visits.reach, nesting]
      omega
  | case4 found v depth rest hlist hmap ih =>
      have hnesting : nesting v = 0 := by
        cases v with
        | list items => exact absurd rfl (hlist items)
        | map entries => exact absurd rfl (hmap entries)
        | _ => rfl
      rw [deepest, ih, Visits.reach, hnesting]
      · omega
      · exact hlist
      · exact hmap

theorem depth_eq_nesting (v : Value) : v.depth = v.nesting := by
  rw [depth, deepest_eq, Visits.reach, Visits.reach]
  dsimp only
  omega

theorem nestingItems_eq_foldr (items : List Value) :
    nestingItems items = (items.map depth).foldr max 0 := by
  induction items with
  | nil => rfl
  | cons v vs ih => rw [nestingItems, ih, List.map_cons, List.foldr_cons, depth_eq_nesting]

theorem nestingEntries_eq_foldr (entries : List (Value × Value)) :
    nestingEntries entries = (entries.map fun e => max e.1.depth e.2.depth).foldr max 0 := by
  induction entries with
  | nil => rfl
  | cons e es ih =>
      rw [nestingEntries, ih, List.map_cons, List.foldr_cons, depth_eq_nesting, depth_eq_nesting]

theorem nestingItems_le_iff {items : List Value} {n : Nat} :
    nestingItems items ≤ n ↔ ∀ v ∈ items, v.nesting ≤ n := by
  induction items with
  | nil => simp [nestingItems]
  | cons v vs ih => rw [nestingItems, Nat.max_le, ih, List.forall_mem_cons]

theorem nestingEntries_le_iff {entries : List (Value × Value)} {n : Nat} :
    nestingEntries entries ≤ n ↔ ∀ e ∈ entries, e.1.nesting ≤ n ∧ e.2.nesting ≤ n := by
  induction entries with
  | nil => simp [nestingEntries]
  | cons e es ih => rw [nestingEntries, Nat.max_le, Nat.max_le, ih, List.forall_mem_cons]

theorem depth_list_le_iff {items : List Value} {n : Nat} :
    (list items).depth ≤ n + 1 ↔ ∀ v ∈ items, v.depth ≤ n := by
  simp only [depth_eq_nesting, nesting, Nat.add_comm 1, Nat.add_le_add_iff_right,
    nestingItems_le_iff]

theorem depth_map_le_iff {entries : List (Value × Value)} {n : Nat} :
    (map entries).depth ≤ n + 1 ↔ ∀ e ∈ entries, e.1.depth ≤ n ∧ e.2.depth ≤ n := by
  simp only [depth_eq_nesting, nesting, Nat.add_comm 1, Nat.add_le_add_iff_right,
    nestingEntries_le_iff]

mutual

/-- How many values a value is made of, itself among them. -/
def parts : Value → Nat
  | .list items => 1 + partsOfItems items
  | .map entries => 1 + partsOfEntries entries
  | _ => 1

/-- How many values the items are made of. -/
def partsOfItems : List Value → Nat
  | [] => 0
  | v :: vs => parts v + partsOfItems vs

/-- How many values the keys and values are made of. -/
def partsOfEntries : List (Value × Value) → Nat
  | [] => 0
  | (k, v) :: es => parts k + parts v + partsOfEntries es

end

/-- How many values there are left to visit, with all that they are made of. -/
def Visits.parts : Visits → Nat
  | [] => 0
  | visit :: rest => visit.1.parts + parts rest

theorem Visits.parts_addItems (depth : Nat) (items : List Value) (rest : Visits) :
    parts (addItems depth items rest) = partsOfItems items + parts rest := by
  induction items generalizing rest with
  | nil => rw [addItems, partsOfItems, Nat.zero_add]
  | cons v vs ih =>
      rw [addItems, ih, parts, partsOfItems]
      dsimp only
      omega

theorem Visits.parts_addEntries (depth : Nat) (entries : List (Value × Value)) (rest : Visits) :
    parts (addEntries depth entries rest) = partsOfEntries entries + parts rest := by
  induction entries generalizing rest with
  | nil => rw [addEntries, partsOfEntries, Nat.zero_add]
  | cons e es ih =>
      rw [addEntries, ih, parts, parts, partsOfEntries]
      dsimp only
      omega

/-- Where a walk stands: what is left to visit, and the greatest depth met so far. -/
structure Walk where
  visits : Visits
  found : Nat

namespace Walk

/-- In front of a value. -/
def start (v : Value) : Walk where
  visits := [(v, 0)]
  found := 0

/-- One round: the next value is visited, and its parts are left to visit in its place. -/
def next? : Walk → Option Walk
  | ⟨[], _⟩ => none
  | ⟨(.list items, depth) :: rest, found⟩ =>
    some ⟨Visits.addItems (depth + 1) items rest, max found (depth + 1)⟩
  | ⟨(.map entries, depth) :: rest, found⟩ =>
    some ⟨Visits.addEntries (depth + 1) entries rest, max found (depth + 1)⟩
  | ⟨(_, depth) :: rest, found⟩ => some ⟨rest, max found depth⟩

/-- Where a walk stands after some number of rounds, if it goes on so long. -/
def after : Nat → Walk → Option Walk
  | 0, w => some w
  | rounds + 1, w => w.next?.bind (after rounds)

/-- As long as anything is left to visit, there is a round. It takes one away of the values left to
visit, and leaves what will be found as it is. -/
theorem exists_next? (visit : Value × Nat) (rest : Visits) (found : Nat) :
    ∃ w, next? ⟨visit :: rest, found⟩ = some w ∧ w.visits.parts + 1 = Visits.parts (visit :: rest) ∧
      deepest w.visits w.found = deepest (visit :: rest) found := by
  obtain ⟨v, depth⟩ := visit
  cases v with
  | list items =>
      refine ⟨_, rfl, ?_, by rw [deepest]⟩
      rw [Visits.parts_addItems, Visits.parts, parts]
      omega
  | map entries =>
      refine ⟨_, rfl, ?_, by rw [deepest]⟩
      rw [Visits.parts_addEntries, Visits.parts, parts]
      omega
  | null | bool | int | float | text | char | iterable | sealed | native =>
      refine ⟨_, rfl, Nat.add_comm rest.parts 1, ?_⟩
      rw [deepest]
      · intro items h
        cases h
      · intro entries h
        cases h

/-- A walk has one round for each value that is left to visit. -/
theorem after_parts (w : Walk) :
    w.after w.visits.parts = some { visits := [], found := deepest w.visits w.found } := by
  generalize hrounds : w.visits.parts = rounds
  induction rounds generalizing w with
  | zero =>
      obtain ⟨visits, found⟩ := w
      cases visits with
      | nil => rw [after, deepest]
      | cons visit rest =>
          obtain ⟨w', -, hparts, -⟩ := exists_next? visit rest found
          dsimp only at hrounds
          omega
  | succ rounds ih =>
      obtain ⟨visits, found⟩ := w
      cases visits with
      | nil => cases hrounds
      | cons visit rest =>
          obtain ⟨w', hnext, hparts, hfound⟩ := exists_next? visit rest found
          rw [after, hnext, Option.bind_some, ih w' (by dsimp only at hrounds; omega), hfound]

end Walk

/-- The depth of a value is what recursion over it gives: a list or map is one deeper than the deepest
item, key or value in it, anything else has depth 0. The walk that finds it ends, after as many rounds
as the value is made of values. -/
theorem depth_walked (v : Value) :
    v.depth = v.nesting ∧
      (v.depth = match v with
        | list items => 1 + (items.map depth).foldr max 0
        | map entries => 1 + (entries.map fun e => max e.1.depth e.2.depth).foldr max 0
        | _ => 0) ∧
      ∃ last, (Walk.start v).after v.parts = some last ∧ last.next? = none ∧ last.found = v.depth := by
  refine ⟨v.depth_eq_nesting, ?_, { visits := [], found := v.depth }, ?_, rfl, rfl⟩
  · cases v with
    | list items => rw [depth_eq_nesting, nesting, nestingItems_eq_foldr]
    | map entries => rw [depth_eq_nesting, nesting, nestingEntries_eq_foldr]
    | _ => exact depth_eq_nesting _
  · have hwalk := (Walk.start v).after_parts
    rwa [Walk.start, Visits.parts, Visits.parts, Nat.add_zero] at hwalk

end ReplDaemon.Value
