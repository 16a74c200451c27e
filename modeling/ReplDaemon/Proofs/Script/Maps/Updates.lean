import ReplDaemon.Proofs.Script.Maps.Keys

/-!
# Maps are finite maps in order of insertion

Where no floating point numbers are in keys, setting an element gives the key its value, leaves every
other key as it is, and keeps the keys in order, with a new one behind them. A map literal sets its entries
one after the other.
-/

namespace ReplDaemon.Script

section Updates

/-- What setting an element makes of the entries of a map. -/
structure Updated (entries : List (Value × Value)) (key value : Value)
    (entries' : List (Value × Value)) : Prop where
  reads : lookup (.map entries') key = .ok value
  others : ∀ k : Value, k.FloatFree → (key == k) = false →
    lookup (.map entries') k = lookup (.map entries) k
  keys : entries'.map (·.1) =
    entries.map (·.1) ++ if (find? entries key).isSome then [] else [key]
  length : entries'.length = entries.length + if (find? entries key).isSome then 0 else 1

variable {entries entries' : List (Value × Value)} {key value : Value}

theorem find?_append (es fs : List (Value × Value)) (key : Value) :
    find? (es ++ fs) key = (find? es key).or (find? fs key) := by
  simp [find?, List.find?_append, Option.map_or]

theorem find?_cons (k v : Value) (es : List (Value × Value)) (key : Value) :
    find? ((k, v) :: es) key = if k == key then some v else find? es key := by
  cases h : k == key <;> simp [find?, h]

theorem find?_eq_none : find? entries key = none ↔ ∀ e ∈ entries, (e.1 == key) = false := by
  simp [find?]

/-- A key that is equal to one of two others, which are not equal, is not equal to the other one. -/
theorem beq_eq_false_of_beq {k l : Value} (hk : k.FloatFree) (hkey : key.FloatFree) (hl : l.FloatFree)
    (heq : (k == key) = true) (hne : (key == l) = false) : (k == l) = false := by
  rw [Value.beq_iff_bare_eq hk hkey] at heq
  rw [← Bool.not_eq_true, Value.beq_iff_bare_eq hkey hl] at hne
  rwa [← Bool.not_eq_true, Value.beq_iff_bare_eq hk hl, heq]

theorem updated_of_assignKey (hentries : ∀ e ∈ entries, e.1.FloatFree) (hkey : key.FloatFree)
    (h : assignKey entries key value = .ok entries') : Updated entries key value entries' := by
  rcases assignKey_cases h with ⟨before, k, old, behind, rfl, hk, hbefore, rfl⟩ | ⟨hnew, rfl⟩
  · have hkFree : k.FloatFree := hentries (k, old) (by simp)
    have hfound : (find? (before ++ (k, old) :: behind) key).isSome := by simp [find?, hk]
    refine ⟨?_, fun l hl hne => ?_, by simp [hfound], by simp [hfound]⟩
    · simp [lookup, find?_append, find?_cons, find?_eq_none.mpr hbefore, hk]
    · simp [lookup, find?_append, find?_cons, beq_eq_false_of_beq hkFree hkey hl hk hne]
  · have hfound : find? entries key = none := find?_eq_none.mpr hnew
    have hself : (key == key) = true := (Value.beq_iff_bare_eq hkey hkey).mpr rfl
    refine ⟨?_, fun l hl hne => ?_, by simp [hfound], by simp [hfound]⟩
    · simp [lookup, find?_append, find?_cons, hfound, hself]
    · simp [lookup, find?, hne]

end Updates

section Runs

/-- The keys and values of a map literal come to pairs of values, one after the other. -/
inductive Evaluated (vars : Bindings) : Context → List (Expr × Expr) → List (Value × Value) →
    Context → Prop
  | nil {c : Context} : Evaluated vars c [] [] c
  | cons {c d d' c' : Context} {k e : Expr} {key value : Value} {es : List (Expr × Expr)}
      {pairs : List (Value × Value)} (first : k.run vars c = (.ok key, d))
      (second : e.run vars d = (.ok value, d')) (rest : Evaluated vars d' es pairs c') :
      Evaluated vars c ((k, e) :: es) ((key, value) :: pairs) c'

/-- Pairs are set in a map, one after the other. -/
inductive Filled : List (Value × Value) → List (Value × Value) → List (Value × Value) → Prop
  | nil {entries : List (Value × Value)} : Filled entries [] entries
  | cons {entries next entries' pairs : List (Value × Value)} {key value : Value}
      (first : Updated entries key value next) (rest : Filled next pairs entries') :
      Filled entries ((key, value) :: pairs) entries'

variable {vars : Bindings} {c d : Context}

/-- Setting an element brings no key but the one that is set. -/
theorem Updated.floatFree {entries next : List (Value × Value)} {key value : Value}
    (h : Updated entries key value next) (hentries : ∀ e ∈ entries, e.1.FloatFree)
    (hkey : key.FloatFree) : ∀ e ∈ next, e.1.FloatFree := by
  intro e he
  have hmem : e.1 ∈ entries.map (·.1) ++ if (find? entries key).isSome then [] else [key] :=
    h.keys ▸ List.mem_map_of_mem he
  rcases List.mem_append.mp hmem with hold | hnew
  · obtain ⟨e', he', hsame⟩ := List.mem_map.mp hold
    exact hsame ▸ hentries e' he'
  · split at hnew
    · cases hnew
    · exact List.mem_singleton.mp hnew ▸ hkey

theorem runEntries_filled (es : List (Expr × Expr)) {found entries : List (Value × Value)}
    (h : runEntries vars found es c = (.ok entries, d)) :
    ∃ pairs, Evaluated vars c es pairs d ∧ ((∀ e ∈ found, e.1.FloatFree) →
      (∀ p ∈ pairs, p.1.FloatFree) → Filled found pairs entries) := by
  induction es generalizing found c with
  | nil =>
      rw [runEntries] at h
      cases h
      exact ⟨[], .nil, fun _ _ => .nil⟩
  | cons e es ih =>
      rw [runEntries] at h
      obtain ⟨key, c₁, hkey, h⟩ := bind_eq_ok h
      obtain ⟨value, c₂, hvalue, h⟩ := bind_eq_ok h
      obtain ⟨nested, c₃, hnested, h⟩ := bind_eq_ok h
      obtain ⟨next, c₄, hnext, hrun⟩ := bind_eq_ok h
      obtain ⟨hroom, rfl⟩ := Run.ofExcept_eq_ok hnested
      obtain ⟨hassigned, rfl⟩ := Run.ofExcept_eq_ok hnext
      obtain ⟨rfl, -⟩ := nestable_eq_ok hroom
      obtain ⟨pairs, hpairs, hfilled⟩ := ih hrun
      refine ⟨(key, nested) :: pairs, .cons hkey hvalue hpairs, fun hfound hfree => ?_⟩
      obtain ⟨hkeyFree, hrest⟩ := List.forall_mem_cons.mp hfree
      have hupdated := updated_of_assignKey hfound hkeyFree hassigned
      exact .cons hupdated (hfilled (hupdated.floatFree hfound hkeyFree) hrest)

theorem assignElement_map_eq_ok {entries : List (Value × Value)} {key value container : Value}
    (h : assignElement (.map entries) key value = .ok container) :
    ∃ entries', assignKey entries key value = .ok entries' ∧ container = .map entries' := by
  cases hnested : nestable value with
  | error e =>
      rw [assignElement, hnested] at h
      cases h
  | ok nested =>
      obtain ⟨rfl, -⟩ := nestable_eq_ok hnested
      rw [assignElement_map hnested] at h
      cases hassigned : assignKey entries key nested with
      | error e =>
          rw [hassigned] at h
          cases h
      | ok entries' =>
          rw [hassigned] at h
          cases h
          exact ⟨entries', rfl, rfl⟩

/-- An assignment to an element of a map evaluates the index, then the value, and sets it. -/
theorem Stmt.run_element {rounds : Nat} {name : String} {position e : Expr} {w w' : World}
    {entries : List (Value × Value)} (hname : w.vars.find? name = some (.map entries))
    (h : (Stmt.assign (.element name position) e).run rounds w = (.ok (), w')) :
    ∃ key value c d entries', position.run w.vars w.context = (.ok key, c) ∧
      e.run w.vars c = (.ok value, d) ∧ assignKey entries key value = .ok entries' ∧
      w' = { vars := w.vars.set name (.map entries'), context := d } := by
  rw [Stmt.run] at h
  obtain ⟨key, w₁, hkey, h⟩ := bind_eq_ok h
  obtain ⟨value, w₂, hvalue, h⟩ := bind_eq_ok h
  obtain ⟨container, w₃, hcontainer, h⟩ := bind_eq_ok h
  obtain ⟨edited, w₄, hedited, hbind⟩ := bind_eq_ok h
  obtain ⟨c, hkeyRun, rfl⟩ := Action.ofRun_eq_ok hkey
  obtain ⟨d, hvalueRun, rfl⟩ := Action.ofRun_eq_ok hvalue
  rw [Action.bindingOf?_apply, hname] at hcontainer
  cases hcontainer
  obtain ⟨_, hoperation, rfl⟩ := Action.ofRun_eq_ok hedited
  obtain ⟨helement, rfl⟩ := Run.ofExcept_eq_ok hoperation
  obtain ⟨entries', hassigned, rfl⟩ := assignElement_map_eq_ok helement
  cases hbind
  exact ⟨key, value, c, _, entries', hkeyRun, hvalueRun, hassigned, rfl⟩

theorem Expr.run_map {es : List (Expr × Expr)} {v : Value}
    (h : (Expr.map es).run vars c = (.ok v, d)) :
    ∃ pairs entries, v = .map entries ∧ Evaluated vars c es pairs d ∧
      ((∀ p ∈ pairs, p.1.FloatFree) → Filled [] pairs entries) := by
  rw [Expr.run] at h
  obtain ⟨entries, c', hrun, hpure⟩ := bind_eq_ok h
  cases hpure
  obtain ⟨pairs, hpairs, hfilled⟩ := runEntries_filled es hrun
  exact ⟨pairs, entries, rfl, hpairs, hfilled (by simp)⟩

end Runs

/-- Maps are finite maps in order of insertion. In every session whose variables come from evaluations,
no map has two equal keys, in a variable, in any value that an expression comes to, or in the value of the
whole. Where no key has floating point numbers in it, an assignment to an element sets it, and a literal
sets its entries one after the other: the key reads the value, others read as before, and the keys stay in
order, with a new one behind them. -/
theorem maps_ordered :
    (∀ vars, Reached vars → vars.All WellKeyed ∧ ∀ source context,
      ∃ noted, evaluateWatched source vars context = (evaluate source vars context, noted) ∧
        (∀ v ∈ noted, WellKeyed v) ∧ (evaluate source vars context).session.All WellKeyed ∧
        ∀ v, (evaluate source vars context).ending = .returned (.ok (.completed (some v))) →
          WellKeyed v) ∧
    (∀ (rounds : Nat) (name : String) (position e : Expr) (w w' : World)
      (entries : List (Value × Value)), w.vars.find? name = some (.map entries) →
      (∀ entry ∈ entries, entry.1.FloatFree) →
      (Stmt.assign (.element name position) e).run rounds w = (.ok (), w') →
      ∃ key value c d entries', position.run w.vars w.context = (.ok key, c) ∧
        e.run w.vars c = (.ok value, d) ∧
        w' = { vars := w.vars.set name (.map entries'), context := d } ∧
        (key.FloatFree → Updated entries key value entries')) ∧
    ∀ (vars : Bindings) (c d : Context) (es : List (Expr × Expr)) (v : Value),
      (Expr.map es).run vars c = (.ok v, d) →
      ∃ pairs entries, v = .map entries ∧ Evaluated vars c es pairs d ∧
        ((∀ p ∈ pairs, p.1.FloatFree) → Filled [] pairs entries) := by
  refine ⟨fun vars hvars => ?_, ?_, fun vars c d es v => Expr.run_map⟩
  · have hall := hvars.all kept_wellKeyed
    exact ⟨hall, fun source context => evaluateWatched_eq kept_wellKeyed source hall context⟩
  · intro rounds name position e w w' entries hname hentries hrun
    obtain ⟨key, value, c, d, entries', hkey, hvalue, hassigned, rfl⟩ := Stmt.run_element hname hrun
    exact ⟨key, value, c, d, entries', hkey, hvalue, rfl,
      fun hfree => updated_of_assignKey hentries hfree hassigned⟩

/-- A new key in a map with another one. -/
theorem maps_ordered_newKey :
    let w : World :=
      { vars := Bindings.empty.set "m" (.map [(.text "a", .int 1)])
        context := { output := .empty 100, clock := 0, cancelAt := none } }
    let s : Stmt := .assign (.element "m" (.literal (.text "b"))) (.literal (.int 2))
    (s.run 0 w).1 = .ok () ∧
      Updated [(.text "a", .int 1)] (.text "b") (.int 2) [(.text "a", .int 1), (.text "b", .int 2)] := by
  intro w s
  have hrun : s.run 0 w =
      (.ok (), { w with vars := w.vars.set "m" (.map [(.text "a", .int 1), (.text "b", .int 2)]) }) := by
    have hnested (v : Value) (hv : v.isScalar = true) : nestable v = .ok v := by
      rw [nestable, depth_of_isScalar hv]
      rfl
    have hassigned : assignElement (.map [(.text "a", .int 1)]) (.text "b") (.int 2) =
        .ok (.map [(.text "a", .int 1), (.text "b", .int 2)]) := by
      rw [assignElement_map (hnested _ rfl), assignKey, hnested _ rfl]
      rfl
    show (Action.ofRun (fun _ => .ofExcept
      (assignElement (.map [(.text "a", .int 1)]) (.text "b") (.int 2))) >>= bindName "m") w = _
    rw [hassigned]
    rfl
  have htext (key : String) : (Value.text key).FloatFree := by
    intro x hx
    cases hx
  have hfree : ∀ e ∈ [(Value.text "a", Value.int 1)], e.1.FloatFree := by
    simpa using htext "a"
  obtain ⟨key, value, c, d, entries', hkey, hvalue, hafter, hupdated⟩ :=
    maps_ordered.2.1 0 "m" _ _ w _ _ rfl hfree hrun
  cases hkey
  cases hvalue
  cases hafter
  exact ⟨congrArg Prod.fst hrun, hupdated (htext "b")⟩

end ReplDaemon.Script
