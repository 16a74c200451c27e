import ReplDaemon.Proofs.Script.InPlace.Run

/-!
# What runs in place come to

In place, an edit of a container leaves it alone if it fails, and an expression comes to what it comes to
where it cannot change a variable.
-/

namespace ReplDaemon.Script

theorem Bindings.setIn_of_lookup {name : String} {value : Value} {entries : List (String × Value)}
    (h : entries.lookup name = some value) : Bindings.setIn name value entries = entries := by
  induction entries with
  | nil => simp at h
  | cons e es ih => grind [Bindings.setIn]

theorem Bindings.set_of_find? {b : Bindings} {name : String} {value : Value}
    (h : b.find? name = some value) : b.set name value = b := by
  simp only [Bindings.set, Bindings.setIn_of_lookup h]

section Edits

/-- A key is given a new value where it stands first. -/
theorem replace?_eq (key value : Value) (entries : List (Value × Value)) :
    replace? key value entries =
      (entries.findIdx? fun e => e.1 == key).map fun place =>
        entries.modify place fun e => (e.1, value) := by
  induction entries with
  | nil => rfl
  | cons e es ih =>
      cases h : e.1 == key with
      | true => simp [replace?, List.findIdx?_cons, h]
      | false =>
          cases hplace : es.findIdx? fun e => e.1 == key <;>
            simp [replace?, List.findIdx?_cons, h, ih, hplace]

theorem lift_apply {E S α : Type} (x : Except E α) (s : S) :
    (liftM x : ExceptT E (StateM S) α) s = (x, s) := by
  rfl

/-- An edit comes to the container with the element set, or else fails and leaves it as it is. -/
theorem Edit.setElement_apply (index value container : Value) :
    Edit.setElement index value container =
      match assignElement container index value with
      | .ok edited => (.ok (), edited)
      | .error e => (.error e, container) := by
  simp only [Edit.setElement, assignElement, bind_apply, lift_apply, get_apply]
  cases nestable value with
  | error e => rfl
  | ok value =>
      cases container with
      | list items =>
          simp only [bind_apply, lift_apply]
          cases placeIn items.length index <;> rfl
      | map entries =>
          simp only [assignKey, replace?_eq]
          cases entries.findIdx? fun e => e.1 == index with
          | some place => rfl
          | none =>
              simp only [bind_apply, lift_apply]
              cases nestable index <;> rfl
      | _ => rfl

end Edits

section Worlds

variable {α β : Type}

@[simp] theorem Action.ofRun_pure (a : α) : Action.ofRun (fun _ => pure a) = pure a := by
  rfl

@[simp] theorem Action.ofRun_bind (r : Bindings → Run α) (f : α → Bindings → Run β) :
    Action.ofRun (fun vars => r vars >>= fun a => f a vars) =
      Action.ofRun r >>= fun a => Action.ofRun (f a) := by
  funext w
  simp only [bind_apply, ofRun_apply]
  cases r w.vars w.context with
  | mk outcome context => cases outcome <;> rfl

@[simp] theorem Action.ofRun_ite (b : Bool) (r s : Bindings → Run α) :
    Action.ofRun (fun vars => if b then r vars else s vars) =
      if b then Action.ofRun r else Action.ofRun s := by
  cases b <;> rfl

@[simp] theorem Run.ofExcept_bind (x : Except RuntimeError α) (f : α → Except RuntimeError β) :
    Run.ofExcept (x >>= f) = Run.ofExcept x >>= fun a => Run.ofExcept (f a) := by
  cases x <;> rfl

@[simp] theorem Run.ofExcept_pure (a : α) : Run.ofExcept (pure a) = pure a := by
  rfl

namespace InPlace

@[simp] theorem of_pure (a : α) : of (pure a) = pure a := by
  rfl

@[simp] theorem of_bind (a : Action α) (f : α → Action β) : of (a >>= f) = of a >>= fun x => of (f x) := by
  funext σ
  simp only [bind_apply, of]
  cases a σ.toWorld with
  | mk outcome world => cases outcome <;> rfl

@[simp] theorem of_ite (b : Bool) (a a' : Action α) :
    of (if b then a else a') = if b then of a else of a' := by
  cases b <;> rfl

/-- An edit of a value that no variable has comes to what the operation does. -/
theorem editValue_setElement (container index value : Value) :
    editValue container (.setElement index value) = ofExcept (assignElement container index value) := by
  rw [editValue, Edit.setElement_apply]
  cases assignElement container index value <;> rfl

end InPlace

mutual

/-- In place, an expression comes to what it comes to where it cannot change a variable. -/
theorem Expr.inPlace_eq : (e : Expr) → e.inPlace = .of (.ofRun (e.run ·))
  | .literal l => by
      simp [Expr.inPlace, Expr.run]
  | .var name => by
      rw [Expr.inPlace, Action.bindingOf?_eq]
      rfl
  | .list items => by
      simp [-bind_pure_comp, Expr.inPlace, Expr.run, itemsInPlace_eq]
  | .map entries => by
      simp [Expr.inPlace, Expr.run, entriesInPlace_eq]
  | .unary op operand => by
      simp [Expr.inPlace, Expr.run, InPlace.ofExcept, operand.inPlace_eq]
  | .binary .and lhs rhs => by
      simp [-bind_pure_comp, Expr.inPlace, Expr.run, lhs.inPlace_eq, rhs.inPlace_eq]
  | .binary .or lhs rhs => by
      simp [-bind_pure_comp, Expr.inPlace, Expr.run, lhs.inPlace_eq, rhs.inPlace_eq]
  | .binary .equal lhs rhs => by
      simp [-bind_pure_comp, Expr.inPlace, Expr.run, lhs.inPlace_eq, rhs.inPlace_eq]
  | .binary .notEqual lhs rhs => by
      simp [-bind_pure_comp, Expr.inPlace, Expr.run, lhs.inPlace_eq, rhs.inPlace_eq]
  | .binary (.compare op) lhs rhs => by
      simp [Expr.inPlace, Expr.run, InPlace.ofExcept, lhs.inPlace_eq, rhs.inPlace_eq]
  | .binary (.arithmetic op) lhs rhs => by
      simp [Expr.inPlace, Expr.run, InPlace.ofExcept, lhs.inPlace_eq, rhs.inPlace_eq]
  | .index base position => by
      simp [Expr.inPlace, Expr.run, InPlace.ofExcept, base.inPlace_eq, position.inPlace_eq]
  | .call name arguments => by
      simp [Expr.inPlace, Expr.run, argumentsInPlace_eq]

theorem itemsInPlace_eq (found : List Value) : (items : List Expr) →
    itemsInPlace found items = .of (.ofRun (runItems · found items))
  | [] => by
      simp [itemsInPlace, runItems]
  | e :: es => by
      simp [itemsInPlace, runItems, InPlace.ofExcept, e.inPlace_eq, fun v => itemsInPlace_eq v es]

theorem entriesInPlace_eq (found : List (Value × Value)) : (entries : List (Expr × Expr)) →
    entriesInPlace (.map found) entries =
      .of (.ofRun fun vars => do return .map (← runEntries vars found entries))
  | [] => by
      simp [entriesInPlace, runEntries]
  | (k, e) :: es => by
      simp [-bind_pure_comp, entriesInPlace, runEntries, InPlace.ofExcept, k.inPlace_eq, e.inPlace_eq,
        InPlace.editValue_setElement, assignElement, fun found => entriesInPlace_eq found es]

theorem argumentsInPlace_eq (found : List Value) : (arguments : List Expr) →
    argumentsInPlace found arguments = .of (.ofRun (runArguments · found arguments))
  | [] => by
      simp [argumentsInPlace, runArguments]
  | e :: es => by
      simp [argumentsInPlace, runArguments, e.inPlace_eq, fun v => argumentsInPlace_eq v es]

end

end Worlds

end ReplDaemon.Script
