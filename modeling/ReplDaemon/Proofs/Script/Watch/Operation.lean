import ReplDaemon.Proofs.Fault
import ReplDaemon.Proofs.Script.Program.Spelling
import ReplDaemon.Script.Run

/-!
# Operations of the language, where they are defined

The operations of the script language index, subtract, and choose by operators that have been chosen
from before. Written with operations that are not defined everywhere, they come to the same for all
arguments, and to no fault.
-/

namespace ReplDaemon.Script

open Fault

/-- An operation that may fail, and that may not be defined. -/
abbrev Attempt (α : Type) := ExceptT RuntimeError (Except Fault) α

namespace Attempt

variable {α β : Type}

/-- An operation that is defined everywhere. -/
def of (x : Except RuntimeError α) : Attempt α :=
  ExceptT.mk (.ok x)

/-- An operation that does not fail. -/
def ofFault (x : Except Fault α) : Attempt α :=
  ExceptT.lift x

theorem of_ok_bind (a : α) (f : α → Attempt β) : (of (.ok a) >>= f) = f a := rfl

theorem of_error_bind (e : RuntimeError) (f : α → Attempt β) :
    (of (.error e) >>= f) = of (.error e) := rfl

end Attempt

/-- The index in a sequence that a value means. -/
def indexIn (length : Nat) : Value → Except RuntimeError Nat
  | .int i =>
    if 0 ≤ i.toInt ∧ i.toInt.toNat < length then .ok i.toInt.toNat
    else .error (.indexOutOfRange i length)
  | v => .error (.cannotIndexWith v.typeName)

/-- The item of a sequence at the index that a value means. -/
def itemIn {α : Type} (items : List α) (index : Value) : Attempt α := do
  let i ← .of (indexIn items.length index)
  .ofFault (item items i)

/-- The element of a container at an index. -/
def lookupAt (base index : Value) : Attempt Value :=
  match base with
  | .list items => itemIn items index
  | .text s => do
    let c ← itemIn s.toList index
    return .char c
  | base => .of (lookup base index)

/-- A container with one element set. -/
def assignElementAt (container index value : Value) : Attempt Value := do
  let value ← .of (nestable value)
  match container with
  | .list items =>
    let i ← .of (indexIn items.length index)
    let items ← .ofFault (setItem items i value)
    return .list items
  | container => .of (assignElement container index value)

theorem indexIn_eq (length : Nat) (v : Value) :
    indexIn length v = (placeIn length v).map (·.val) := by
  cases v with
  | int i =>
      by_cases h : 0 ≤ i.toInt ∧ i.toInt.toNat < length
      · rw [indexIn, if_pos h, placeIn, dif_pos h]
        rfl
      · rw [indexIn, if_neg h, placeIn, dif_neg h]
        rfl
  | _ => rfl

/-- An index that was found is below the length. -/
theorem itemIn_eq {α : Type} (items : List α) (index : Value) :
    itemIn items index = .of ((placeIn items.length index).map (items[·])) := by
  rw [itemIn, indexIn_eq]
  cases placeIn items.length index with
  | error e => rfl
  | ok i => exact congrArg Attempt.ofFault (item_of_lt i.isLt)

theorem lookupAt_eq (base index : Value) : lookupAt base index = .of (lookup base index) := by
  cases base with
  | list items =>
      rw [lookupAt, itemIn_eq, lookup]
      cases placeIn items.length index <;> rfl
  | text s =>
      rw [lookupAt, itemIn_eq, lookup]
      cases placeIn s.toList.length index <;> rfl
  | _ => rfl

theorem nestable_eq_ok {v w : Value} (h : nestable v = .ok w) :
    w = v ∧ v.depth < Value.maxNesting := by
  rw [nestable] at h
  split at h
  · next hlt =>
      cases h
      exact ⟨rfl, hlt⟩
  · cases h

theorem assignElement_list {value : Value} (h : nestable value = .ok value) (items : List Value)
    (index : Value) :
    assignElement (.list items) index value =
      (placeIn items.length index).map fun i => .list (items.set i value) := by
  rw [assignElement, h]
  show (placeIn items.length index >>= fun i => pure (Value.list (items.set i value))) = _
  cases placeIn items.length index <;> rfl

theorem assignElement_map {value : Value} (h : nestable value = .ok value)
    (entries : List (Value × Value)) (index : Value) :
    assignElement (.map entries) index value = (assignKey entries index value).map .map := by
  rw [assignElement, h]
  show (assignKey entries index value >>= fun entries => pure (Value.map entries)) = _
  cases assignKey entries index value <;> rfl

theorem assignElementAt_eq (container index value : Value) :
    assignElementAt container index value = .of (assignElement container index value) := by
  unfold assignElementAt
  cases hvalue : nestable value with
  | error e =>
      rw [Attempt.of_error_bind, assignElement, hvalue]
      rfl
  | ok nested =>
      obtain ⟨rfl, -⟩ := nestable_eq_ok hvalue
      rw [Attempt.of_ok_bind]
      cases container with
      | list items =>
          dsimp only
          rw [assignElement_list hvalue, indexIn_eq]
          cases placeIn items.length index with
          | error e => rfl
          | ok i =>
              show (Attempt.ofFault (setItem items i.val nested) >>= _) = _
              rw [setItem_of_lt i.isLt]
              rfl
      | _ => rfl

/-- Integer arithmetic by the operator of a program. -/
def onIntsBy (o : Operator) (a b : Int64) : Attempt Value :=
  match o with
  | .plus => .of (Arithmetic.add.onInts a b)
  | .minus => .of (Arithmetic.subtract.onInts a b)
  | .times => .of (Arithmetic.multiply.onInts a b)
  | .divide => .of (Arithmetic.divide.onInts a b)
  | .percent => .of (Arithmetic.remainder.onInts a b)
  | _ => .ofFault (.error .unreachable)

/-- What an operator between two operands computes that both have been evaluated. -/
def BinaryOp.applyAt (op : BinaryOp) (a b : Value) : Attempt Value :=
  match op, a, b with
  | .equal, a, b => return .bool (a == b)
  | .notEqual, a, b => return .bool (a != b)
  | .compare c, a, b => .of (c.apply a b)
  | op, .int x, .int y => onIntsBy op.operator x y
  | .arithmetic op, a, b => .of (op.apply a b)
  | .and, _, _ | .or, _, _ => .ofFault (.error .unreachable)

theorem applyAt_arithmetic (op : Arithmetic) (a b : Value) :
    BinaryOp.applyAt (.arithmetic op) a b = .of (op.apply a b) := by
  cases a with
  | int x =>
      cases b with
      | int y => cases op <;> rfl
      | _ => rfl
  | _ => rfl

/-- The only argument of a function. -/
def onlyArgument (f : Builtin) (arguments : List Value) : Attempt Value :=
  if arguments.length = 1 then .ofFault (item arguments 0)
  else throw (.wrongArity f 1 arguments.length)

theorem onlyArgument_of_ne (f : Builtin) {arguments : List Value} (h : arguments.length ≠ 1) :
    onlyArgument f arguments = .of (.error (.wrongArity f 1 arguments.length)) :=
  if_neg h

/-- Sleeps slice by slice, as long as neither the time is over nor the evaluation cancelled. The answer
tells whether the sleep was completed. -/
def sleepSlices (start : Instant) (time : Nat) (c : Context) : Except Fault (Bool × Context) :=
  if c.cancelled then .ok (false, c)
  else if time ≤ c.clock - start then .ok (true, c)
  else
    match _hleft : minus time (c.clock - start) with
    | .error f => .error f
    | .ok left => sleepSlices start time (c.wait (min Context.sleepSlice left))
termination_by start + time - c.clock
decreasing_by
  next hle =>
    have hlt := Nat.not_le.mp hle
    rw [minus_of_le (Nat.le_of_lt hlt)] at _hleft
    cases _hleft
    have hslice : 0 < Context.sleepSlice := by decide
    simp only [Context.wait]
    omega

/-- A cancellation is noticed behind the slice that it falls into. -/
theorem noticedAt_slice {clock request : Nat} (wake : Nat) (h : clock < request) :
    Context.noticedAt clock wake request =
      if request ≤ clock + Context.sleepSlice then min wake (clock + Context.sleepSlice)
      else Context.noticedAt (clock + Context.sleepSlice) wake request := by
  have hslice : Context.sleepSlice = 10000 := rfl
  rw [Context.noticedAt, Context.noticedAt, hslice]
  dsimp only [Instant] at *
  split
  · congr 1
    omega
  · congr 1
    omega

/-- Whether the evaluation is cancelled by the end of a slice, and what is left of the sleep else. -/
theorem sleep_slice {c : Context} (left : Nat) (hcancelled : c.cancelled = false) :
    c.sleep left =
      if (c.wait (min Context.sleepSlice left)).cancelled then
        (false, c.wait (min Context.sleepSlice left))
      else (c.wait (min Context.sleepSlice left)).sleep (left - min Context.sleepSlice left) := by
  obtain ⟨output, (clock : Nat), cancelAt⟩ := c
  have hslice : 0 < Context.sleepSlice := by decide
  generalize hd : min Context.sleepSlice left = d
  have hwake : clock + d + (left - d) = clock + left := by omega
  rcases cancelAt with _ | (request : Nat)
  · simp [Context.sleep, Context.cancelled, Context.wait, hwake]
  · have hlater : clock < request := by simpa [Context.cancelled] using hcancelled
    have hsleep (clock left : Nat) : (⟨output, clock, some request⟩ : Context).sleep left =
        if request ≤ clock + left then
          (false, ⟨output, Context.noticedAt clock (clock + left) request, some request⟩)
        else (true, ⟨output, clock + left, some request⟩) := rfl
    have hlate : (⟨output, clock + d, some request⟩ : Context).cancelled =
        decide (request ≤ clock + d) := rfl
    show _ = if (⟨output, clock + d, some request⟩ : Context).cancelled then _
      else (⟨output, clock + d, some request⟩ : Context).sleep _
    rw [hlate, hsleep, hsleep, hwake, noticedAt_slice (clock + left) hlater]
    by_cases hnow : request ≤ clock + d
    · have hnoticed : min (clock + left) (clock + Context.sleepSlice) = clock + d := by omega
      rw [decide_eq_true hnow, if_pos rfl, if_pos (by omega), if_pos (by omega), hnoticed]
      rfl
    · rw [decide_eq_false hnow, if_neg Bool.false_ne_true]
      by_cases hwoken : request ≤ clock + left
      · have hfull : Context.sleepSlice = d := by omega
        rw [if_pos hwoken, if_pos hwoken, if_neg (by omega), hfull]
      · rw [if_neg hwoken, if_neg hwoken]

theorem sleep_zero {c : Context} (hcancelled : c.cancelled = false) : c.sleep 0 = (true, c) := by
  obtain ⟨output, clock, cancelAt⟩ := c
  cases cancelAt with
  | none => rfl
  | some request =>
      have hlater : clock < request := by simpa [Context.cancelled] using hcancelled
      simp [Context.sleep, hlater]

theorem sleepSlices_of_cancelled {c : Context} (start time : Nat) (h : c.cancelled = true) :
    sleepSlices start time c = .ok (false, c) := by
  rw [sleepSlices, if_pos h]

theorem sleepSlices_of_le {c : Context} {start time : Nat} (hcancelled : c.cancelled = false)
    (h : time ≤ c.clock - start) : sleepSlices start time c = .ok (true, c) := by
  rw [sleepSlices, hcancelled, if_neg Bool.false_ne_true, if_pos h]

theorem sleepSlices_of_minus {c : Context} {start time left : Nat} (hcancelled : c.cancelled = false)
    (htime : ¬ time ≤ c.clock - start) (hleft : minus time (c.clock - start) = .ok left) :
    sleepSlices start time c = sleepSlices start time (c.wait (min Context.sleepSlice left)) := by
  rw [sleepSlices, hcancelled, if_neg Bool.false_ne_true, if_neg htime]
  split
  · next hminus => cases hminus.symm.trans hleft
  · next hminus =>
      cases hminus.symm.trans hleft
      rfl

/-- Sleeping slice by slice is sleeping until the time is over or the cancellation is noticed. -/
theorem sleepSlices_eq (start time : Nat) (c : Context) (hstart : start ≤ c.clock)
    (htime : c.clock ≤ start + time) (hcancelled : c.cancelled = false) :
    sleepSlices start time c = .ok (c.sleep (start + time - c.clock)) := by
  induction c using sleepSlices.induct start time with
  | case1 c h => cases hcancelled.symm.trans h
  | case2 c _ hover =>
      have hclock : start + time - c.clock = 0 := by
        dsimp only [Instant] at *
        omega
      rw [sleepSlices_of_le hcancelled hover, hclock, sleep_zero hcancelled]
  | case3 c _ hover f hminus =>
      rw [minus_of_le (Nat.le_of_not_le hover)] at hminus
      cases hminus
  | case4 c _ hover left hminus ih =>
      have hleft : left = start + time - c.clock := by
        have hsome := hminus
        rw [minus_of_le (Nat.le_of_not_le hover)] at hsome
        cases hsome
        dsimp only [Instant] at *
        omega
      rw [sleepSlices_of_minus hcancelled hover hminus, ← hleft, sleep_slice left hcancelled]
      have hslice : min Context.sleepSlice left ≤ left := Nat.min_le_right _ _
      have hclock (d : Nat) : (c.wait d).clock = c.clock + d := rfl
      generalize min Context.sleepSlice left = d at ih hslice ⊢
      cases hcancelled : (c.wait d).cancelled with
      | true => exact sleepSlices_of_cancelled start time hcancelled
      | false =>
          have hrest : start + time - (c.wait d).clock = left - d := by
            rw [hclock]
            dsimp only [Instant] at *
            omega
          rw [ih (by rw [hclock]; exact Nat.le_add_right_of_le hstart)
            (by rw [hclock]; dsimp only [Instant] at *; omega) hcancelled, hrest]
          rfl

end ReplDaemon.Script
