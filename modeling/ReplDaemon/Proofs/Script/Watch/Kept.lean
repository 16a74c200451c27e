import ReplDaemon.Proofs.Script.Effects
import ReplDaemon.Proofs.Script.Watch.Operation

/-!
# Properties that operations keep

A property of values that scalars have, that goes with one of the values inside containers, and that
survives setting an element, is kept by all operations and functions of the language.
-/

namespace ReplDaemon.Script

/-- A property of values, and one of the values inside containers, that operations keep. -/
structure Kept (whole part : Value → Prop) : Prop where
  scalar {v : Value} (scalar : v.isScalar = true) : whole v
  ofPart {v : Value} (h : part v) : whole v
  nest {v : Value} (h : whole v) (room : v.depth < Value.maxNesting) : part v
  list_iff {items : List Value} : whole (.list items) ↔ ∀ v ∈ items, part v
  noEntries : whole (.map [])
  entry {entries : List (Value × Value)} {key value : Value} (h : whole (.map entries))
    (mem : (key, value) ∈ entries) : part key ∧ part value
  assign {entries entries' : List (Value × Value)} {key value : Value} (h : whole (.map entries))
    (hkey : whole key) (hvalue : part value)
    (assigned : assignKey entries key value = .ok entries') : whole (.map entries')

/-- All variables have a value with a property. -/
def Bindings.All (p : Value → Prop) (vars : Bindings) : Prop :=
  ∀ e ∈ vars.entries, p e.2

namespace Bindings.All

variable {p : Value → Prop} {vars : Bindings} {name : String} {v : Value}

theorem empty (p : Value → Prop) : Bindings.empty.All p := by
  intro e he
  cases he

theorem find? (h : vars.All p) (hfind : vars.find? name = some v) : p v := by
  obtain ⟨before, behind, hentries, -⟩ := List.lookup_eq_some_iff.mp hfind
  exact h (name, v) (hentries ▸ List.mem_append_right before List.mem_cons_self)

theorem set (h : vars.All p) (hv : p v) : (vars.set name v).All p := by
  obtain ⟨entries⟩ := vars
  show ∀ e ∈ setIn name v entries, p e.2
  induction entries with
  | nil =>
      intro e he
      rw [setIn, List.mem_singleton] at he
      exact he ▸ hv
  | cons first rest ih =>
      have hfirst : p first.2 := h first List.mem_cons_self
      have hrest : ∀ e ∈ rest, p e.2 := fun e he => h e (List.mem_cons_of_mem first he)
      rw [setIn]
      split
      · exact List.forall_mem_cons.mpr ⟨hv, hrest⟩
      · exact List.forall_mem_cons.mpr ⟨hfirst, ih hrest⟩

end Bindings.All

/-- Whatever something comes to has a property. -/
def Returns {S α : Type} (post : α → Prop) (r : ExceptT Stop (StateM S) α) : Prop :=
  ∀ s a, (r s).1 = .ok a → post a

namespace Returns

variable {S α β : Type} {post : α → Prop}

theorem pure {a : α} (h : post a) : Returns post (Pure.pure a : ExceptT Stop (StateM S) α) := by
  intro s b hb
  cases hb
  exact h

theorem throw (e : Stop) : Returns post (MonadExcept.throw e : ExceptT Stop (StateM S) α) := by
  intro s a h
  cases h

theorem bind {f : β → ExceptT Stop (StateM S) α} (r : ExceptT Stop (StateM S) β)
    (h : ∀ b, Returns post (f b)) : Returns post (r >>= f) := by
  intro s a ha
  rw [bind_apply] at ha
  rcases hr : r s with ⟨_ | b, t⟩
  · rw [hr] at ha
    cases ha
  · rw [hr] at ha
    exact h b t a ha

theorem ofExcept {x : Except RuntimeError α} (h : ∀ a, x = .ok a → post a) :
    Returns post (Run.ofExcept x) := by
  cases x with
  | error e => exact throw (.failed e)
  | ok a => exact pure (h a rfl)

end Returns

theorem depth_of_isScalar {v : Value} (h : v.isScalar = true) : v.depth = 0 := by
  cases v with
  | null | bool | int | float | text | char => simp [Value.depth, Value.deepest]
  | list | map | iterable | sealed | native => cases h

namespace Kept

variable {whole part : Value → Prop}

theorem partScalar (h : Kept whole part) {v : Value} (hv : v.isScalar = true) : part v := by
  refine h.nest (h.scalar hv) ?_
  rw [depth_of_isScalar hv]
  decide

theorem append (h : Kept whole part) {xs ys : List Value} (hxs : whole (.list xs))
    (hys : whole (.list ys)) : whole (.list (xs ++ ys)) := by
  rw [h.list_iff] at hxs hys ⊢
  exact fun v hv => (List.mem_append.mp hv).elim (hxs v) (hys v)

theorem nestable (h : Kept whole part) {v w : Value} (hv : whole v) (hw : nestable v = .ok w) :
    part w := by
  obtain ⟨rfl, hroom⟩ := nestable_eq_ok hw
  exact h.nest hv hroom

theorem checkedInt (h : Kept whole part) {n : Int} {v : Value} (hv : checkedInt n = .ok v) :
    whole v := by
  rw [Script.checkedInt] at hv
  split at hv
  · cases hv
    exact h.scalar rfl
  · cases hv

theorem onInts (h : Kept whole part) (op : Arithmetic) {a b : Int64} {v : Value}
    (hv : op.onInts a b = .ok v) : whole v := by
  unfold Arithmetic.onInts at hv
  cases op with
  | add | subtract | multiply => exact h.checkedInt hv
  | divide =>
      dsimp only at hv
      split at hv
      · cases hv
      · exact h.checkedInt hv
  | remainder =>
      dsimp only at hv
      split at hv
      · cases hv
      · rcases hquotient : Script.checkedInt (a.toInt.tdiv b.toInt) with e | q
        · rw [hquotient] at hv
          cases hv
        · rw [hquotient] at hv
          exact h.checkedInt hv

theorem arithmetic (h : Kept whole part) (op : Arithmetic) {a b v : Value} (ha : whole a)
    (hb : whole b) (hv : op.apply a b = .ok v) : whole v := by
  unfold Arithmetic.apply at hv
  split at hv
  · exact h.onInts op hv
  · cases hv
    exact h.scalar rfl
  · cases hv
    exact h.append ha hb
  · split at hv
    · cases hv
      exact h.scalar rfl
    · cases hv

theorem comparison (h : Kept whole part) (op : Comparison) {a b v : Value}
    (hv : op.apply a b = .ok v) : whole v := by
  unfold Comparison.apply at hv
  rcases horder : valueOrder? a b with e | o
  · rw [horder] at hv
    cases hv
  · rw [horder] at hv
    cases hv
    exact h.scalar rfl

theorem unary (h : Kept whole part) (op : UnaryOp) {a v : Value} (hv : op.apply a = .ok v) :
    whole v := by
  unfold UnaryOp.apply at hv
  split at hv
  · cases hv
    exact h.scalar rfl
  · exact h.checkedInt hv
  · cases hv
    exact h.scalar rfl
  · cases hv

theorem find? (h : Kept whole part) {entries : List (Value × Value)} {key v : Value}
    (hentries : whole (.map entries)) (hv : Script.find? entries key = some v) : part v := by
  obtain ⟨⟨k, w⟩, hfind, rfl⟩ := Option.map_eq_some_iff.mp hv
  exact (h.entry hentries (List.mem_of_find?_eq_some hfind)).2

theorem lookup (h : Kept whole part) {base index v : Value} (hbase : whole base)
    (hv : lookup base index = .ok v) : whole v := by
  cases base with
  | list items =>
      rw [Script.lookup] at hv
      rcases hplace : placeIn items.length index with e | i
      · rw [hplace] at hv
        cases hv
      · rw [hplace] at hv
        cases hv
        exact h.ofPart (h.list_iff.mp hbase _ (List.getElem_mem _))
  | text s =>
      rw [Script.lookup] at hv
      rcases hplace : placeIn s.toList.length index with e | i
      · simp only [hplace] at hv
        cases hv
      · simp only [hplace] at hv
        cases hv
        exact h.scalar rfl
  | map entries =>
      rw [Script.lookup] at hv
      split at hv
      · next w hfind =>
          cases hv
          exact h.ofPart (h.find? hbase hfind)
      · cases hv
  | _ => cases hv

theorem assignElement (h : Kept whole part) {container index value v : Value}
    (hcontainer : whole container) (hindex : whole index) (hvalue : whole value)
    (hv : assignElement container index value = .ok v) : whole v := by
  rcases hnested : Script.nestable value with e | nested
  · rw [Script.assignElement, hnested] at hv
    cases hv
  · have hpart : part nested := h.nestable hvalue hnested
    obtain ⟨rfl, -⟩ := nestable_eq_ok hnested
    cases container with
    | list items =>
        rw [assignElement_list hnested] at hv
        rcases hplace : placeIn items.length index with e | i
        · rw [hplace] at hv
          cases hv
        · rw [hplace] at hv
          cases hv
          rw [h.list_iff] at hcontainer ⊢
          exact fun w hw => (List.mem_or_eq_of_mem_set hw).elim (hcontainer w) fun heq => heq ▸ hpart
    | map entries =>
        rw [assignElement_map hnested] at hv
        rcases hassign : assignKey entries index nested with e | entries'
        · rw [hassign] at hv
          cases hv
        · rw [hassign] at hv
          cases hv
          exact h.assign hcontainer hindex hpart hassign
    | _ =>
        rw [Script.assignElement, hnested] at hv
        cases hv

theorem lengthOf (h : Kept whole part) {a v : Value} (hv : lengthOf a = .ok v) : whole v := by
  unfold Script.lengthOf at hv
  split at hv
  · cases hv
    exact h.scalar rfl
  · cases hv
    exact h.scalar rfl
  · cases hv
    exact h.scalar rfl
  · cases hv

theorem rangeList (h : Kept whole part) {first limit : Int64}
    {v : Value} (hv : rangeList first limit = .ok v) : whole v := by
  rw [Script.rangeList] at hv
  split at hv
  · cases hv
  · cases hv
    rw [h.list_iff]
    intro v hv
    obtain ⟨k, -, rfl⟩ := List.mem_map.mp hv
    exact h.partScalar rfl

theorem characterAt (h : Kept whole part) {code : Int64} {v : Value}
    (hv : characterAt code = .ok v) : whole v := by
  rw [Script.characterAt] at hv
  by_cases hvalid : 0 ≤ code.toInt ∧ code.toInt.toNat.isValidChar
  · cases (dif_pos hvalid).symm.trans hv
    exact h.scalar rfl
  · cases (dif_neg hvalid).symm.trans hv

/-- Functions make nothing but values with the property from arguments that have it. -/
theorem call (h : Kept whole part) (f : Builtin) {arguments : List Value}
    (harguments : ∀ v ∈ arguments, whole v) : Returns whole (f.call arguments) := by
  unfold Builtin.call
  split
  case h_1 | h_2 => exact .bind _ fun _ => .pure (h.scalar rfl)
  case h_3 => exact .ofExcept fun _ => h.lengthOf
  case h_4 | h_5 => exact .pure (h.scalar rfl)
  case h_6 | h_7 => exact .ofExcept fun _ => h.rangeList
  case h_9 items item =>
    rcases hnested : Script.nestable item with e | nested
    · exact .throw _
    · refine .pure (h.append (harguments _ List.mem_cons_self) ?_)
      have hpart := h.nestable (harguments item (by simp)) hnested
      exact h.list_iff.mpr fun v hv => List.mem_singleton.mp hv ▸ hpart
  case h_12 entries =>
    refine .pure (h.list_iff.mpr fun v hv => ?_)
    obtain ⟨⟨key, value⟩, hmem, rfl⟩ := List.mem_map.mp hv
    exact (h.entry (harguments _ List.mem_cons_self) hmem).1
  case h_14 => exact .ofExcept fun _ => h.characterAt
  case h_16 => exact .pure (h.scalar rfl)
  case h_19 | h_20 => exact .bind _ fun _ => .bind _ fun _ => .pure (h.scalar rfl)
  all_goals exact .throw _

end Kept

end ReplDaemon.Script
