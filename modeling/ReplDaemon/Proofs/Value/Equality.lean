import Mathlib
import ReplDaemon.Value.Basic

/-!
# Equality of values

Equality is symmetric. It is no equivalence, as a floating point number may equal several integers and a
NaN does not equal itself; but among values without floating point numbers it is one.
-/

namespace ReplDaemon

namespace Number

open Float.Model

theorem sign_compare_swap (s t : UnpackedFloat.Sign) : (compare s t).swap = compare t s := by
  cases s <;> cases t <;> rfl

theorem compare_swap (x y : UnpackedFloat) : x.compare y = (y.compare x).map Ordering.swap := by
  rcases x with ⟨_ | _⟩ | _ | s | ⟨_ | _, m, e⟩ <;> rcases y with ⟨_ | _⟩ | _ | s | ⟨_ | _, m, e⟩ <;>
    simp [UnpackedFloat.compare, Ordering.swap_then, sign_compare_swap, Nat.compare_swap,
      Int.compare_swap]

theorem beq_comm (x y : Float) : (x == y) = (y == x) := by
  show (x.toModel.unpack.compare y.toModel.unpack == some .eq) =
    (y.toModel.unpack.compare x.toModel.unpack == some .eq)
  rw [compare_swap]
  rcases y.toModel.unpack.compare x.toModel.unpack with _ | _ | _ | _ <;> rfl

end Number

namespace Value

mutual

theorem equal_comm : (a b : Value) → equal a b = equal b a
  | .list as, b => by
      cases b with
      | list bs => simp only [equal, equalItems_comm as bs]
      | _ => rfl
  | .map as, b => by
      cases b with
      | map bs => simp only [equal, equalEntries_comm as bs]
      | _ => rfl
  | .float x, b => by
      cases b with
      | float y => simp only [equal, Number.beq_comm x y]
      | _ => rfl
  | .null, b | .bool _, b | .int _, b | .text _, b | .char _, b | .iterable _ _ _, b
  | .sealed _ _, b | .native _, b => by
      cases b <;> simp only [equal] <;> exact BEq.comm

theorem equalItems_comm : (as bs : List Value) → equalItems as bs = equalItems bs as
  | [], [] | [], _ :: _ | _ :: _, [] => rfl
  | a :: as, b :: bs => by simp only [equalItems, equal_comm a b, equalItems_comm as bs]

theorem equalEntries_comm : (as bs : List (Value × Value)) → equalEntries as bs = equalEntries bs as
  | [], [] | [], _ :: _ | _ :: _, [] => rfl
  | (k, v) :: as, (l, w) :: bs => by
      simp only [equalEntries, equal_comm k l, equal_comm v w, equalEntries_comm as bs]

end

theorem beq_comm (a b : Value) : (a == b) = (b == a) :=
  equal_comm a b

/-- A value is another one or stands inside of it, at any depth. -/
inductive Within (u : Value) : Value → Prop
  | self : Within u u
  | item {items : List Value} {v : Value} (mem : v ∈ items) (inside : Within u v) :
      Within u (.list items)
  | key {entries : List (Value × Value)} {e : Value × Value} (mem : e ∈ entries)
      (inside : Within u e.1) : Within u (.map entries)
  | value {entries : List (Value × Value)} {e : Value × Value} (mem : e ∈ entries)
      (inside : Within u e.2) : Within u (.map entries)
  | element {identity : Nat} {elements : List Value} {display : String} {v : Value}
      (mem : v ∈ elements) (inside : Within u v) : Within u (.iterable identity elements display)

/-- No floating point numbers are in a value. -/
def FloatFree (v : Value) : Prop :=
  ∀ x, ¬ Within (.float x) v

theorem FloatFree.items {items : List Value} (h : FloatFree (.list items)) :
    ∀ v ∈ items, v.FloatFree :=
  fun _ hv x hx => h x (.item hv hx)

theorem FloatFree.entries {entries : List (Value × Value)} (h : FloatFree (.map entries)) :
    ∀ e ∈ entries, e.1.FloatFree ∧ e.2.FloatFree :=
  fun _ he => ⟨fun x hx => h x (.key he hx), fun x hx => h x (.value he hx)⟩

mutual

/-- A value without what equality does not look at. -/
def bare : Value → Value
  | .list items => .list (bareItems items)
  | .map entries => .map (bareEntries entries)
  | .iterable identity _ _ => .iterable identity [] ""
  | .sealed identity _ => .sealed identity ""
  | v => v

/-- Items without what equality does not look at. -/
def bareItems : List Value → List Value
  | [] => []
  | v :: vs => bare v :: bareItems vs

/-- Entries without what equality does not look at. -/
def bareEntries : List (Value × Value) → List (Value × Value)
  | [] => []
  | (k, v) :: es => (bare k, bare v) :: bareEntries es

end

mutual

theorem equal_iff_bare_eq : (a b : Value) → a.FloatFree → b.FloatFree →
    (equal a b = true ↔ a.bare = b.bare)
  | .list as, b, ha, hb => by
      cases b with
      | list bs => simp [equal, bare, equalItems_iff_bare_eq as bs ha.items hb.items]
      | _ => simp [equal, bare]
  | .map as, b, ha, hb => by
      cases b with
      | map bs => simp [equal, bare, equalEntries_iff_bare_eq as bs ha.entries hb.entries]
      | _ => simp [equal, bare]
  | .float x, _, ha, _ => absurd .self (ha x)
  | .null, b, _, hb | .bool _, b, _, hb | .int _, b, _, hb | .text _, b, _, hb | .char _, b, _, hb
  | .iterable _ _ _, b, _, hb | .sealed _ _, b, _, hb | .native _, b, _, hb => by
      cases b with
      | float y => exact absurd .self (hb y)
      | _ => simp [equal, bare]

theorem equalItems_iff_bare_eq : (as bs : List Value) → (∀ a ∈ as, a.FloatFree) →
    (∀ b ∈ bs, b.FloatFree) → (equalItems as bs = true ↔ bareItems as = bareItems bs)
  | [], [], _, _ | [], _ :: _, _, _ | _ :: _, [], _, _ => by simp [equalItems, bareItems]
  | a :: as, b :: bs, ha, hb => by
      obtain ⟨hfirst, hrest⟩ := List.forall_mem_cons.mp ha
      obtain ⟨hfirst', hrest'⟩ := List.forall_mem_cons.mp hb
      simp [equalItems, bareItems, equal_iff_bare_eq a b hfirst hfirst',
        equalItems_iff_bare_eq as bs hrest hrest']

theorem equalEntries_iff_bare_eq : (as bs : List (Value × Value)) →
    (∀ a ∈ as, a.1.FloatFree ∧ a.2.FloatFree) → (∀ b ∈ bs, b.1.FloatFree ∧ b.2.FloatFree) →
    (equalEntries as bs = true ↔ bareEntries as = bareEntries bs)
  | [], [], _, _ | [], _ :: _, _, _ | _ :: _, [], _, _ => by simp [equalEntries, bareEntries]
  | (k, v) :: as, (l, w) :: bs, ha, hb => by
      obtain ⟨⟨hk, hv⟩, hrest⟩ := List.forall_mem_cons.mp ha
      obtain ⟨⟨hl, hw⟩, hrest'⟩ := List.forall_mem_cons.mp hb
      simp [equalEntries, bareEntries, equal_iff_bare_eq k l hk hl, equal_iff_bare_eq v w hv hw,
        equalEntries_iff_bare_eq as bs hrest hrest', and_assoc]

end

/-- Values without floating point numbers are equal if they are the same but for what equality does not
look at. -/
theorem beq_iff_bare_eq {a b : Value} (ha : a.FloatFree) (hb : b.FloatFree) :
    (a == b) = true ↔ a.bare = b.bare :=
  equal_iff_bare_eq a b ha hb

end Value

end ReplDaemon
