import ReplDaemon.Proofs.Script.Nesting
import ReplDaemon.Proofs.Value.Equality

/-!
# Keys of maps

No map that a program makes has two keys that are equal, as a key that is present keeps its place when it
is set, and no key that is put behind the others is equal to one of them.
-/

namespace ReplDaemon.Script

section Keys

/-- No two entries have keys that are equal. -/
def DistinctKeys (entries : List (Value × Value)) : Prop :=
  ∀ i j : Fin entries.length, i ≠ j → (entries[i].1 == entries[j].1) = false

theorem distinctKeys_iff {entries : List (Value × Value)} :
    DistinctKeys entries ↔ (entries.map (·.1)).Pairwise fun k l => (k == l) = false := by
  rw [List.pairwise_map, List.pairwise_iff_getElem]
  constructor
  · intro h i j hi hj hij
    exact h ⟨i, hi⟩ ⟨j, hj⟩ (by simp [Fin.ext_iff, hij.ne])
  · intro h i j hij
    rcases Nat.lt_or_gt_of_ne (Fin.val_ne_of_ne hij) with hlt | hlt
    · exact h i j i.2 j.2 hlt
    · rw [Value.beq_comm]
      exact h j i j.2 i.2 hlt

variable {entries entries' : List (Value × Value)} {key value : Value}

theorem replace?_eq_none (h : replace? key value entries = none) :
    ∀ e ∈ entries, (e.1 == key) = false := by
  induction entries with
  | nil => simp
  | cons e es ih =>
      simp only [replace?] at h
      split at h
      · cases h
      · next hne =>
          simp only [Option.map_eq_none_iff] at h
          simpa [hne] using ih h

theorem replace?_eq_some (h : replace? key value entries = some entries') :
    ∃ before k old behind, entries = before ++ (k, old) :: behind ∧ (k == key) = true ∧
      (∀ e ∈ before, (e.1 == key) = false) ∧ entries' = before ++ (k, value) :: behind := by
  induction entries generalizing entries' with
  | nil => cases h
  | cons e es ih =>
      simp only [replace?] at h
      split at h
      · next heq =>
          cases h
          exact ⟨[], e.1, e.2, es, rfl, heq, by simp, rfl⟩
      · next hne =>
          obtain ⟨es', hes, rfl⟩ := Option.map_eq_some_iff.mp h
          obtain ⟨before, k, old, behind, rfl, hk, hbefore, rfl⟩ := ih hes
          exact ⟨e :: before, k, old, behind, rfl, hk, by simpa [hne] using hbefore, rfl⟩

/-- A key that is present keeps its place and gets the value, where it stands first; a new one is put
behind the others. -/
theorem assignKey_cases (h : assignKey entries key value = .ok entries') :
    (∃ before k old behind, entries = before ++ (k, old) :: behind ∧ (k == key) = true ∧
      (∀ e ∈ before, (e.1 == key) = false) ∧ entries' = before ++ (k, value) :: behind) ∨
    (∀ e ∈ entries, (e.1 == key) = false) ∧ entries' = entries ++ [(key, value)] := by
  rw [assignKey] at h
  split at h
  · next hreplace =>
      cases h
      exact .inl (replace?_eq_some hreplace)
  · next hreplace =>
      cases hnested : nestable key with
      | error e =>
          rw [hnested] at h
          cases h
      | ok nested =>
          obtain ⟨rfl, -⟩ := nestable_eq_ok hnested
          rw [hnested] at h
          cases h
          exact .inr ⟨replace?_eq_none hreplace, rfl⟩

theorem DistinctKeys.assignKey (hentries : DistinctKeys entries)
    (h : assignKey entries key value = .ok entries') : DistinctKeys entries' := by
  rw [distinctKeys_iff] at hentries ⊢
  rcases assignKey_cases h with ⟨before, k, old, behind, rfl, -, -, rfl⟩ | ⟨hnew, rfl⟩
  · simpa using hentries
  · simpa [List.pairwise_append, hentries] using fun k v hmem => hnew (k, v) hmem

end Keys

/-- No map in a value has two keys that are equal. -/
def WellKeyed (v : Value) : Prop :=
  ∀ entries, Value.Within (.map entries) v → DistinctKeys entries

theorem wellKeyed_of_isScalar {v : Value} (h : v.isScalar = true) : WellKeyed v := by
  intro entries hwithin
  cases hwithin <;> cases h

theorem wellKeyed_list_iff {items : List Value} :
    WellKeyed (.list items) ↔ ∀ v ∈ items, WellKeyed v := by
  constructor
  · exact fun h v hv entries hwithin => h entries (.item hv hwithin)
  · intro h entries hwithin
    cases hwithin with
    | item hv hwithin => exact h _ hv entries hwithin

theorem wellKeyed_map_iff {entries : List (Value × Value)} :
    WellKeyed (.map entries) ↔
      DistinctKeys entries ∧ ∀ e ∈ entries, WellKeyed e.1 ∧ WellKeyed e.2 := by
  constructor
  · exact fun h => ⟨h entries .self, fun e he =>
      ⟨fun inner hwithin => h inner (.key he hwithin),
        fun inner hwithin => h inner (.value he hwithin)⟩⟩
  · rintro ⟨hdistinct, hparts⟩ inner hwithin
    cases hwithin with
    | self => exact hdistinct
    | key he hwithin => exact (hparts _ he).1 inner hwithin
    | value he hwithin => exact (hparts _ he).2 inner hwithin

/-- Operations keep the keys of maps distinct. -/
theorem kept_wellKeyed : Kept WellKeyed WellKeyed where
  scalar := wellKeyed_of_isScalar
  ofPart h := h
  nest h _ := h
  list_iff := wellKeyed_list_iff
  noEntries := wellKeyed_map_iff.mpr ⟨fun i => i.elim0, by simp⟩
  entry h hmem := (wellKeyed_map_iff.mp h).2 _ hmem
  assign h hkey hvalue hassigned := by
    obtain ⟨hdistinct, hparts⟩ := wellKeyed_map_iff.mp h
    exact wellKeyed_map_iff.mpr ⟨hdistinct.assignKey hassigned,
      forall_mem_assignKey hassigned hparts (fun _ => hkey) hvalue⟩

end ReplDaemon.Script
