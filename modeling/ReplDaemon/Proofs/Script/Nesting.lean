import ReplDaemon.Proofs.Script.Watch.Evaluation
import ReplDaemon.Proofs.Value.Depth

/-!
# How deep the values of programs nest

No value that a program makes nests deeper than `maxNesting`, whatever sources a session has evaluated
before, and however these evaluations have ended.
-/

namespace ReplDaemon.Script

/-- Whatever holds of all keys and values before one is given another value, and of that. -/
theorem forall_mem_replace? {p q : Value → Prop} {key value : Value}
    {entries entries' : List (Value × Value)} (h : replace? key value entries = some entries')
    (hentries : ∀ e ∈ entries, p e.1 ∧ q e.2) (hvalue : q value) : ∀ e ∈ entries', p e.1 ∧ q e.2 := by
  induction entries generalizing entries' with
  | nil => cases h
  | cons e es ih =>
      obtain ⟨hfirst, hrest⟩ := List.forall_mem_cons.mp hentries
      rw [replace?] at h
      split at h
      · cases h
        exact List.forall_mem_cons.mpr ⟨⟨hfirst.1, hvalue⟩, hrest⟩
      · obtain ⟨es', hes, rfl⟩ := Option.map_eq_some_iff.mp h
        exact List.forall_mem_cons.mpr ⟨hfirst, ih hes hrest⟩

theorem forall_mem_assignKey {p q : Value → Prop} {key value : Value}
    {entries entries' : List (Value × Value)} (h : assignKey entries key value = .ok entries')
    (hentries : ∀ e ∈ entries, p e.1 ∧ q e.2) (hkey : key.depth < Value.maxNesting → p key)
    (hvalue : q value) : ∀ e ∈ entries', p e.1 ∧ q e.2 := by
  rw [assignKey] at h
  split at h
  · next hreplace =>
      cases h
      exact forall_mem_replace? hreplace hentries hvalue
  · rcases hnested : nestable key with e | nested
    · rw [hnested] at h
      cases h
    · obtain ⟨rfl, hroom⟩ := nestable_eq_ok hnested
      rw [hnested] at h
      cases h
      exact List.forall_mem_append.mpr ⟨hentries, List.forall_mem_singleton.mpr ⟨hkey hroom, hvalue⟩⟩

/-- Operations keep values from nesting too deep. -/
theorem kept_depth_le :
    Kept (fun v => v.depth ≤ Value.maxNesting) (fun v => v.depth ≤ Value.maxNesting - 1) where
  scalar h := by
    rw [depth_of_isScalar h]
    exact Nat.zero_le _
  ofPart h := Nat.le_trans h (Nat.sub_le _ _)
  nest _ h := Nat.le_pred_of_lt h
  list_iff := Value.depth_list_le_iff
  noEntries := Value.depth_map_le_iff.mpr nofun
  entry h hmem := Value.depth_map_le_iff.mp h _ hmem
  assign h _ hvalue hassigned :=
    Value.depth_map_le_iff.mpr <|
      forall_mem_assignKey (p := fun v => v.depth ≤ Value.maxNesting - 1)
        (q := fun v => v.depth ≤ Value.maxNesting - 1) hassigned (Value.depth_map_le_iff.mp h)
        Nat.le_pred_of_lt hvalue

/-- In every session whose variables come from evaluations, no variable nests deeper than `maxNesting`,
and neither does any value that an expression comes to in an evaluation, nor the value of the whole. -/
theorem Reached.depth_le {vars : Bindings} (h : Reached vars) :
    (∀ e ∈ vars.entries, e.2.depth ≤ Value.maxNesting) ∧
      ∀ source context,
        ∃ noted, evaluateWatched source vars context = (evaluate source vars context, noted) ∧
          (∀ v ∈ noted, v.depth ≤ Value.maxNesting) ∧
          (∀ e ∈ (evaluate source vars context).session.entries, e.2.depth ≤ Value.maxNesting) ∧
          ∀ v, (evaluate source vars context).ending = .returned (.ok (.completed (some v))) →
            v.depth ≤ Value.maxNesting :=
  ⟨h.all kept_depth_le, fun source context =>
    evaluateWatched_eq kept_depth_le source (h.all kept_depth_le) context⟩

/-- A session that has run out of time while it nested a list deeper and deeper. -/
theorem Reached.depth_le_lists :
    let context : Context := { output := .empty 100, clock := 0, cancelAt := some 40 }
    let vars := (evaluate "let x = []; while true { x = [x]; }" .empty context).session
    Reached vars ∧
      ∃ noted, evaluateWatched "[x, x]" vars context = (evaluate "[x, x]" vars context, noted) ∧
        ∀ v ∈ noted, v.depth ≤ Value.maxNesting := by
  intro context vars
  have hreached : Reached vars :=
    .after .new "let x = []; while true { x = [x]; }" context
  obtain ⟨noted, hsame, hnoted, -⟩ := hreached.depth_le.2 "[x, x]" context
  exact ⟨hreached, noted, hsame, hnoted⟩

end ReplDaemon.Script
