import ReplDaemon.Proofs.Concourse.Invariants

/-!
# What a registry goes by

A registry does not look into its sessions: what it does depends on their keys, their identities and when
they were used, and on who refers to them. So two registries that agree on these do the same, whatever has
happened in the sessions.
-/

namespace ReplDaemon

variable {State : Type}

/-- A session without what happens in it. -/
def Session.outline (s : Session State) : Session Unit :=
  .new s.key s.identity () s.outputLimit s.lastUsed

namespace Registry

variable {r r' : Registry State} {config : RegistryConfig} {key : String} {now : Instant}
  {reference : Reference}

/-- A registry without what happens in its sessions. -/
def outline (r : Registry State) : Registry Unit :=
  { r with sessions := r.sessions.map (·.outline) }

theorem references_outline (r : Registry State) : r.outline.references = r.references := by
  rw [references, outline, List.map_map]
  rfl

theorem Sound.outline (h : r.Sound) : r.outline.Sound := by
  refine ⟨?_, ?_, fun x hx => ?_⟩
  · rw [Registry.outline, List.map_map]
    exact h.keys
  · rw [Registry.outline, List.map_map]
    exact h.identities
  · obtain ⟨y, hy, rfl⟩ := List.mem_map.mp hx
    exact h.made y hy

theorem find?_outline (r : Registry State) (key : String) :
    r.outline.find? key = (r.find? key).map (·.outline) :=
  List.find?_map

theorem size_outline (r : Registry State) : r.outline.size = r.size :=
  List.length_map _

theorem outline_erase (r : Registry State) (identity : Nat) :
    (r.erase identity).outline = r.outline.erase identity := by
  simp only [erase, outline, List.filter_map]
  rfl

theorem outline_used (r : Registry State) (identity : Nat) (now : Instant) :
    (r.used identity now).outline = r.outline.used identity now := by
  simp only [used, outline, List.map_map]
  exact congrArg (Registry.mk · r.held r.made)
    (List.map_congr_left fun _ _ => apply_ite Session.outline _ _ _)

theorem outline_update (r : Registry State) (s : Session State) :
    (r.update s).outline = r.outline.update s.outline := by
  simp only [update, outline, List.map_map]
  exact congrArg (Registry.mk · r.held r.made)
    (List.map_congr_left fun _ _ => apply_ite Session.outline _ _ _)

/-- Putting a session in the place of another one that looks the same, but for its use, is marking this
one as used. -/
theorem Sound.outline_update (h : r.Sound) {x y : Session State} (hx : x ∈ r.sessions)
    (hy : y.outline = (x.touch now).outline) :
    (r.update y).outline = (r.used x.identity now).outline := by
  rw [Registry.outline_update, hy, outline_used]
  exact h.outline.update_touch (List.mem_map_of_mem hx) now

theorem outline_extend (r : Registry State) (state : State) (outputLimit : Nat) (key : String)
    (now : Instant) :
    (r.extend state outputLimit key now).outline = r.outline.extend () outputLimit key now := by
  simp only [extend, outline, List.map_append]
  rfl

theorem oldest?_map_outline (sessions : List (Session State)) :
    oldest? (sessions.map (·.outline)) = (oldest? sessions).map (·.outline) := by
  induction sessions with
  | nil => rfl
  | cons s rest ih =>
      rw [List.map_cons, oldest?, oldest?, ih]
      cases oldest? rest with
      | none => rfl
      | some t =>
          exact (apply_ite (Option.map Session.outline) (t.lastUsed < s.lastUsed) (some t)
            (some s)).symm

theorem idle_outline (r : Registry State) : r.outline.idle = r.idle.map (·.outline) := by
  rw [idle, idle, outline, List.filter_map]
  rfl

theorem outline_evict (most rounds : Nat) (r : Registry State) :
    (evict most rounds r).outline = evict most rounds r.outline := by
  induction rounds generalizing r with
  | zero => rfl
  | succ rounds ih =>
      have holdest : oldest? (r.outline.sessions.filter r.outline.isIdle) =
          (oldest? (r.sessions.filter r.isIdle)).map (·.outline) :=
        (congrArg oldest? (idle_outline r)).trans (oldest?_map_outline _)
      rw [evict, evict, size_outline, holdest]
      split
      · rfl
      · cases oldest? (r.sessions.filter r.isIdle) with
        | none => rfl
        | some s => exact (ih _).trans (congrArg _ (outline_erase r s.identity))

theorem outline_enforceCapacity (config : RegistryConfig) (r : Registry State) :
    (r.enforceCapacity config).outline = r.outline.enforceCapacity config := by
  unfold enforceCapacity
  cases config.maxSessions with
  | none => rfl
  | some most => rw [size_outline, outline_evict]

theorem outline_sweep (config : RegistryConfig) (now : Instant) (r : Registry State) :
    (r.sweep config now).2.outline = (r.outline.sweep config now).2 := by
  unfold sweep
  cases config.idleTtl with
  | none => rfl
  | some ttl =>
      simp only [outline, List.filter_map]
      rfl

theorem outline_acquire (r : Registry State) (config : RegistryConfig)
    (newSession : Except EngineError State) (outputLimit : Nat) (key : String) (now : Instant) :
    (r.acquire config newSession outputLimit key now).map (Prod.map id (·.outline)) =
      r.outline.acquire config (newSession.map fun _ => ()) outputLimit key now := by
  cases hfind : r.find? key with
  | some x =>
      have hfind' : r.outline.find? key = some x.outline := by
        rw [find?_outline, hfind, Option.map_some]
      rw [acquire_of_find? hfind, acquire_of_find? hfind']
      exact congrArg (fun q => Except.ok (_, hold q _)) (outline_update r (x.touch now))
  | none =>
      have hfind' : r.outline.find? key = none := by
        rw [find?_outline, hfind, Option.map_none]
      rw [acquire_of_none hfind, acquire_of_none hfind']
      cases newSession with
      | error e => rfl
      | ok state =>
          have hsame := outline_enforceCapacity config (r.extend state outputLimit key now)
          rw [outline_extend] at hsame
          exact congrArg (fun q => Except.ok (_, q)) hsame

/-- Registries with the same outline give the same reference to a key, and have the same outline
afterwards. -/
theorem exists_acquire (h : r.outline = r'.outline) {newSession : Except EngineError State}
    {outputLimit : Nat} {q : Registry State}
    (hacquire : r.acquire config newSession outputLimit key now = .ok (reference, q)) :
    ∃ q' : Registry State,
      r'.acquire config newSession outputLimit key now = .ok (reference, q') ∧
        q.outline = q'.outline := by
  have hsame := outline_acquire r config newSession outputLimit key now
  rw [h, ← outline_acquire r', hacquire] at hsame
  cases hacquire' : r'.acquire config newSession outputLimit key now with
  | error e =>
      rw [hacquire'] at hsame
      cases hsame
  | ok result =>
      obtain ⟨reference', q'⟩ := result
      rw [hacquire'] at hsame
      obtain ⟨hreference, houtline⟩ := Prod.mk.inj (Except.ok.inj hsame)
      exact ⟨q', congrArg (fun reference => Except.ok (reference, q')) hreference.symm, houtline⟩

end Registry

end ReplDaemon
