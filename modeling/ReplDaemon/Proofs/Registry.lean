import Mathlib.Data.List.Find
import Mathlib.Data.List.Nodup
import ReplDaemon.Registry

/-!
# Sound registries

No two sessions of a registry have the same key or the same identity, and the identities name sessions
made so far. So a session is found by its key and by its identity, and one that someone refers to
survives the making of others.
-/

namespace ReplDaemon

/-- Where keys are distinct, an entry is found by its key. -/
theorem find?_of_nodup_map {α κ : Type} [BEq κ] [LawfulBEq κ] (key : α → κ) {l : List α}
    (h : (l.map key).Nodup) {a : α} (ha : a ∈ l) : l.find? (key · == key a) = some a := by
  induction l with
  | nil => cases ha
  | cons b l ih =>
      rw [List.map_cons, List.nodup_cons] at h
      rcases List.mem_cons.mp ha with rfl | ha
      · simp
      · have hne : key b ≠ key a := fun he => h.1 (he ▸ List.mem_map_of_mem ha)
        rw [List.find?_cons_of_neg (by simpa using hne)]
        exact ih h.2 ha

namespace Registry

variable {State : Type}

/-- The keys are distinct, and so are the identities, which name sessions made so far. -/
structure Sound (r : Registry State) : Prop where
  keys : (r.sessions.map (·.key)).Nodup
  identities : (r.sessions.map (·.identity)).Nodup
  made : ∀ s ∈ r.sessions, s.identity < r.made

theorem sound_empty : (empty : Registry State).Sound :=
  ⟨List.nodup_nil, List.nodup_nil, fun _ h => absurd h List.not_mem_nil⟩

namespace Sound

variable {r : Registry State}

/-- Dropping sessions keeps a registry sound. -/
theorem of_sublist {r' : Registry State} (h : r.Sound) (hsub : r'.sessions.Sublist r.sessions)
    (hmade : r'.made = r.made) : r'.Sound := by
  refine ⟨h.keys.sublist (hsub.map _), h.identities.sublist (hsub.map _), fun s hs => ?_⟩
  rw [hmade]
  exact h.made s (hsub.subset hs)

theorem find? (h : r.Sound) {s : Session State} (hs : s ∈ r.sessions) : r.find? s.key = some s :=
  find?_of_nodup_map _ h.keys hs

theorem find?_identity (h : r.Sound) {s : Session State} (hs : s ∈ r.sessions) :
    r.sessions.find? (·.identity == s.identity) = some s :=
  find?_of_nodup_map _ h.identities hs

theorem eq_of_identity (h : r.Sound) {s t : Session State} (hs : s ∈ r.sessions)
    (ht : t ∈ r.sessions) (he : t.identity = s.identity) : t = s := by
  have hfound := h.find?_identity ht
  rw [he, h.find?_identity hs] at hfound
  exact (Option.some.inj hfound).symm

/-- A session may be replaced by one with the same key and identity. -/
theorem update (h : r.Sound) {s t : Session State} (hs : s ∈ r.sessions) (hkey : t.key = s.key)
    (hidentity : t.identity = s.identity) : (r.update t).Sound := by
  have hsame (u : Session State) (hu : u ∈ r.sessions) :
      (if u.identity == t.identity then t else u).key = u.key ∧
        (if u.identity == t.identity then t else u).identity = u.identity := by
    by_cases he : u.identity = t.identity
    · rw [if_pos (by simpa using he), h.eq_of_identity hs hu (he.trans hidentity)]
      exact ⟨hkey, hidentity⟩
    · rw [if_neg (by simpa using he)]
      exact ⟨rfl, rfl⟩
  have hkeys : (r.update t).sessions.map (·.key) = r.sessions.map (·.key) := by
    rw [Registry.update, List.map_map]
    exact List.map_congr_left fun u hu => (hsame u hu).1
  have hidentities :
      (r.update t).sessions.map (·.identity) = r.sessions.map (·.identity) := by
    rw [Registry.update, List.map_map]
    exact List.map_congr_left fun u hu => (hsame u hu).2
  refine ⟨hkeys ▸ h.keys, hidentities ▸ h.identities, fun u hu => ?_⟩
  have hu' : u.identity ∈ r.sessions.map (·.identity) := by
    rw [← hidentities]
    exact List.mem_map_of_mem hu
  obtain ⟨v, hv, he⟩ := List.mem_map.mp hu'
  exact he ▸ h.made v hv

/-- Replacing a session leaves the ones of other keys alone. -/
theorem find?_update_of_ne (h : r.Sound) {s t : Session State} (hs : s ∈ r.sessions)
    (hkey : t.key = s.key) (hidentity : t.identity = s.identity) {key : String} (hne : s.key ≠ key) :
    (r.update t).find? key = r.find? key := by
  have hsame (u : Session State) (hu : u ∈ r.sessions) :
      u.identity = t.identity → u = s := fun he => h.eq_of_identity hs hu (he.trans hidentity)
  have hkeys : ∀ u ∈ r.sessions,
      ((if u.identity == t.identity then t else u).key == key) = (u.key == key) := by
    intro u hu
    split
    · next he => rw [hkey, hsame u hu (beq_iff_eq.mp he)]
    · rfl
  unfold Registry.find? Registry.update
  rw [List.find?_map]
  simp only [Function.comp_def]
  rw [List.find?_congr hkeys]
  cases hfind : r.sessions.find? (·.key == key) with
  | none => rfl
  | some u =>
      have hu : u.key = key := by simpa using List.find?_some hfind
      refine congrArg some (if_neg fun he => hne ?_)
      rw [← hu, hsame u (List.mem_of_find?_eq_some hfind) (beq_iff_eq.mp he)]

/-- A new session is put behind the others. -/
theorem append (h : r.Sound) {s : Session State} (hkey : r.find? s.key = none)
    (hidentity : s.identity = r.made) :
    ({ r with sessions := r.sessions ++ [s], made := r.made + 1 } : Registry State).Sound := by
  rw [Registry.find?, List.find?_eq_none] at hkey
  refine ⟨?_, ?_, fun t ht => ?_⟩
  · simp only [List.map_append, List.map_cons, List.map_nil, List.nodup_append]
    refine ⟨h.keys, List.nodup_singleton _, fun a ha b hb => ?_⟩
    obtain ⟨t, ht, rfl⟩ := List.mem_map.mp ha
    rw [List.mem_singleton.mp hb]
    exact fun he => hkey t ht (beq_iff_eq.mpr he)
  · simp only [List.map_append, List.map_cons, List.map_nil, List.nodup_append]
    refine ⟨h.identities, List.nodup_singleton _, fun a ha b hb => ?_⟩
    obtain ⟨t, ht, rfl⟩ := List.mem_map.mp ha
    rw [List.mem_singleton.mp hb, hidentity]
    exact Nat.ne_of_lt (h.made t ht)
  · rcases List.mem_append.mp ht with ht | ht
    · exact Nat.lt_succ_of_lt (h.made t ht)
    · rw [List.mem_singleton.mp ht, hidentity]
      exact Nat.lt_succ_self _

end Sound

theorem mem_update {r : Registry State} {s t : Session State} (hs : s ∈ r.sessions)
    (he : s.identity = t.identity) : t ∈ (r.update t).sessions :=
  List.mem_map.mpr ⟨s, hs, if_pos (beq_iff_eq.mpr he)⟩

/-- The session used longest ago is one of the sessions. -/
theorem mem_of_oldest? {sessions : List (Session State)} {s : Session State}
    (h : oldest? sessions = some s) : s ∈ sessions := by
  induction sessions generalizing s with
  | nil => cases h
  | cons t rest ih =>
      rw [oldest?] at h
      split at h
      · next u hu =>
          split at h
          · cases h
            exact List.mem_cons_of_mem _ (ih hu)
          · cases h
            exact List.mem_cons_self
      · cases h
        exact List.mem_cons_self

theorem evict_succ (most rounds : Nat) (r : Registry State) :
    evict most (rounds + 1) r = r ∨
      ∃ s ∈ r.sessions, r.isIdle s = true ∧
        evict most (rounds + 1) r = evict most rounds (r.erase s.identity) := by
  rw [evict]
  split
  · exact .inl rfl
  · split
    · next s hs =>
        obtain ⟨hmem, hidle⟩ := List.mem_filter.mp (mem_of_oldest? hs)
        exact .inr ⟨s, hmem, hidle, rfl⟩
    · exact .inl rfl

/-- Eviction only drops sessions. -/
theorem evict_spec (most rounds : Nat) (r : Registry State) :
    (evict most rounds r).sessions.Sublist r.sessions ∧ (evict most rounds r).held = r.held ∧
      (evict most rounds r).made = r.made := by
  induction rounds generalizing r with
  | zero => exact ⟨List.Sublist.refl _, rfl, rfl⟩
  | succ rounds ih =>
      rcases evict_succ most rounds r with h | ⟨s, _, _, h⟩
      · rw [h]
        exact ⟨List.Sublist.refl _, rfl, rfl⟩
      · rw [h]
        obtain ⟨hsub, hheld, hmade⟩ := ih (r.erase s.identity)
        exact ⟨hsub.trans List.filter_sublist, hheld, hmade⟩

/-- Eviction spares the sessions that someone refers to. -/
theorem mem_evict {most rounds : Nat} {r : Registry State} {s : Session State}
    (hs : s ∈ r.sessions) (hheld : r.isIdle s = false) : s ∈ (evict most rounds r).sessions := by
  induction rounds generalizing r with
  | zero => exact hs
  | succ rounds ih =>
      rcases evict_succ most rounds r with h | ⟨t, _, hidle, h⟩
      · rw [h]
        exact hs
      · rw [h]
        refine ih (List.mem_filter.mpr ⟨hs, ?_⟩) hheld
        by_contra he
        have hsame : s.identity = t.identity := by simpa using he
        have hcontra : r.isIdle s = r.isIdle t := by simp only [isIdle, hsame]
        rw [hheld, hidle] at hcontra
        cases hcontra

theorem enforceCapacity_spec (config : RegistryConfig) (r : Registry State) :
    (r.enforceCapacity config).sessions.Sublist r.sessions ∧
      (r.enforceCapacity config).held = r.held ∧ (r.enforceCapacity config).made = r.made := by
  unfold enforceCapacity
  split
  · exact ⟨List.Sublist.refl _, rfl, rfl⟩
  · exact evict_spec _ _ r

theorem mem_enforceCapacity {config : RegistryConfig} {r : Registry State} {s : Session State}
    (hs : s ∈ r.sessions) (hheld : r.isIdle s = false) :
    s ∈ (r.enforceCapacity config).sessions := by
  unfold enforceCapacity
  split
  · exact hs
  · exact mem_evict hs hheld

theorem sweep_spec (config : RegistryConfig) (now : Instant) (r : Registry State) :
    (r.sweep config now).2.sessions.Sublist r.sessions ∧ (r.sweep config now).2.made = r.made := by
  unfold sweep
  split
  · exact ⟨List.Sublist.refl _, rfl⟩
  · exact ⟨List.filter_sublist, rfl⟩

theorem held_sweep (config : RegistryConfig) (now : Instant) (r : Registry State) :
    (r.sweep config now).2.held = r.held := by
  unfold sweep
  split <;> rfl

/-- A sweep spares the sessions that someone refers to and those that have been used lately. -/
theorem mem_sweep {config : RegistryConfig} {now : Instant} {r : Registry State} {s : Session State}
    (hs : s ∈ r.sessions) : s ∈ (r.sweep config now).2.sessions ↔
      r.isIdle s = false ∨ ∀ ttl, config.idleTtl = some ttl → now - s.lastUsed < ttl * millisecond := by
  unfold sweep
  cases config.idleTtl with
  | none => simp [hs]
  | some ttl => simp [List.mem_filter, hs]

/-- The session that a key gets: the one it has, marked as used, or a new one. -/
def sessionFor (r : Registry State) (state : State) (outputLimit : Nat) (key : String)
    (now : Instant) : Session State :=
  match r.find? key with
  | some s => s.touch now
  | none => .new key r.made state outputLimit now

/-- A registry with a new session, to which whoever asked for it refers. -/
def extend (r : Registry State) (state : State) (outputLimit : Nat) (key : String) (now : Instant) :
    Registry State where
  sessions := r.sessions ++ [.new key r.made state outputLimit now]
  held := ⟨key, r.made⟩ :: r.held
  made := r.made + 1

theorem Sound.extend {r : Registry State} (h : r.Sound) {key : String} (hkey : r.find? key = none)
    (state : State) (outputLimit : Nat) (now : Instant) :
    (r.extend state outputLimit key now).Sound :=
  (h.append (s := .new key r.made state outputLimit now) hkey rfl).of_sublist (.refl _) rfl

/-- A key that has a session keeps it, marked as used. -/
theorem acquire_of_find? {r : Registry State} {key : String} {s : Session State}
    (hfind : r.find? key = some s) (config : RegistryConfig)
    (newSession : Except EngineError State) (outputLimit : Nat) (now : Instant) :
    r.acquire config newSession outputLimit key now =
      .ok (⟨key, s.identity⟩, (r.update (s.touch now)).hold ⟨key, s.identity⟩) := by
  simp only [acquire, hfind]

/-- A key that has no session gets a new one, if one can be made; others may have to give way to it. -/
theorem acquire_of_none {r : Registry State} {key : String} (hfind : r.find? key = none)
    (config : RegistryConfig) (newSession : Except EngineError State) (outputLimit : Nat)
    (now : Instant) :
    r.acquire config newSession outputLimit key now =
      newSession.map fun state =>
        (⟨key, r.made⟩, (r.extend state outputLimit key now).enforceCapacity config) := by
  simp only [acquire, hfind]
  cases newSession <;> rfl

/-- What acquiring a key comes to. -/
theorem acquire_cases {r r' : Registry State} {config : RegistryConfig}
    {newSession : Except EngineError State} {outputLimit : Nat} {key : String} {now : Instant}
    {reference : Reference}
    (hacquire : r.acquire config newSession outputLimit key now = .ok (reference, r')) :
    (∃ s, r.find? key = some s ∧ reference = ⟨key, s.identity⟩ ∧
      r' = (r.update (s.touch now)).hold ⟨key, s.identity⟩) ∨
    (r.find? key = none ∧ ∃ state, newSession = .ok state ∧ reference = ⟨key, r.made⟩ ∧
      r' = (r.extend state outputLimit key now).enforceCapacity config) := by
  cases hfind : r.find? key with
  | some s =>
      rw [acquire_of_find? hfind] at hacquire
      cases hacquire
      exact .inl ⟨s, rfl, rfl, rfl⟩
  | none =>
      rw [acquire_of_none hfind] at hacquire
      cases newSession with
      | error e => cases hacquire
      | ok state =>
          cases hacquire
          exact .inr ⟨rfl, state, rfl, rfl, rfl⟩

/-- Whoever acquires a key gets a reference to its session, which is registered. -/
theorem acquire_spec {r : Registry State} (h : r.Sound) (config : RegistryConfig) (state : State)
    (outputLimit : Nat) (key : String) (now : Instant) :
    ∃ (s : Session State) (r' : Registry State), s = r.sessionFor state outputLimit key now ∧
      s.key = key ∧ r.acquire config (.ok state) outputLimit key now = .ok (⟨key, s.identity⟩, r') ∧
      r'.Sound ∧ s ∈ r'.sessions := by
  unfold sessionFor
  cases hfind : r.find? key with
  | some s =>
      have hs : s ∈ r.sessions := List.mem_of_find?_eq_some hfind
      have hkey : s.key = key := by simpa using List.find?_some hfind
      have hsound : (r.update (s.touch now)).Sound := h.update hs rfl rfl
      exact ⟨s.touch now, _, rfl, hkey, acquire_of_find? hfind _ _ _ _,
        hsound.of_sublist (.refl _) rfl, mem_update hs rfl⟩
  | none =>
      obtain ⟨hsub, _, hmade⟩ :=
        enforceCapacity_spec config (r.extend state outputLimit key now)
      refine ⟨.new key r.made state outputLimit now, _, rfl, rfl, acquire_of_none hfind _ _ _ _,
        (h.extend hfind state outputLimit now).of_sublist hsub hmade, ?_⟩
      refine mem_enforceCapacity (List.mem_append_right _ List.mem_cons_self) ?_
      simp [isIdle, extend, Session.new]

theorem sound_acquire {r r' : Registry State} (h : r.Sound) {config : RegistryConfig}
    {newSession : Except EngineError State} {outputLimit : Nat} {key : String} {now : Instant}
    {reference : Reference}
    (hacquire : r.acquire config newSession outputLimit key now = .ok (reference, r')) :
    r'.Sound := by
  rcases acquire_cases hacquire with ⟨s, hfind, -, rfl⟩ | ⟨hfind, state, -, -, rfl⟩
  · have hsound : (r.update (s.touch now)).Sound :=
      h.update (List.mem_of_find?_eq_some hfind) rfl rfl
    exact hsound.of_sublist (.refl _) rfl
  · obtain ⟨hsub, _, hmade⟩ := enforceCapacity_spec config (r.extend state outputLimit key now)
    exact (h.extend hfind state outputLimit now).of_sublist hsub hmade

/-- Where sessions may stay, whoever acquires a key leaves the sessions of the others alone. -/
theorem find?_of_acquire {r r' : Registry State} {config : RegistryConfig}
    (hmost : config.maxSessions = none) {newSession : Except EngineError State} {outputLimit : Nat}
    {key other : String} (hne : key ≠ other) {now : Instant} {reference : Reference}
    (h : r.Sound)
    (hacquire : r.acquire config newSession outputLimit key now = .ok (reference, r')) :
    r'.find? other = r.find? other := by
  rcases acquire_cases hacquire with ⟨s, hfind, -, rfl⟩ | ⟨hfind, state, -, -, rfl⟩
  · have hs : s ∈ r.sessions := List.mem_of_find?_eq_some hfind
    have hkey : s.key = key := by simpa using List.find?_some hfind
    exact h.find?_update_of_ne (t := s.touch now) hs rfl rfl (hkey ▸ hne)
  · have hnew : [Session.new key r.made state outputLimit now].find? (·.key == other) = none :=
      List.find?_eq_none.mpr (by simpa [Session.new] using hne)
    simp only [enforceCapacity, hmost]
    rw [find?, extend, List.find?_append, hnew, Option.or_none, ← find?]

/-- What holds of all sessions and of one that takes the place of another. -/
theorem forall_mem_update {P : Session State → Prop} {r : Registry State} {t : Session State}
    (h : ∀ s ∈ r.sessions, P s) (ht : P t) : ∀ s ∈ (r.update t).sessions, P s := by
  intro s hs
  obtain ⟨u, hu, rfl⟩ := List.mem_map.mp hs
  split
  · exact ht
  · exact h u hu

/-- What holds of all sessions, marked as used or not, and of new ones holds of all after one has been
acquired. -/
theorem forall_mem_acquire {P : Session State → Prop} {r r' : Registry State}
    (h : ∀ s ∈ r.sessions, P s) {config : RegistryConfig} {newSession : Except EngineError State}
    {outputLimit : Nat} {key : String} {now : Instant} {reference : Reference}
    (htouch : ∀ s, P s → P (s.touch now))
    (hnew : ∀ state, newSession = .ok state → P (.new key r.made state outputLimit now))
    (hacquire : r.acquire config newSession outputLimit key now = .ok (reference, r')) :
    ∀ s ∈ r'.sessions, P s := by
  rcases acquire_cases hacquire with ⟨s, hfind, -, rfl⟩ | ⟨-, state, hstate, -, rfl⟩
  · exact forall_mem_update h (htouch s (h s (List.mem_of_find?_eq_some hfind)))
  · intro s hs
    rcases List.mem_append.mp ((enforceCapacity_spec _ _).1.subset hs) with hs | hs
    · exact h s hs
    · exact List.mem_singleton.mp hs ▸ hnew state hstate

end Registry

end ReplDaemon
