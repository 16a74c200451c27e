import Mathlib.Data.List.Perm.Subperm
import Mathlib.Order.Basic
import ReplDaemon.Proofs.Registry

/-!
# The sessions that give way

When there are too many sessions, the idle ones that were used longest ago give way, one for each that is
too many, as long as there are any. The main statement says so for the eviction in rounds, each of which
looks for the oldest anew; where no two sessions were used at the same instant, it says of each session
whether it stays.
-/

namespace ReplDaemon

/-- How many of so many sessions are too many. -/
def RegistryConfig.surplus (config : RegistryConfig) (size : Nat) : Nat :=
  match config.maxSessions with
  | none => 0
  | some most => size - most

namespace Registry

variable {State : Type}

/-- The sessions that nobody refers to. -/
def idle (r : Registry State) : List (Session State) :=
  r.sessions.filter r.isIdle

/-- The idle sessions that were used before some instant. -/
def idleBefore (r : Registry State) (time : Instant) : List (Session State) :=
  r.idle.filter (·.lastUsed < time)

/-- How many sessions have to give way: as many as are too many, or as are idle if these are less. -/
def yielding (config : RegistryConfig) (r : Registry State) : Nat :=
  min r.idle.length (config.surplus r.size)

/-- A session gives way if it is idle and there are fewer idle ones before it than have to give way. -/
def GivesWay (config : RegistryConfig) (r : Registry State) (s : Session State) : Prop :=
  r.isIdle s = true ∧ (r.idleBefore s.lastUsed).length < r.yielding config

/-- So many sessions have been dropped, only idle ones, and none that was used later than an idle one
that is still there. -/
structure DropsOldest (count : Nat) (r r' : Registry State) : Prop where
  sublist : r'.sessions.Sublist r.sessions
  size : r'.size + count = r.size
  idle : ∀ s ∈ r.sessions, s ∉ r'.sessions → r.isIdle s = true
  oldest : ∀ s ∈ r.sessions, s ∉ r'.sessions →
    ∀ t ∈ r'.sessions, r.isIdle t = true → s.lastUsed ≤ t.lastUsed

theorem mem_idle {r : Registry State} {s : Session State} :
    s ∈ r.idle ↔ s ∈ r.sessions ∧ r.isIdle s = true :=
  List.mem_filter

theorem mem_idleBefore {r : Registry State} {s : Session State} {time : Instant} :
    s ∈ r.idleBefore time ↔ s ∈ r.idle ∧ s.lastUsed < time := by
  simp [idleBefore, List.mem_filter]

theorem oldest?_eq_none {sessions : List (Session State)} (h : oldest? sessions = none) :
    sessions = [] := by
  cases sessions with
  | nil => rfl
  | cons s rest =>
      rw [oldest?] at h
      split at h
      · split at h <;> cases h
      · cases h

/-- No session was used before the one used longest ago. -/
theorem lastUsed_le_of_oldest? {sessions : List (Session State)} {s : Session State}
    (h : oldest? sessions = some s) : ∀ t ∈ sessions, s.lastUsed ≤ t.lastUsed := by
  induction sessions generalizing s with
  | nil => cases h
  | cons u rest ih =>
      intro t ht
      rw [oldest?] at h
      split at h
      · next v hv =>
          have hrest := ih hv
          split at h
          · next hlt =>
              cases h
              rcases List.mem_cons.mp ht with rfl | ht
              · exact Nat.le_of_lt hlt
              · exact hrest t ht
          · next hge =>
              cases h
              rcases List.mem_cons.mp ht with rfl | ht
              · exact Nat.le_refl _
              · exact Nat.le_trans (Nat.le_of_not_lt hge) (hrest t ht)
      · next hnone =>
          cases h
          rw [oldest?_eq_none hnone, List.mem_singleton] at ht
          rw [ht]

/-- Taking out one of several sessions with distinct identities leaves one less. -/
theorem length_filter_identity_ne {sessions : List (Session State)}
    (h : (sessions.map (·.identity)).Nodup) {s : Session State} (hs : s ∈ sessions) :
    (sessions.filter (·.identity != s.identity)).length + 1 = sessions.length := by
  have hmem : s.identity ∈ sessions.map (·.identity) := List.mem_map_of_mem hs
  have herase : (sessions.filter (·.identity != s.identity)).map (·.identity) =
      (sessions.map (·.identity)).erase s.identity := by
    rw [h.erase_eq_filter, List.filter_map]
    rfl
  have hlength := congrArg List.length herase
  rw [List.length_map, List.length_erase_of_mem hmem, List.length_map] at hlength
  have hpos := List.length_pos_of_mem hs
  omega

theorem idle_erase (r : Registry State) (identity : Nat) :
    (r.erase identity).idle = r.idle.filter (·.identity != identity) := by
  simp only [idle, erase, List.filter_filter, Bool.and_comm]
  rfl

namespace DropsOldest

variable {r r' : Registry State} {count : Nat}

theorem refl (r : Registry State) : DropsOldest 0 r r :=
  ⟨.refl _, rfl, fun _ hs hs' => absurd hs hs', fun _ hs hs' => absurd hs hs'⟩

/-- After the idle session used longest ago others are dropped. -/
theorem of_erase (h : r.Sound) {s : Session State} (hs : oldest? r.idle = some s)
    (hrest : DropsOldest count (r.erase s.identity) r') : DropsOldest (count + 1) r r' := by
  obtain ⟨hmem, hidle⟩ := mem_idle.mp (mem_of_oldest? hs)
  have hsub : (r.erase s.identity).sessions.Sublist r.sessions := List.filter_sublist
  -- Whoever is not dropped afterwards, and is not this session, is still there.
  have hleft {u : Session State} (hu : u ∈ r.sessions) (hne : u ≠ s) :
      u ∈ (r.erase s.identity).sessions := by
    refine List.mem_filter.mpr ⟨hu, ?_⟩
    simpa using fun he => hne (h.eq_of_identity hmem hu he)
  refine ⟨hrest.sublist.trans hsub, ?_, fun u hu hgone => ?_, fun u hu hgone t ht hidle' => ?_⟩
  · have hsize : (r.erase s.identity).size + 1 = r.size :=
      length_filter_identity_ne h.identities hmem
    have hrestSize := hrest.size
    omega
  · by_cases hne : u = s
    · exact hne ▸ hidle
    · exact hrest.idle u (hleft hu hne) hgone
  · by_cases hne : u = s
    · have ht' : t ∈ r.idle := mem_idle.mpr ⟨hsub.subset (hrest.sublist.subset ht), hidle'⟩
      exact hne ▸ lastUsed_le_of_oldest? hs t ht'
    · exact hrest.oldest u (hleft hu hne) hgone t ht hidle'

/-- The sessions that have been dropped are as many as it says. -/
theorem exists_dropped (h : DropsOldest count r r') (hsound : r.Sound) :
    ∃ dropped : List (Session State), dropped.Nodup ∧ dropped.length = count ∧
      ∀ u, u ∈ dropped ↔ u ∈ r.sessions ∧ u ∉ r'.sessions := by
  classical
  have hnodup : r.sessions.Nodup := List.Nodup.of_map _ hsound.identities
  have hkept : (r.sessions.filter (· ∈ r'.sessions)).Perm r'.sessions := by
    rw [List.perm_ext_iff_of_nodup (hnodup.filter _) (hnodup.sublist h.sublist)]
    intro u
    simpa [List.mem_filter] using fun hu => h.sublist.subset hu
  have hsplit := List.length_eq_length_filter_add (l := r.sessions) (· ∈ r'.sessions)
  have hsize : r'.sessions.length + count = r.sessions.length := h.size
  refine ⟨r.sessions.filter fun u => !decide (u ∈ r'.sessions), hnodup.filter _, ?_, fun u => ?_⟩
  · rw [hkept.length_eq] at hsplit
    omega
  · simp [List.mem_filter]

/-- As many idle sessions as are dropped were used before one that stays. -/
theorem le_of_mem (h : DropsOldest count r r') (hsound : r.Sound)
    (hdistinct : (r.idle.map (·.lastUsed)).Nodup) {s : Session State} (hs : s ∈ r'.sessions)
    (hidle : r.isIdle s = true) : count ≤ (r.idleBefore s.lastUsed).length := by
  obtain ⟨dropped, hnodup, hcount, hmem⟩ := h.exists_dropped hsound
  have hsubset : dropped ⊆ r.idleBefore s.lastUsed := by
    intro u hu
    obtain ⟨hu, hgone⟩ := (hmem u).mp hu
    have hu' : u ∈ r.idle := mem_idle.mpr ⟨hu, h.idle u hu hgone⟩
    have hs' : s ∈ r.idle := mem_idle.mpr ⟨h.sublist.subset hs, hidle⟩
    have hne : u.lastUsed ≠ s.lastUsed := fun he =>
      hgone (List.inj_on_of_nodup_map hdistinct hu' hs' he ▸ hs)
    exact mem_idleBefore.mpr ⟨hu', Nat.lt_of_le_of_ne (h.oldest u hu hgone s hs hidle) hne⟩
  exact hcount ▸ (List.subperm_of_subset hnodup hsubset).length_le

/-- Fewer idle sessions than are dropped were used before one that is dropped: they are dropped too. -/
theorem lt_of_not_mem (h : DropsOldest count r r') (hsound : r.Sound) {s : Session State}
    (hs : s ∈ r.sessions) (hgone : s ∉ r'.sessions) :
    (r.idleBefore s.lastUsed).length < count := by
  obtain ⟨dropped, -, hcount, hmem⟩ := h.exists_dropped hsound
  have hsubset : s :: r.idleBefore s.lastUsed ⊆ dropped := by
    refine List.cons_subset.mpr ⟨(hmem s).mpr ⟨hs, hgone⟩, fun u hu => ?_⟩
    obtain ⟨hu, hlt⟩ := mem_idleBefore.mp hu
    obtain ⟨hu, hidle⟩ := mem_idle.mp hu
    exact (hmem u).mpr ⟨hu, fun hu' =>
      absurd (h.oldest s hs hgone u hu' hidle) (Nat.not_le_of_lt hlt)⟩
  have hnodup : (s :: r.idleBefore s.lastUsed).Nodup := by
    have hsessions : r.sessions.Nodup := List.Nodup.of_map _ hsound.identities
    refine List.nodup_cons.mpr ⟨fun hself => ?_, (hsessions.filter _).filter _⟩
    exact absurd (mem_idleBefore.mp hself).2 (Nat.lt_irrefl _)
  exact hcount ▸ (List.subperm_of_subset hnodup hsubset).length_le

/-- Where no two idle sessions were used at the same instant, those are dropped that are idle and have
fewer idle ones before them than are dropped. -/
theorem not_mem_iff (h : DropsOldest count r r') (hsound : r.Sound)
    (hdistinct : (r.idle.map (·.lastUsed)).Nodup) {s : Session State} (hs : s ∈ r.sessions) :
    s ∉ r'.sessions ↔ r.isIdle s = true ∧ (r.idleBefore s.lastUsed).length < count := by
  refine ⟨fun hgone => ⟨h.idle s hs hgone, h.lt_of_not_mem hsound hs hgone⟩, ?_⟩
  rintro ⟨hidle, hfew⟩ hstay
  exact absurd (h.le_of_mem hsound hdistinct hstay hidle) (Nat.not_le_of_lt hfew)

end DropsOldest

/-- In rounds enough, one session is dropped for each that is too many, as long as there are idle ones. -/
theorem evict_dropsOldest {r : Registry State} (h : r.Sound) (most : Nat) {rounds : Nat}
    (hrounds : r.size - most ≤ rounds) :
    DropsOldest (min r.idle.length (r.size - most)) r (evict most rounds r) := by
  induction rounds generalizing r with
  | zero =>
      have hzero : min r.idle.length (r.size - most) = 0 := by omega
      rw [hzero]
      exact .refl r
  | succ rounds ih =>
      rw [evict]
      split
      · next hfew =>
          have hzero : min r.idle.length (r.size - most) = 0 := by omega
          rw [hzero]
          exact .refl r
      · next hmany =>
          split
          · next s hs =>
              obtain ⟨hmem, hidle⟩ := mem_idle.mp (mem_of_oldest? hs)
              have hsize : (r.erase s.identity).size + 1 = r.size :=
                length_filter_identity_ne h.identities hmem
              have hidleSize : (r.erase s.identity).idle.length + 1 = r.idle.length := by
                rw [idle_erase]
                exact length_filter_identity_ne
                  (h.identities.sublist (List.filter_sublist.map _)) (mem_idle.mpr ⟨hmem, hidle⟩)
              have hsound : (r.erase s.identity).Sound := h.of_sublist List.filter_sublist rfl
              have hcount : min r.idle.length (r.size - most) =
                  min (r.erase s.identity).idle.length ((r.erase s.identity).size - most) + 1 := by
                omega
              rw [hcount]
              exact .of_erase h hs (ih hsound (by omega))
          · next hnone =>
              have hzero : min r.idle.length (r.size - most) = 0 := by
                rw [show r.idle = [] from oldest?_eq_none hnone]
                exact Nat.zero_min _
              rw [hzero]
              exact .refl r

/-- As many sessions give way as have to, the ones used longest ago. -/
theorem enforceCapacity_dropsOldest {r : Registry State} (h : r.Sound) (config : RegistryConfig) :
    DropsOldest (r.yielding config) r (r.enforceCapacity config) := by
  unfold enforceCapacity yielding RegistryConfig.surplus
  cases config.maxSessions with
  | none =>
      simp only [Nat.min_zero]
      exact .refl r
  | some most => exact evict_dropsOldest h most (Nat.sub_le _ _)

/-- A new session is not idle, and who was idle still is. -/
theorem idle_extend {r : Registry State} (h : r.Sound) (state : State) (outputLimit : Nat)
    (key : String) (now : Instant) : (r.extend state outputLimit key now).idle = r.idle := by
  have hold : ∀ s ∈ r.sessions, (r.extend state outputLimit key now).isIdle s = r.isIdle s := by
    intro s hs
    have hne : r.made ≠ s.identity := (Nat.ne_of_lt (h.made s hs)).symm
    simp [isIdle, extend, hne]
  have hnew : (r.extend state outputLimit key now).isIdle
      (.new key r.made state outputLimit now) = false := by
    simp [isIdle, extend, Session.new]
  have hsessions : (r.extend state outputLimit key now).sessions =
      r.sessions ++ [.new key r.made state outputLimit now] := rfl
  rw [idle, hsessions, List.filter_append, List.filter_cons, hnew, List.filter_congr hold]
  simp [idle]

/-- A session gives way to a new one if it is idle and there are not enough idle ones before it. -/
theorem givesWay_extend_iff {r : Registry State} (h : r.Sound) {s : Session State}
    (hs : s ∈ r.sessions) (config : RegistryConfig) (state : State) (outputLimit : Nat) (key : String)
    (now : Instant) : (r.extend state outputLimit key now).GivesWay config s ↔
      r.isIdle s = true ∧ (r.idleBefore s.lastUsed).length < config.surplus (r.size + 1) := by
  have hidle := idle_extend h state outputLimit key now
  have hs' : s ∈ (r.extend state outputLimit key now).sessions := List.mem_append_left _ hs
  have hsame : (r.extend state outputLimit key now).isIdle s = true ↔ r.isIdle s = true := by
    have hmem : s ∈ (r.extend state outputLimit key now).idle ↔ s ∈ r.idle := by rw [hidle]
    simpa only [mem_idle, hs, hs', true_and] using hmem
  have hsize : (r.extend state outputLimit key now).size = r.size + 1 := List.length_append
  rw [GivesWay, hsame, yielding, idleBefore, hidle, hsize, ← idleBefore]
  refine and_congr_right fun hs'' => ?_
  have hlt : (r.idleBefore s.lastUsed).length < r.idle.length := by
    rw [idleBefore, List.length_filter_lt_length_iff_exists]
    exact ⟨s, mem_idle.mpr ⟨hs, hs''⟩, by simp⟩
  exact Nat.lt_min.trans (and_iff_right hlt)

/-- Where nobody refers to a session, acquiring one leaves as many as allowed, or the one alone. -/
theorem size_le_of_acquire {r r' : Registry State} (h : r.Sound) (hheld : r.held = [])
    {config : RegistryConfig} {most : Nat} (hmost : config.maxSessions = some most)
    {newSession : Except EngineError State} {outputLimit : Nat} {key : String} {now : Instant}
    {reference : Reference}
    (hacquire : r.acquire config newSession outputLimit key now = .ok (reference, r'))
    (hsize : r.size ≤ max 1 most) : r'.size ≤ max 1 most := by
  rcases acquire_cases hacquire with ⟨s, -, -, rfl⟩ | ⟨hfind, state, -, -, rfl⟩
  · simpa [size, update, hold] using hsize
  · have hidle : (r.extend state outputLimit key now).idle = r.sessions := by
      rw [idle_extend h, idle, List.filter_eq_self]
      exact fun s _ => by rw [isIdle, hheld, List.all_nil]
    have hextend : (r.extend state outputLimit key now).size = r.size + 1 := List.length_append
    have hdropped := (enforceCapacity_dropsOldest (h.extend hfind state outputLimit now) config).size
    rw [yielding, RegistryConfig.surplus, hmost, hidle, hextend, ← size] at hdropped
    dsimp only at hdropped
    omega

end Registry

end ReplDaemon
