import Mathlib.Data.List.Count
import ReplDaemon.Proofs.Concourse.Basic
import ReplDaemon.Proofs.Traffic.History

/-!
# What holds in every service that is in use

Whoever refers to a session finds it in the registry, and every request in a session holds a reference of
its own. What happens in one session is a run of that session, whatever happens in the others.
-/

namespace ReplDaemon

variable {Shared State : Type} {engine : Engine Shared State} {config : DaemonConfig}

namespace Registry

variable {r r' : Registry State} {x : Session State} {reference : Reference}

theorem mem_references : reference ∈ r.references ↔ ∃ x ∈ r.sessions, x.reference = reference :=
  List.mem_map

theorem mem_references_of_mem (hx : x ∈ r.sessions) : x.reference ∈ r.references :=
  List.mem_map_of_mem hx

theorem references_used (r : Registry State) (identity : Nat) (now : Instant) :
    (r.used identity now).references = r.references := by
  rw [references, used, List.map_map]
  refine List.map_congr_left fun x _ => ?_
  simp only [Function.comp_apply]
  split <;> rfl

theorem Sound.eq_of_reference (h : r.Sound) {y : Session State} (hx : x ∈ r.sessions)
    (hy : y ∈ r.sessions) (he : y.reference = x.reference) : y = x :=
  h.eq_of_identity hx hy (congrArg Reference.identity he)

/-- Marking a registered session as used puts it in its own place. -/
theorem Sound.update_touch (h : r.Sound) (hx : x ∈ r.sessions) (now : Instant) :
    r.update (x.touch now) = r.used x.identity now := by
  have hsame : ∀ y ∈ r.sessions, (if y.identity == x.identity then x.touch now else y) =
      if y.identity == x.identity then y.touch now else y := by
    intro y hy
    split
    · next he => rw [h.eq_of_identity hx hy (beq_iff_eq.mp he)]
    · rfl
  exact congrArg (fun sessions => { r with sessions }) (List.map_congr_left hsame)

/-- Whoever acquires a session that there is changes nothing about which ones there are. -/
theorem Sound.references_reused (h : r.Sound) (hx : x ∈ r.sessions) (now : Instant)
    (reference : Reference) :
    ((r.update (x.touch now)).hold reference).references = r.references := by
  rw [h.update_touch hx]
  exact references_used r x.identity now

/-- A registry with the same references is as sound. -/
theorem Sound.of_references (h : r.Sound) (href : r'.references = r.references)
    (hmade : r'.made = r.made) : r'.Sound := by
  have hkeys (q : Registry State) : q.sessions.map (·.key) = q.references.map (·.key) := by
    rw [references, List.map_map]
    rfl
  have hidentities (q : Registry State) :
      q.sessions.map (·.identity) = q.references.map (·.identity) := by
    rw [references, List.map_map]
    rfl
  refine ⟨?_, ?_, fun y hy => ?_⟩
  · rw [hkeys, href, ← hkeys]
    exact h.keys
  · rw [hidentities, href, ← hidentities]
    exact h.identities
  · obtain ⟨z, hz, he⟩ := mem_references.mp (href ▸ mem_references_of_mem hy)
    have hidentity : z.identity = y.identity := congrArg Reference.identity he
    rw [← hidentity, hmade]
    exact h.made z hz

theorem Sound.identity_lt (h : r.Sound) (hmem : reference ∈ r.references) :
    reference.identity < r.made := by
  obtain ⟨x, hx, rfl⟩ := mem_references.mp hmem
  exact h.made x hx

theorem made_le_of_acquire {config : RegistryConfig} {newSession : Except EngineError State}
    {outputLimit : Nat} {key : String} {now : Instant}
    (hacquire : r.acquire config newSession outputLimit key now = .ok (reference, r')) :
    r.made ≤ r'.made := by
  rcases acquire_cases hacquire with ⟨x, -, -, rfl⟩ | ⟨-, state, -, -, rfl⟩
  · exact Nat.le_refl _
  · rw [(enforceCapacity_spec config _).2.2]
    exact Nat.le_succ _

/-- Where sessions have been dropped from a sound registry, a session is registered by its reference if it
is itself still there. -/
theorem Sound.mem_references_iff (h : r.Sound) (hsub : r'.sessions.Sublist r.sessions)
    (hx : x ∈ r.sessions) : x.reference ∈ r'.references ↔ x ∈ r'.sessions := by
  refine ⟨fun hmem => ?_, mem_references_of_mem⟩
  obtain ⟨y, hy, he⟩ := mem_references.mp hmem
  exact h.eq_of_reference hx (hsub.subset hy) he ▸ hy

/-- A sound registry with every session that somebody refers to. -/
structure Secure (r : Registry State) : Prop where
  sound : r.Sound
  held : ∀ reference ∈ r.held, reference ∈ r.references

namespace Secure

theorem empty : (Registry.empty : Registry State).Secure :=
  ⟨sound_empty, fun _ h => absurd h List.not_mem_nil⟩

/-- A session is idle if nobody refers to it. -/
theorem isIdle_iff (h : r.Secure) (hx : x ∈ r.sessions) :
    r.isIdle x = true ↔ x.reference ∉ r.held := by
  simp only [isIdle, List.all_eq_true, bne_iff_ne]
  refine ⟨fun hidle hmem => hidle _ hmem rfl, fun hfree reference hmem he => hfree ?_⟩
  obtain ⟨y, hy, rfl⟩ := mem_references.mp (h.held reference hmem)
  rwa [← h.sound.eq_of_identity hx hy he]

/-- What drops idle sessions only leaves a registry secure. -/
theorem of_spared (h : r.Secure) (hsub : r'.sessions.Sublist r.sessions) (hheld : r'.held = r.held)
    (hmade : r'.made = r.made)
    (hspared : ∀ x ∈ r.sessions, r.isIdle x = false → x ∈ r'.sessions) : r'.Secure := by
  refine ⟨h.sound.of_sublist hsub hmade, fun reference hmem => ?_⟩
  rw [hheld] at hmem
  obtain ⟨x, hx, rfl⟩ := mem_references.mp (h.held reference hmem)
  refine mem_references_of_mem (hspared x hx ?_)
  rw [← Bool.not_eq_true, h.isIdle_iff hx]
  exact not_not_intro hmem

/-- A registry with the same references, of which nobody holds others, is secure too. -/
theorem of_references (h : r.Secure) (href : r'.references = r.references) (hmade : r'.made = r.made)
    (hheld : ∀ reference ∈ r'.held, reference ∈ r.references) : r'.Secure :=
  ⟨h.sound.of_references href hmade, fun reference hmem => href ▸ hheld reference hmem⟩

theorem used (h : r.Secure) (identity : Nat) (now : Instant) : (r.used identity now).Secure :=
  h.of_references (references_used r identity now) rfl h.held

theorem unhold (h : r.Secure) (reference : Reference) : (r.unhold reference).Secure :=
  h.of_references rfl rfl fun _ hmem => h.held _ (List.mem_of_mem_erase hmem)

theorem extend (h : r.Secure) {key : String} (hkey : r.find? key = none) (state : State)
    (outputLimit : Nat) (now : Instant) : (r.extend state outputLimit key now).Secure := by
  refine ⟨h.sound.extend hkey state outputLimit now, fun reference hmem => ?_⟩
  rw [references, Registry.extend, List.map_append]
  rcases List.mem_cons.mp hmem with rfl | hmem
  · exact List.mem_append_right _ List.mem_cons_self
  · exact List.mem_append_left _ (h.held reference hmem)

theorem enforceCapacity (h : r.Secure) (config : RegistryConfig) :
    (r.enforceCapacity config).Secure := by
  obtain ⟨hsub, hheld, hmade⟩ := enforceCapacity_spec config r
  exact h.of_spared hsub hheld hmade fun _ => mem_enforceCapacity

theorem sweep (h : r.Secure) (config : RegistryConfig) (now : Instant) :
    (r.sweep config now).2.Secure := by
  obtain ⟨hsub, hmade⟩ := sweep_spec config now r
  refine h.of_spared hsub (held_sweep config now r) hmade fun x hx hheld => ?_
  exact (mem_sweep hx).mpr (.inl hheld)

/-- Acquiring a key keeps a registry secure, and whoever acquires it holds one more reference, to a session
that is registered. -/
theorem acquire (h : r.Secure) {config : RegistryConfig} {newSession : Except EngineError State}
    {outputLimit : Nat} {key : String} {now : Instant}
    (hacquire : r.acquire config newSession outputLimit key now = .ok (reference, r')) :
    r'.Secure ∧ r'.held = reference :: r.held := by
  rcases acquire_cases hacquire with ⟨x, hfind, rfl, rfl⟩ | ⟨hfind, state, -, rfl, rfl⟩
  · have hx : x ∈ r.sessions := List.mem_of_find?_eq_some hfind
    have hkey : x.key = key := by simpa using List.find?_some hfind
    rw [h.sound.update_touch hx]
    refine ⟨(h.used x.identity now).of_references rfl rfl fun reference hmem => ?_, rfl⟩
    rcases List.mem_cons.mp hmem with rfl | hmem
    · rw [references_used, ← hkey]
      exact mem_references_of_mem hx
    · exact (h.used x.identity now).held reference hmem
  · exact ⟨(h.extend hfind state outputLimit now).enforceCapacity config,
      (enforceCapacity_spec config _).2.1⟩

/-- Whoever acquires the key of a session that is registered gets this session. -/
theorem acquire_eq (h : r.Secure) (hx : x ∈ r.sessions) (config : RegistryConfig)
    (newSession : Except EngineError State) (outputLimit : Nat) (now : Instant) :
    r.acquire config newSession outputLimit x.key now =
      .ok (x.reference, (r.used x.identity now).hold x.reference) := by
  rw [acquire_of_find? (h.sound.find? hx), h.sound.update_touch hx]
  rfl

end Secure

end Registry

namespace Traffic

variable {config : SupervisorConfig} {session : Session State} {moves : List Move} {move : Move}
  {s t : Traffic State} {number : Nat}

/-- Requests come by arriving and go by being answered. -/
theorem Step.requests_add (h : Step engine config s move t) :
    t.requests + (answers [move]).length = s.requests + (ReplDaemon.arrivals [move]).length := by
  cases h with
  | arrive => simp [requests, answers, ReplDaemon.arrivals, Nat.add_right_comm]
  | serve hfree hqueue => simp [requests, answers, ReplDaemon.arrivals, hfree, hqueue]
  | work => rfl
  | cancel hturn => simp [requests, answers, ReplDaemon.arrivals, hturn, setWorker]
  | answer hturn | stop hturn | abandon hturn =>
      simp [requests, answers, ReplDaemon.arrivals, hturn]

/-- A worker that is not done belongs to the request that has the turn, or its request has been answered
without waiting for it any longer. -/
theorem Run.left_behind (h : Run engine config (.ofSession session) moves s) {w : Worker}
    (hw : s.workers number = some w) (hbusy : ∀ ending, w.phase ≠ .done ending) :
    (∃ turn, s.turn = some turn ∧ turn.number = number) ∨
      .answered number .probablyTimedOut ∈ moves := by
  induction h generalizing w with
  | nil => cases hw
  | snoc _ hstep ih =>
      cases hstep with
      | arrive => exact (ih hw hbusy).imp id (List.mem_append_left _)
      | serve hfree =>
          rcases setWorker_cases hw with ⟨rfl, -⟩ | ⟨-, hw⟩
          · exact .inl ⟨_, rfl, rfl⟩
          · rcases ih hw hbusy with ⟨turn, hturn, -⟩ | hleft
            · cases hfree.symm.trans hturn
            · exact .inr (List.mem_append_left _ hleft)
      | work _ hworker hwork =>
          rcases setWorker_cases hw with ⟨rfl, -⟩ | ⟨-, hw⟩
          · exact (ih hworker hwork.phase_ne_done).imp id (List.mem_append_left _)
          · exact (ih hw hbusy).imp id (List.mem_append_left _)
      | cancel hturn =>
          rcases setWorker_cases hw with ⟨rfl, -⟩ | ⟨-, hw⟩
          · exact .inl ⟨_, rfl, rfl⟩
          · rcases ih hw hbusy with ⟨turn', hturn', rfl⟩ | hleft
            · cases hturn.symm.trans hturn'
              exact .inl ⟨_, rfl, rfl⟩
            · exact .inr (List.mem_append_left _ hleft)
      | @answer turn v ending _ _ hturn _ hworker hdone
      | @stop turn v ending hturn _ hworker hdone =>
          rcases ih hw hbusy with ⟨turn', hturn', rfl⟩ | hleft
          · cases hturn.symm.trans hturn'
            cases hworker.symm.trans hw
            exact absurd hdone (hbusy ending)
          · exact .inr (List.mem_append_left _ hleft)
      | abandon hturn =>
          rcases ih hw hbusy with ⟨turn', hturn', rfl⟩ | hleft
          · cases hturn.symm.trans hturn'
            exact .inr (List.mem_append_right _ List.mem_cons_self)
          · exact .inr (List.mem_append_left _ hleft)

end Traffic

namespace Concourse

variable {events : List Event} {event : Event} {s t : Concourse State} {reference : Reference}

/-- The registry is secure, every request in a session holds a reference of its own, and nothing has
happened in sessions that have not been made yet. -/
structure Sound (s : Concourse State) : Prop where
  secure : s.registry.Secure
  requests : ∀ (reference : Reference) (t : Traffic State), s.traffic reference = some t →
    t.requests ≤ s.registry.held.count reference
  unmade : ∀ reference : Reference, s.registry.made ≤ reference.identity →
    s.traffic reference = none

theorem sound_start : (start : Concourse State).Sound :=
  ⟨.empty, nofun, fun _ _ => rfl⟩

theorem traffic_enter_of_ne (s : Concourse State) {acquired : Reference} (h : reference ≠ acquired)
    (registry : Registry State) : (s.enter acquired registry).traffic reference = s.traffic reference :=
  Function.update_of_ne h ..

/-- Whoever acquires a session that there was finds the traffic in it, and in a new one there is none. -/
theorem traffic_enter_self (s : Concourse State) (reference : Reference) (registry : Registry State) :
    (s.enter reference registry).traffic reference =
      (s.traffic reference).or ((registry.find? reference.key).map .ofSession) :=
  Function.update_self ..

theorem traffic_proceed_self (s : Concourse State) (reference : Reference) (move : Move)
    (t : Traffic State) : (s.proceed reference move t).traffic reference = some t :=
  Function.update_self ..

theorem traffic_proceed_of_ne (s : Concourse State) {moved : Reference} (h : reference ≠ moved)
    (move : Move) (t : Traffic State) :
    (s.proceed moved move t).traffic reference = s.traffic reference :=
  Function.update_of_ne h ..

theorem secure_note (h : s.registry.Secure) (reference : Reference) (move : Move) :
    (s.note reference move).Secure := by
  cases move with
  | served number => exact h.used _ _
  | answered number outcome => exact (h.used _ _).unhold _
  | arrived | worked | cancelled => exact h

theorem references_note (s : Concourse State) (reference : Reference) (move : Move) :
    (s.note reference move).references = s.registry.references := by
  cases move with
  | served number => exact Registry.references_used _ _ _
  | answered number outcome => exact Registry.references_used _ _ _
  | arrived | worked | cancelled => rfl

/-- What happens in sessions does not change which ones are registered. -/
theorem registered_proceed {other : Reference} {move : Move} {t : Traffic State} :
    (s.proceed other move t).Registered reference ↔ s.Registered reference := by
  rw [Registered, proceed, references_note, Registered]

/-- What is held after a step is what the event says. -/
theorem Step.held_eq (h : Step engine config s event t) (hs : s.Sound) :
    t.registry.held = event.hold s.registry.held := by
  cases h with
  | acquire _ _ hacquire => exact (hs.secure.acquire hacquire).2
  | @move _ _ _ move => cases move <;> rfl
  | sweep => exact Registry.held_sweep _ _ _
  | refuse | release | wait => rfl

theorem Step.secure (h : Step engine config s event t) (hs : s.Sound) : t.registry.Secure := by
  cases h with
  | acquire _ _ hacquire => exact (hs.secure.acquire hacquire).1
  | release => exact hs.secure.unhold _
  | move => exact secure_note hs.secure _ _
  | sweep => exact hs.secure.sweep _ _
  | refuse | wait => exact hs.secure

theorem made_note (s : Concourse State) (reference : Reference) (move : Move) :
    (s.note reference move).made = s.registry.made := by
  cases move <;> rfl

theorem Step.unmade (h : Step engine config s event t) (hs : s.Sound)
    (hreference : t.registry.made ≤ reference.identity) : t.traffic reference = none := by
  cases h with
  | @acquire _ _ acquired registry hacquire =>
      have hmade : acquired.identity < registry.made := by
        obtain ⟨hsecure, hheld⟩ := hs.secure.acquire hacquire
        exact hsecure.sound.identity_lt (hsecure.held acquired (hheld ▸ List.mem_cons_self))
      have hne : reference ≠ acquired := by
        rintro rfl
        exact absurd hreference (Nat.not_le_of_lt hmade)
      rw [traffic_enter_of_ne s hne]
      exact hs.unmade reference (Nat.le_trans (Registry.made_le_of_acquire hacquire) hreference)
  | @move moved v w move htraffic =>
      rw [proceed, made_note] at hreference
      have hnone := hs.unmade reference hreference
      have hne : reference ≠ moved := by
        rintro rfl
        cases hnone.symm.trans htraffic
      rwa [traffic_proceed_of_ne s hne]
  | sweep => exact hs.unmade reference ((Registry.sweep_spec _ _ _).2 ▸ hreference)
  | refuse | release | wait => exact hs.unmade reference hreference

/-- Whoever acquires a session has another reference, and no request yet. -/
theorem Sound.requests_enter_le (h : s.Sound) {acquired : Reference} {registry : Registry State}
    {u : Traffic State} (hu : (s.enter acquired registry).traffic reference = some u) :
    u.requests ≤ (acquired :: s.registry.held).count reference := by
  refine Nat.le_trans ?_ (List.count_le_count_cons ..)
  by_cases he : reference = acquired
  · subst he
    rw [traffic_enter_self] at hu
    cases hbefore : s.traffic reference with
    | some v =>
        rw [hbefore, Option.some_or] at hu
        cases hu
        exact h.requests _ _ hbefore
    | none =>
        rw [hbefore, Option.none_or] at hu
        obtain ⟨session, -, rfl⟩ := Option.map_eq_some_iff.mp hu
        exact Nat.zero_le _
  · rw [traffic_enter_of_ne s he] at hu
    exact h.requests _ _ hu

/-- Requests keep their references where only one to spare is let go of. -/
theorem Sound.requests_erase_le (h : s.Sound) {released : Reference} (hspare : s.Spare released)
    {u : Traffic State} (hu : s.traffic reference = some u) :
    u.requests ≤ (s.registry.held.erase released).count reference := by
  by_cases he : reference = released
  · subst he
    rw [Spare, hu, Option.elim_some] at hspare
    rw [List.count_erase_self]
    exact Nat.le_sub_one_of_lt hspare
  · rw [List.count_erase_of_ne he]
    exact h.requests _ _ hu

/-- A request comes with a reference and goes with it. -/
theorem Sound.requests_proceed_le (h : s.Sound) {moved : Reference} {v w : Traffic State} {move : Move}
    (hv : s.traffic moved = some v) (hmove : v.Step engine config.supervisor move w)
    (hentitled : ∀ number, move = .arrived number → s.Spare moved) {u : Traffic State}
    (hu : (s.proceed moved move w).traffic reference = some u) :
    u.requests ≤ ((Event.moved moved move).hold s.registry.held).count reference := by
  by_cases he : reference = moved
  · subst he
    rw [traffic_proceed_self] at hu
    cases hu
    have hle := h.requests _ _ hv
    have hrequests := hmove.requests_add
    cases move with
    | arrived number =>
        have hspare := hentitled number rfl
        rw [Spare, hv, Option.elim_some] at hspare
        exact (Nat.le_of_eq hrequests).trans hspare
    | answered number outcome =>
        rw [Event.hold, List.count_erase_self]
        exact Nat.le_sub_of_add_le ((Nat.le_of_eq hrequests).trans hle)
    | served | worked | cancelled => exact (Nat.le_of_eq hrequests).trans hle
  · rw [traffic_proceed_of_ne s he] at hu
    have hle := h.requests _ _ hu
    cases move with
    | answered number outcome => rwa [Event.hold, List.count_erase_of_ne he]
    | arrived | served | worked | cancelled => exact hle

theorem Step.requests_le (h : Step engine config s event t) (hs : s.Sound) {u : Traffic State}
    (hu : t.traffic reference = some u) : u.requests ≤ t.registry.held.count reference := by
  rw [h.held_eq hs]
  cases h with
  | acquire => exact hs.requests_enter_le hu
  | release _ hspare => exact hs.requests_erase_le hspare hu
  | move _ hv hmove hentitled => exact hs.requests_proceed_le hv hmove hentitled hu
  | refuse | sweep | wait => exact hs.requests _ _ hu

theorem Step.sound (h : Step engine config s event t) (hs : s.Sound) : t.Sound :=
  ⟨h.secure hs, fun _ _ => h.requests_le hs, fun _ => h.unmade hs⟩

theorem Run.sound (h : Run engine config events s) : s.Sound := by
  induction h with
  | nil => exact sound_start
  | snoc _ hstep ih => exact hstep.sound ih

/-- The references held are those that have been acquired and not been let go of. -/
theorem Run.held_eq (h : Run engine config events s) : s.registry.held = references events := by
  induction h with
  | nil => rfl
  | snoc hrun hstep ih =>
      rw [hstep.held_eq hrun.sound, ih, references, references, List.foldl_append]
      rfl

/-- A session is in use if someone refers to it: a request that has the turn does. -/
theorem Sound.inUse_iff (h : s.Sound) : s.InUse reference ↔ reference ∈ s.registry.held := by
  refine ⟨?_, .inl⟩
  rintro (hheld | ⟨t, ht, hturn⟩)
  · exact hheld
  · obtain ⟨turn, hturn⟩ := Option.isSome_iff_exists.mp hturn
    have hle := h.requests _ _ ht
    have hpos : 0 < t.requests := by simp [Traffic.requests, hturn]
    exact List.count_pos_iff.mp (Nat.lt_of_lt_of_le hpos hle)

theorem moves_snoc (reference : Reference) (events : List Event) (event : Event) :
    moves reference (events ++ [event]) = moves reference events ++ moves reference [event] :=
  List.filterMap_append

theorem moves_moved (reference : Reference) (move : Move) :
    moves reference [.moved reference move] = [move] := by
  simp [moves]

theorem moves_moved_of_ne {other : Reference} (h : other ≠ reference) (move : Move) :
    moves reference [.moved other move] = [] := by
  simp [moves, h]

/-- A new session is one in which nothing has happened yet. -/
theorem Sound.traffic_enter_new (h : s.Sound) {key : String} (hkey : s.registry.find? key = none)
    {state : State} {registry : Registry State}
    (hacquire : s.acquire config (.ok state) key = .ok (reference, registry)) :
    (s.enter reference registry).traffic reference = some (.ofSession
      (.new key s.registry.made state config.supervisor.maxOutputBytes s.clock)) := by
  obtain ⟨x, registry', hx, -, hacquire', hsound, hmem⟩ := Registry.acquire_spec h.secure.sound
    config.registry state config.supervisor.maxOutputBytes key s.clock
  rw [Registry.sessionFor, hkey] at hx
  cases hacquire.symm.trans hacquire'
  have hfind : registry.find? x.key = some x := hsound.find? hmem
  have hnone : s.traffic ⟨key, x.identity⟩ = none := h.unmade _ (hx ▸ Nat.le_refl _)
  rw [hx] at hfind
  rw [traffic_enter_self, hnone, Option.none_or, hx]
  exact congrArg (Option.map _) hfind

theorem mem_of_mem_moves {move : Move} (h : move ∈ moves reference events) :
    .moved reference move ∈ events := by
  obtain ⟨event, hevent, hmove⟩ := List.mem_filterMap.mp h
  cases event with
  | moved other move' =>
      dsimp only at hmove
      split at hmove
      · next he =>
          cases hmove
          exact he ▸ hevent
      · cases hmove
  | acquired | refused | released | swept | waited => cases hmove

/-- What has happened in each session is a run of that session. -/
theorem Run.traffic_run (h : Run engine config events s) (reference : Reference) :
    (s.traffic reference).elim (moves reference events = []) fun t =>
      ∃ session, Traffic.Run engine config.supervisor (.ofSession session)
        (moves reference events) t := by
  induction h with
  | nil => rfl
  | @snoc events event s t hrun hstep ih =>
      rw [moves_snoc]
      cases hstep with
      | @acquire _ _ acquired registry =>
          rw [show moves reference [.acquired acquired] = [] from rfl, List.append_nil]
          by_cases he : reference = acquired
          · subst he
            rw [traffic_enter_self]
            cases hbefore : s.traffic reference with
            | some u => simpa [hbefore] using ih
            | none =>
                rw [hbefore] at ih
                have hnone : moves reference events = [] := ih
                rw [Option.none_or, hnone]
                cases registry.find? reference.key with
                | none => rfl
                | some session => exact ⟨session, .nil⟩
          · rwa [traffic_enter_of_ne s he]
      | @move moved u v move htraffic hmove =>
          by_cases he : reference = moved
          · subst he
            rw [htraffic] at ih
            obtain ⟨session, hsession⟩ := ih
            rw [traffic_proceed_self, moves_moved]
            exact ⟨session, hsession.snoc hmove⟩
          · rwa [traffic_proceed_of_ne s he, moves_moved_of_ne (Ne.symm he), List.append_nil]
      | refuse | release | sweep | wait =>
          rw [show moves reference [_] = [] from rfl, List.append_nil]
          exact ih

end Concourse

end ReplDaemon
