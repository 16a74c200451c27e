import Mathlib.Data.List.Nodup
import ReplDaemon.Proofs.Concourse.Invariants

/-!
# The capacity of a service

How many sessions a service keeps is decided where a session is made: others give way to it, those that
were used longest ago, as far as nobody uses them. Who uses a session can rely on it.
-/

namespace ReplDaemon

variable {Shared State : Type} {engine : Engine Shared State} {config : DaemonConfig}

namespace Registry

variable {r : Registry State}

theorem size_eq (r : Registry State) : r.size = r.references.length :=
  List.length_map _ |>.symm

end Registry

theorem OneAtATime.of_snoc {events : List Event} {event : Event}
    (h : OneAtATime (events ++ [event])) : OneAtATime events := by
  intro front back reference hevents
  refine h front (back ++ [event]) reference ?_
  rw [hevents, List.append_assoc, List.cons_append]

namespace Concourse

open Registry (DropsOldest)

variable {events : List Event} {event : Event} {s t : Concourse State} {reference : Reference}
  {x : Session State}

/-- The sessions with a new one, before others give way to it. -/
def crowded (config : DaemonConfig) (s : Concourse State) (state : State) (key : String) :
    Registry State :=
  s.registry.extend state config.supervisor.maxOutputBytes key s.clock

theorem Sound.crowded (h : s.Sound) {key : String} (hkey : s.registry.find? key = none)
    (config : DaemonConfig) (state : State) : (s.crowded config state key).Sound :=
  h.secure.sound.extend hkey state config.supervisor.maxOutputBytes s.clock

/-- A key that has no session gets a new one, and the sessions used longest ago give way to it. -/
theorem Sound.acquire_new (h : s.Sound) {key : String} (hkey : s.registry.find? key = none)
    (config : DaemonConfig) (state : State) :
    ∃ registry, s.acquire config (.ok state) key = .ok (⟨key, s.registry.made⟩, registry) ∧
      DropsOldest ((s.crowded config state key).yielding config.registry)
        (s.crowded config state key) registry :=
  ⟨_, Registry.acquire_of_none hkey _ _ _ _,
    Registry.enforceCapacity_dropsOldest (h.crowded hkey config state) config.registry⟩

/-- Who refers to a session finds it registered after every step. -/
theorem Step.registered_of_held (h : Step engine config s event t) (hs : s.Sound)
    (hheld : reference ∈ s.registry.held) : t.Registered reference := by
  have hregistered := hs.secure.held reference hheld
  cases h with
  | acquire _ _ hacquire =>
      obtain ⟨hsecure, hheld'⟩ := hs.secure.acquire hacquire
      exact hsecure.held reference (hheld' ▸ List.mem_cons_of_mem _ hheld)
  | move => exact registered_proceed.mpr hregistered
  | sweep =>
      refine (hs.secure.sweep config.registry s.clock).held reference ?_
      rwa [Registry.held_sweep]
  | refuse | release | wait => exact hregistered

/-- Acquiring a key fails if it has no session and the engine can make none. -/
theorem acquire_eq_error_iff {newSession : Except EngineError State} {key : String}
    {error : EngineError} : s.acquire config newSession key = .error error ↔
      s.registry.find? key = none ∧ newSession = .error error := by
  unfold acquire
  cases hfind : s.registry.find? key with
  | some x => simp [Registry.acquire_of_find? hfind]
  | none =>
      rw [Registry.acquire_of_none hfind]
      cases newSession <;> simp [Except.map]

/-- As long as requests are handled one at a time, there are not more sessions than allowed, or than the
one that is needed. -/
theorem Run.size_le (h : Run engine config events s) (hone : OneAtATime events) {most : Nat}
    (hmost : config.registry.maxSessions = some most) : s.registry.size ≤ max 1 most := by
  induction h with
  | nil => exact Nat.zero_le _
  | @snoc events event s t hrun hstep ih =>
      have hbefore := ih hone.of_snoc
      cases hstep with
      | acquire newSession key hacquire =>
          exact Registry.size_le_of_acquire hrun.sound.secure.sound
            (hrun.held_eq.trans (hone events [] _ rfl)) hmost hacquire hbefore
      | move =>
          rw [Registry.size_eq] at hbefore ⊢
          rwa [proceed, references_note]
      | sweep => exact Nat.le_trans (Registry.sweep_spec _ _ _).1.length_le hbefore
      | refuse | release | wait => exact hbefore

/-- The capacity of a service is kept at the cost of the sessions used longest ago, and never at the cost
of one that is in use. -/
structure KeepsCapacity (engine : Engine Shared State) (config : DaemonConfig) (events : List Event)
    (s : Concourse State) : Prop where
  /-- A session in use is registered, stays so, and is what everyone gets who asks for its key. -/
  inUse : ∀ reference, s.InUse reference → s.Registered reference ∧
    (∀ event t, Step engine config s event t → t.Registered reference) ∧
    ∀ newSession, ∃ registry,
      s.acquire config newSession reference.key = .ok (reference, registry)
  /-- Those that may give way are the sessions that are not in use. -/
  idle : ∀ x ∈ s.registry.sessions, s.registry.isIdle x = true ↔ ¬ s.InUse x.reference
  /-- A key without a session gets a new one. The idle sessions used longest ago give way to it, and where
  no two of them were used at the same instant, this says exactly which. -/
  created : ∀ (key : String) (state : State), s.registry.find? key = none →
    ∃ registry, s.acquire config (.ok state) key = .ok (⟨key, s.registry.made⟩, registry) ∧
      DropsOldest ((s.crowded config state key).yielding config.registry)
        (s.crowded config state key) registry ∧
      (((s.crowded config state key).idle.map (·.lastUsed)).Nodup →
        ∀ x ∈ (s.crowded config state key).sessions,
          x ∉ registry.sessions ↔ (s.crowded config state key).GivesWay config.registry x)
  size : OneAtATime events → ∀ most, config.registry.maxSessions = some most →
    s.registry.size ≤ max 1 most
  /-- Where no session can be made, nothing changes. -/
  refused : (∀ newSession key error, s.acquire config newSession key = .error error ↔
      s.registry.find? key = none ∧ newSession = .error error) ∧
    ∀ key error t, Step engine config s (.refused key error) t → t = s

/-- Whatever happens in a service, its capacity is kept. -/
theorem keepsCapacity (h : Run engine config events s) : KeepsCapacity engine config events s where
  inUse reference hused := by
    have hheld := h.sound.inUse_iff.mp hused
    have hregistered := h.sound.secure.held reference hheld
    refine ⟨hregistered, fun _ _ hstep => hstep.registered_of_held h.sound hheld, fun newSession => ?_⟩
    obtain ⟨x, hx, rfl⟩ := Registry.mem_references.mp hregistered
    exact ⟨_, h.sound.secure.acquire_eq hx _ newSession _ _⟩
  idle x hx := by rw [h.sound.secure.isIdle_iff hx, h.sound.inUse_iff]
  created key state hkey := by
    obtain ⟨registry, hacquire, hdrops⟩ := h.sound.acquire_new hkey config state
    exact ⟨registry, hacquire, hdrops, fun hdistinct x hx =>
      hdrops.not_mem_iff (h.sound.crowded hkey config state) hdistinct hx⟩
  size hone _ hmost := h.size_le hone hmost
  refused := ⟨fun _ _ _ => acquire_eq_error_iff, fun _ _ _ hstep => by cases hstep; rfl⟩

/-- A request in one session, and a second session to which the first one gives way. -/
def twoKeys : List Event :=
  [.acquired ⟨"a", 0⟩, .moved ⟨"a", 0⟩ (.arrived 0), .moved ⟨"a", 0⟩ (.served 0),
    .moved ⟨"a", 0⟩ (.worked 0 .acquired), .moved ⟨"a", 0⟩ (.worked 0 .admitted),
    .moved ⟨"a", 0⟩ (.worked 0 (.called .source "1")),
    .moved ⟨"a", 0⟩ (.worked 0 (.finished (.returned (.ok (.completed none))))),
    .moved ⟨"a", 0⟩ (.answered 0 (.output "")), .waited 1, .acquired ⟨"b", 1⟩]

theorem keepsCapacity_twoKeys :
    ∃ s, Run (Script.engine []) { registry := { maxSessions := some 1 } } twoKeys s ∧
      KeepsCapacity (Script.engine []) { registry := { maxSessions := some 1 } } twoKeys s ∧
      s.registry.keys = ["b"] := by
  have hstart : Run (Script.engine []) { registry := { maxSessions := some 1 } } [] _ := .nil
  have hfirst := hstart.snoc (.acquire (.ok .empty) "a" rfl)
  have harrived := hfirst.snoc (.move ⟨"a", 0⟩ rfl (.arrive "1" 0) fun _ _ => by decide)
  have hserved := harrived.snoc (.move ⟨"a", 0⟩ rfl (.serve rfl rfl rfl) nofun)
  have hcalled := ((hserved.snoc (.move ⟨"a", 0⟩ rfl (.work 0 rfl (.acquire rfl rfl)) nofun)).snoc
    (.move ⟨"a", 0⟩ rfl (.work 0 rfl (.pass rfl rfl)) nofun)).snoc
    (.move ⟨"a", 0⟩ rfl (.work 0 rfl (.callSource rfl (.inr rfl))) nofun)
  have hfinished := hcalled.snoc (.move ⟨"a", 0⟩ rfl (.work 0 rfl
    (.finish .source rfl (.returned (.ok (.completed none))) nofun nofun .empty)) nofun)
  have hanswered := hfinished.snoc (.move ⟨"a", 0⟩ rfl (.answer rfl rfl rfl rfl rfl) nofun)
  have hrun := (hanswered.snoc (.wait 1)).snoc (.acquire (.ok .empty) "b" rfl)
  exact ⟨_, hrun, keepsCapacity hrun, rfl⟩

end Concourse

end ReplDaemon
