import ReplDaemon.Proofs.Registry
import ReplDaemon.Proofs.Supervisor.Run
import ReplDaemon.Service

/-!
# Reachable services

A service that has come about by requests, batches and the care of its registry is still the service of
its engine and settings, and its registry is sound. So a request that is not blank is served by the
session of its key, which is made if there is none.
-/

namespace ReplDaemon.Service

variable {Shared State : Type} {engine : Engine Shared State} {config : DaemonConfig}

/-- What becomes of a service. -/
inductive Reachable (engine : Engine Shared State) (config : DaemonConfig) (shared : Shared) :
    Service Shared State → Prop
  | start : Reachable engine config shared (.start engine config shared)
  | handle {s : Service Shared State} (request : Request) :
      Reachable engine config shared s → Reachable engine config shared (s.handle request).2
  | handleAll {s : Service Shared State} (requests : List Request) :
      Reachable engine config shared s → Reachable engine config shared (s.handleAll requests).2
  | hold {s t : Service Shared State} {same : Bool} (key : String) :
      Reachable engine config shared s → s.hold key = .ok (same, t) →
        Reachable engine config shared t
  | release {s : Service Shared State} (key : String) :
      Reachable engine config shared s → Reachable engine config shared (s.release key).2
  | remove {s : Service Shared State} (key : String) :
      Reachable engine config shared s → Reachable engine config shared (s.remove key).2
  | sweep {s : Service Shared State} :
      Reachable engine config shared s → Reachable engine config shared s.sweep.2
  | runSweeper {s : Service Shared State} (time : Nat) :
      Reachable engine config shared s → Reachable engine config shared (s.runSweeper time).2

/-- A property of services that is kept where a session is acquired, where a request is evaluated in one,
and where sessions are dropped. -/
structure Invariant (P : Service Shared State → Prop) : Prop where
  acquire {s t : Service Shared State} {key : String} {reference : Reference} :
    P s → s.acquire key = .ok (reference, t) → P t
  evaluate {s : Service Shared State} (reference : Reference) (request : Request) (now : Instant) :
    P s → P (s.evaluate reference request now).2
  drop {s : Service Shared State} {r : Registry State} (clock : Instant) :
    P s → r.sessions.Sublist s.registry.sessions → r.made = s.registry.made →
      P { s with registry := r, clock }

namespace Invariant

variable {P : Service Shared State → Prop} {s : Service Shared State}

theorem handle (hP : Invariant P) (h : P s) (request : Request) : P (s.handle request).2 := by
  unfold Service.handle
  split
  · exact h
  · split
    · exact h
    · next reference t hacquire =>
        have hevaluate := hP.evaluate reference request t.clock (hP.acquire h hacquire)
        split
        · next response now u heq =>
            rw [heq] at hevaluate
            exact hP.drop _ hevaluate (.refl _) rfl
        · next u heq =>
            rwa [heq] at hevaluate

theorem accept (hP : Invariant P) (h : P s) (requests : List Request) :
    P (s.accept requests).2 := by
  induction requests generalizing s with
  | nil => exact h
  | cons request rest ih =>
      rw [Service.accept]
      split
      · exact ih h
      · split
        · exact ih h
        · next reference t hacquire => exact ih (hP.acquire h hacquire)

theorem serve (hP : Invariant P) (h : P s) (issued : Instant) (served : List (Nat × Instant))
    (tickets : List Ticket) : P (s.serve issued served tickets).2.2 := by
  induction tickets generalizing s served with
  | nil => exact h
  | cons ticket rest ih =>
      cases ticket with
      | answered response => exact ih h served
      | waiting reference request =>
          have hevaluate := hP.evaluate reference request
            ((served.lookup reference.identity).getD issued) h
          rw [Service.serve]
          simp only
          split
          · next t heq =>
              rwa [heq] at hevaluate
          · next response now t heq =>
              rw [heq] at hevaluate
              exact ih hevaluate _

theorem handleAll (hP : Invariant P) (h : P s) (requests : List Request) :
    P (s.handleAll requests).2 :=
  hP.drop _ (hP.serve (hP.accept h requests) _ [] _) (.refl _) rfl

theorem hold (hP : Invariant P) (h : P s) {key : String} {same : Bool} {t : Service Shared State}
    (hhold : s.hold key = .ok (same, t)) : P t := by
  rw [Service.hold] at hhold
  cases hacquire : s.acquire key with
  | error e =>
      rw [hacquire] at hhold
      cases hhold
  | ok result =>
      rw [hacquire] at hhold
      cases hhold
      exact hP.acquire h hacquire

theorem runSweeper (hP : Invariant P) (h : P s) (time : Nat) : P (s.runSweeper time).2 := by
  unfold Service.runSweeper
  simp only
  split
  · exact hP.drop _ h (.refl _) rfl
  · split
    · exact hP.drop _ h (.refl _) rfl
    · exact hP.drop _ h (Registry.sweep_spec _ _ _).1 (Registry.sweep_spec _ _ _).2

/-- An invariant that a service has at the start is one of all that becomes of it. -/
theorem reachable (hP : Invariant P) {shared : Shared} (hstart : P (.start engine config shared))
    (h : Reachable engine config shared s) : P s := by
  induction h with
  | start => exact hstart
  | handle request _ ih => exact hP.handle ih request
  | handleAll requests _ ih => exact hP.handleAll ih requests
  | hold key _ hhold ih => exact hP.hold ih hhold
  | release key _ ih => exact hP.drop _ ih (.refl _) rfl
  | remove key _ ih => exact hP.drop _ ih List.filter_sublist rfl
  | sweep _ ih => exact hP.drop _ ih (Registry.sweep_spec _ _ _).1 (Registry.sweep_spec _ _ _).2
  | runSweeper time _ ih => exact hP.runSweeper ih time

end Invariant

/-- All that a service does to acquire a session is done by its registry. -/
theorem exists_of_acquire {s t : Service Shared State} {key : String} {reference : Reference}
    (h : s.acquire key = .ok (reference, t)) :
    ∃ registry : Registry State, s.registry.acquire s.config.registry s.engine.newSession
        s.config.supervisor.maxOutputBytes key s.clock = .ok (reference, registry) ∧
      t = { s with registry, clock := s.clock + 1 } := by
  rw [acquire] at h
  cases hregistry : s.registry.acquire s.config.registry s.engine.newSession
      s.config.supervisor.maxOutputBytes key s.clock with
  | error e =>
      rw [hregistry] at h
      cases h
  | ok result =>
      rw [hregistry] at h
      cases h
      exact ⟨_, rfl, rfl⟩

/-- A service of this engine and these settings with a sound registry. -/
structure Valid (engine : Engine Shared State) (config : DaemonConfig) (s : Service Shared State) :
    Prop where
  engine : s.engine = engine
  config : s.config = config
  sound : s.registry.Sound

namespace Valid

variable {s : Service Shared State}

theorem acquire (h : s.Valid engine config) {key : String} {reference : Reference}
    {t : Service Shared State} (hacquire : s.acquire key = .ok (reference, t)) :
    t.Valid engine config := by
  obtain ⟨registry, hregistry, rfl⟩ := exists_of_acquire hacquire
  exact ⟨h.engine, h.config, Registry.sound_acquire h.sound hregistry⟩

theorem evaluate (h : s.Valid engine config) (reference : Reference) (request : Request)
    (now : Instant) : (s.evaluate reference request now).2.Valid engine config := by
  unfold Service.evaluate
  split
  · exact h
  · next session hfind =>
      have hs := List.mem_of_find?_eq_some hfind
      obtain ⟨hkey, hidentity, _⟩ := Supervisor.run_session s.engine s.config.supervisor s.shared
        session request.code request.timeout now
      exact ⟨h.engine, h.config, (h.sound.update hs hkey hidentity).of_sublist (.refl _) rfl⟩

theorem drop (h : s.Valid engine config) {r : Registry State} {clock : Instant}
    (hsub : r.sessions.Sublist s.registry.sessions) (hmade : r.made = s.registry.made) :
    Valid engine config { s with registry := r, clock } :=
  ⟨h.engine, h.config, h.sound.of_sublist hsub hmade⟩

theorem invariant (engine : Engine Shared State) (config : DaemonConfig) :
    Invariant (Valid engine config) where
  acquire h := h.acquire
  evaluate reference request now h := h.evaluate reference request now
  drop _ h := h.drop

theorem handle (h : s.Valid engine config) (request : Request) :
    (s.handle request).2.Valid engine config :=
  (invariant engine config).handle h request

theorem runSweeper (h : s.Valid engine config) (time : Nat) :
    (s.runSweeper time).2.Valid engine config :=
  (invariant engine config).runSweeper h time

end Valid

/-- Reachable services are valid. -/
theorem Reachable.valid {shared : Shared} {s : Service Shared State}
    (h : Reachable engine config shared s) : s.Valid engine config :=
  (Valid.invariant engine config).reachable ⟨rfl, rfl, Registry.sound_empty⟩ h

/-- Blank code is answered at once and touches nothing. -/
theorem handle_of_blank (s : Service Shared State) {request : Request}
    (hblank : Text.isBlankText request.code = true) :
    s.handle request = (some blankResponse, s) := by
  rw [handle, if_pos hblank]

/-- Any other code goes to the session of its key, which is acquired, serves the request and is let go
again. -/
theorem handle_eq {s : Service Shared State} (hsound : s.registry.Sound) {state : State}
    (hnew : s.engine.newSession = .ok state) {request : Request}
    (hblank : Text.isBlankText request.code = false) {r : Supervisor.Result Shared State}
    (hr : r = Supervisor.run s.engine s.config.supervisor s.shared
      (s.registry.sessionFor state s.config.supervisor.maxOutputBytes (s.keyOf request.key) s.clock)
      request.code request.timeout (s.clock + 1)) :
    ∃ (session : Session State) (registry : Registry State),
      session.key = s.keyOf request.key ∧ r.session.key = session.key ∧
      r.session.identity = session.identity ∧
      s.registry.acquire s.config.registry s.engine.newSession s.config.supervisor.maxOutputBytes
        (s.keyOf request.key) s.clock = .ok (⟨s.keyOf request.key, session.identity⟩, registry) ∧
      registry.Sound ∧ session ∈ registry.sessions ∧
      s.handle request = (r.outcome.map responseOf,
        { s with
          registry := (registry.update r.session).unhold ⟨s.keyOf request.key, session.identity⟩
          shared := r.shared
          clock := r.outcome.elim (s.clock + 1) fun _ => r.now + 1 }) := by
  obtain ⟨session, registry, hsession, hkey, hacquire, hsound', hmem⟩ := Registry.acquire_spec hsound
    s.config.registry state s.config.supervisor.maxOutputBytes (s.keyOf request.key) s.clock
  rw [← hsession] at hr
  have hfind := hsound'.find?_identity hmem
  obtain ⟨hkey', hidentity, _⟩ := Supervisor.run_session s.engine s.config.supervisor s.shared
    session request.code request.timeout (s.clock + 1)
  rw [← hr] at hkey' hidentity
  refine ⟨session, registry, hkey, hkey', hidentity, hnew ▸ hacquire, hsound', hmem, ?_⟩
  unfold handle acquire
  simp only [hblank, hnew, hacquire, Bool.false_eq_true, if_false]
  simp only [bind, Except.bind, pure, Except.pure, evaluate, hfind, ← hr]
  cases r.outcome with
  | none => rfl
  | some o => rfl

/-- Any other code is served by the session of its key. -/
theorem handle_spec {s : Service Shared State} (hsound : s.registry.Sound) {state : State}
    (hnew : s.engine.newSession = .ok state) {request : Request}
    (hblank : Text.isBlankText request.code = false) {r : Supervisor.Result Shared State}
    (hr : r = Supervisor.run s.engine s.config.supervisor s.shared
      (s.registry.sessionFor state s.config.supervisor.maxOutputBytes (s.keyOf request.key) s.clock)
      request.code request.timeout (s.clock + 1)) :
    (s.handle request).1 = r.outcome.map responseOf ∧
      (s.handle request).2.registry.find? (s.keyOf request.key) = some r.session ∧
      (s.handle request).2.shared = r.shared := by
  obtain ⟨session, registry, hkey, hkey', hidentity, _, hsound', hmem, hhandle⟩ :=
    handle_eq hsound hnew hblank hr
  have hupdated : (registry.update r.session).find? (s.keyOf request.key) = some r.session := by
    rw [← hkey, ← hkey']
    exact (hsound'.update hmem hkey' hidentity).find? (Registry.mem_update hmem hidentity.symm)
  rw [hhandle]
  exact ⟨rfl, hupdated, rfl⟩

/-- A request leaves the sessions of other keys alone, unless sessions may be pushed out. -/
theorem find?_handle_of_ne {s : Service Shared State} (hsound : s.registry.Sound)
    (hmost : s.config.registry.maxSessions = none) {state : State}
    (hnew : s.engine.newSession = .ok state) {request : Request} {other : String}
    (hne : s.keyOf request.key ≠ other) :
    (s.handle request).2.registry.find? other = s.registry.find? other := by
  cases hblank : Text.isBlankText request.code with
  | true => rw [handle_of_blank s hblank]
  | false =>
      obtain ⟨session, registry, hkey, hkey', hidentity, hacquire, hsound', hmem, hhandle⟩ :=
        handle_eq hsound hnew hblank rfl
      rw [hhandle, ← Registry.find?_of_acquire hmost hne hsound hacquire]
      exact hsound'.find?_update_of_ne hmem hkey' hidentity (hkey ▸ hne)

/-- A request without a timeout. -/
def ask (code : String) : Request where
  timeout := 0
  key := "k"
  code

end ReplDaemon.Service
