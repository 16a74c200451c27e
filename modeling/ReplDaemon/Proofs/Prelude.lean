import ReplDaemon.Engine.Rehearsed
import ReplDaemon.Proofs.Supervisor.Texts
import ReplDaemon.Proofs.Turns

/-!
# The silence of the prelude

The first request of a session is evaluated behind the prelude. A response to it shows nothing of what
the prelude has written and nothing of how it has ended, as long as the prelude neither reports that it
was cancelled nor breaks down: what counts is what the evaluation of the source finds afterwards. A
prelude that reports that it was cancelled ends the request.
-/

namespace ReplDaemon

variable {Shared Shared' State : Type}

/-- The context with nothing written. -/
def Context.cleared (c : Context) : Context :=
  { c with output := c.output.clear }

/-- Two evaluations leave the same behind, except for what they have written and how they have ended. -/
structure Report.SameTrace (r r' : Report Shared State) : Prop where
  shared : r'.shared = r.shared
  session : r'.session = r.session
  context : r'.context.cleared = r.context.cleared

namespace Service

/-- The same service with another engine, and with something else that its sessions share. -/
def withEngine (s : Service Shared State) (engine : Engine Shared' State) (shared : Shared') :
    Service Shared' State where
  engine
  config := s.config
  registry := s.registry
  shared
  clock := s.clock

namespace Turn

/-- The same turn, but the sessions share something else. -/
def withShared (t : Turn Shared State) (shared : Shared') : Turn Shared' State where
  shared
  session := t.session
  request := t.request
  now := t.now

/-- The source that is evaluated. -/
def source (t : Turn Shared State) : String :=
  Session.joinChunks (t.session.pending ++ [t.request.code])

/-- The instant at which the request counts as timed out. -/
def deadline (config : SupervisorConfig) (t : Turn Shared State) : Option Instant :=
  Supervisor.deadlineAt config t.request.timeout t.now

/-- The context in which a worker begins once the slot is free. -/
def context (config : SupervisorConfig) (t : Turn Shared State) (freeAt : Instant) : Context where
  output := .empty t.session.outputLimit
  clock := max t.now freeAt
  cancelAt := t.deadline config

end Turn

/-- A request that has a turn finds what the sessions share, and is answered by its outcome. -/
theorem handle_of_turn {s : Service Shared State} {request : Request} {t : Turn Shared State}
    (h : s.turn? request = some t) :
    t.shared = s.shared ∧
      (s.handle request).1 = (t.result s.engine s.config.supervisor).outcome.map responseOf ∧
      (s.handle request).2.shared = (t.result s.engine s.config.supervisor).shared := by
  unfold turn? at h
  split at h
  · cases h
  · next hblank =>
      split at h
      · cases h
      · next reference u hacquire =>
          obtain ⟨session, hfind, rfl⟩ := Option.map_eq_some_iff.mp h
          obtain ⟨registry, -, rfl⟩ := exists_of_acquire hacquire
          refine ⟨rfl, ?_⟩
          rw [handle, if_neg hblank, hacquire]
          simp only [evaluate, hfind, Turn.result]
          cases (Supervisor.run s.engine s.config.supervisor s.shared session request.code
            request.timeout (s.clock + 1)).outcome <;> exact ⟨rfl, rfl⟩

/-- Another engine that makes the same sessions gives a request the same turn. -/
theorem turn?_withEngine {s : Service Shared State} {engine : Engine Shared' State}
    (hnew : engine.newSession = s.engine.newSession) (shared : Shared') (request : Request) :
    (s.withEngine engine shared).turn? request =
      (s.turn? request).map (·.withShared shared) := by
  have hacquire : (s.withEngine engine shared).acquire (s.keyOf request.key) =
      (s.acquire (s.keyOf request.key)).map (Prod.map id (·.withEngine engine shared)) := by
    unfold acquire
    rw [show (s.withEngine engine shared).engine.newSession = _ from hnew]
    cases hregistry : s.registry.acquire s.config.registry s.engine.newSession
        s.config.supervisor.maxOutputBytes (s.keyOf request.key) s.clock with
    | error e =>
        simp only [withEngine, hregistry]
        rfl
    | ok result =>
        simp only [withEngine, hregistry]
        rfl
  unfold turn?
  have hkey : (s.withEngine engine shared).keyOf request.key = s.keyOf request.key := rfl
  rw [hkey, hacquire]
  split
  · rfl
  · cases s.acquire (s.keyOf request.key) with
    | error e => rfl
    | ok result =>
        show Option.map _ _ = Option.map _ (Option.map _ _)
        rw [Option.map_map]
        rfl

/-- With that engine, the request is answered by the outcome of the turn. -/
theorem handle_withEngine {s : Service Shared State} {request : Request} {t : Turn Shared State}
    (hturn : s.turn? request = some t) {engine : Engine Shared' State}
    (hnew : engine.newSession = s.engine.newSession) (shared : Shared') :
    ((s.withEngine engine shared).handle request).1 =
        ((t.withShared shared).result engine s.config.supervisor).outcome.map responseOf ∧
      ((s.withEngine engine shared).handle request).2.shared =
        ((t.withShared shared).result engine s.config.supervisor).shared := by
  have hturn' : (s.withEngine engine shared).turn? request = some (t.withShared shared) := by
    rw [turn?_withEngine hnew, hturn, Option.map_some]
  exact (handle_of_turn hturn').2

namespace Turn

/-- The evaluation of the prelude that comes before the source. -/
def preludeReport (engine : Engine Shared State) (config : SupervisorConfig) (text : String)
    (freeAt : Instant) (t : Turn Shared State) : Report Shared State :=
  engine.evaluate text t.shared t.session.slot.state (t.context config freeAt)

/-- A turn in a session whose prelude has not run yet: the slot is free, and the deadline is not over. -/
structure Opens (engine : Engine Shared State) (config : SupervisorConfig) (text : String)
    (freeAt : Instant) (t : Turn Shared State) : Prop where
  prelude : engine.prelude = some text
  fresh : t.session.slot.preludeApplied = false
  free : t.session.slot.freeAt = some freeAt
  inTime : (t.context config freeAt).cancelled = false

variable {engine : Engine Shared State} {config : SupervisorConfig} {text : String}
  {freeAt : Instant} {t : Turn Shared State}

/-- Such a turn begins with the prelude, and the source is evaluated if this settles. -/
theorem Opens.work_eq (h : t.Opens engine config text freeAt) :
    t.work engine config =
      if (t.preludeReport engine config text freeAt).ending.settles then
        Supervisor.evaluateSource engine t.source (t.preludeReport engine config text freeAt).shared
          (t.preludeReport engine config text freeAt).session
          (t.preludeReport engine config text freeAt).context.cleared
      else .ofReport (t.preludeReport engine config text freeAt) false := by
  rw [work, Supervisor.workFor, h.free]
  exact Supervisor.work_of_missing h.prelude h.fresh h.inTime t.source t.shared

/-- The result of a turn depends on the work alone. -/
theorem result_eq (engine : Engine Shared State) (config : SupervisorConfig)
    (t : Turn Shared State) :
    t.result engine config = Supervisor.resultOf t.session t.request.code t.now
      (t.work engine config) (Supervisor.answer config (t.deadline config) (t.work engine config)
        (t.session.pending ++ [t.request.code])) :=
  Supervisor.run_eq_resultOf _ _ _ _ _ _ _

theorem shared_result (engine : Engine Shared State) (config : SupervisorConfig)
    (t : Turn Shared State) : (t.result engine config).shared = (t.work engine config).shared := by
  rw [result_eq]
  cases Supervisor.answer config (t.deadline config) (t.work engine config)
    (t.session.pending ++ [t.request.code]) <;> rfl

/-- An engine with a record has been given the prelude and, if that settles, the source. -/
theorem Opens.record (h : t.Opens engine config text freeAt) :
    ((t.withShared (t.shared, ([] : List String))).work engine.recorded config).shared.2 =
      if (t.preludeReport engine config text freeAt).ending.settles then [text, t.source]
      else [text] := by
  have hopens : (t.withShared (t.shared, ([] : List String))).Opens engine.recorded config text
      freeAt := ⟨h.prelude, h.fresh, h.free, h.inTime⟩
  have hending : ((t.withShared (t.shared, ([] : List String))).preludeReport engine.recorded config
      text freeAt).ending = (t.preludeReport engine config text freeAt).ending := rfl
  rw [hopens.work_eq, hending]
  split <;> rfl

/-- The work behind a prelude that settles depends on what this leaves, not on what it has written and how
it has ended. -/
theorem Opens.work_congr {engine' : Engine Shared State} {t' : Turn Shared State}
    (h : t.Opens engine config text freeAt) (h' : t'.Opens engine' config text freeAt)
    (hsource : t'.source = t.source)
    (hsettles : (t.preludeReport engine config text freeAt).ending.settles = true)
    (hsettles' : (t'.preludeReport engine' config text freeAt).ending.settles = true)
    (hsame : (t.preludeReport engine config text freeAt).SameTrace
      (t'.preludeReport engine' config text freeAt))
    (hown : engine'.evaluate t.source (t.preludeReport engine config text freeAt).shared
        (t.preludeReport engine config text freeAt).session
        (t.preludeReport engine config text freeAt).context.cleared =
      engine.evaluate t.source (t.preludeReport engine config text freeAt).shared
        (t.preludeReport engine config text freeAt).session
        (t.preludeReport engine config text freeAt).context.cleared) :
    t'.work engine' config = t.work engine config := by
  rw [h.work_eq, h'.work_eq, if_pos hsettles, if_pos hsettles', hsame.shared, hsame.session,
    hsame.context, hsource, Supervisor.evaluateSource, Supervisor.evaluateSource, hown]

/-- So the outcome does not either. -/
theorem Opens.outcome_congr {engine' : Engine Shared State} {shared' : Shared}
    (h : t.Opens engine config text freeAt)
    (h' : (t.withShared shared').Opens engine' config text freeAt)
    (hsettles : (t.preludeReport engine config text freeAt).ending.settles = true)
    (hsettles' : ((t.withShared shared').preludeReport engine' config text freeAt).ending.settles =
      true)
    (hsame : (t.preludeReport engine config text freeAt).SameTrace
      ((t.withShared shared').preludeReport engine' config text freeAt))
    (hown : engine'.evaluate t.source (t.preludeReport engine config text freeAt).shared
        (t.preludeReport engine config text freeAt).session
        (t.preludeReport engine config text freeAt).context.cleared =
      engine.evaluate t.source (t.preludeReport engine config text freeAt).shared
        (t.preludeReport engine config text freeAt).session
        (t.preludeReport engine config text freeAt).context.cleared) :
    ((t.withShared shared').result engine' config).outcome = (t.result engine config).outcome := by
  have hwork := h.work_congr h' rfl hsettles hsettles' hsame hown
  rw [result_eq, result_eq]
  show (Supervisor.resultOf t.session t.request.code t.now
    ((t.withShared shared').work engine' config) (Supervisor.answer config (t.deadline config)
      ((t.withShared shared').work engine' config) (t.session.pending ++ [t.request.code]))).outcome = _
  rw [hwork]

/-- A prelude that reports in time that it was cancelled is what the request comes to. -/
theorem Opens.outcome_of_cancelled (h : t.Opens engine config text freeAt)
    (hcancelled : (t.preludeReport engine config text freeAt).ending = .returned (.error .cancelled))
    (htime : ∀ limit ∈ t.deadline config,
      (t.preludeReport engine config text freeAt).context.clock < limit) :
    ∃ front : String, (t.result engine config).outcome =
      some (.failed (front ++ EngineError.cancelled.message)) := by
  have hwork := h.work_eq
  rw [hcancelled, if_neg (by decide)] at hwork
  have hends : (t.work engine config).ending ≠ .endless := by
    rw [hwork, Supervisor.Work.ofReport, hcancelled]
    intro hendless
    cases hendless
  have hanswer : Supervisor.answer config (t.deadline config) (t.work engine config)
      (t.session.pending ++ [t.request.code]) = _ :=
    Supervisor.answer_of_lt _ hends (by rwa [hwork])
  refine ⟨(t.preludeReport engine config text freeAt).context.output.shown, ?_⟩
  rw [result_eq, hanswer, hwork, Supervisor.Work.ofReport, hcancelled]
  rfl

end Turn

/-- The response to the first request of a session shows nothing of the prelude, if this settles: the source
is evaluated, and another engine, whose prelude leaves the same behind but writes something else and ends
in another way, gives the same response. A prelude that reports in time that it was cancelled fails the
request with that. -/
theorem handle_behind_prelude {s : Service Shared State} {request : Request} {t : Turn Shared State}
    (hturn : s.turn? request = some t) {text : String} {freeAt : Instant}
    (hopens : t.Opens s.engine s.config.supervisor text freeAt) {r : Report Shared State}
    (hr : r = t.preludeReport s.engine s.config.supervisor text freeAt) :
    (r.ending.settles = true →
      ((s.withEngine s.engine.recorded (s.shared, [])).handle request).2.shared.2 =
          [text, t.source] ∧
        ∀ (engine' : Engine Shared State) (shared' : Shared) (r' : Report Shared State),
          engine'.prelude = some text → engine'.newSession = s.engine.newSession →
          r' = (t.withShared shared').preludeReport engine' s.config.supervisor text freeAt →
          r'.ending.settles = true → r.SameTrace r' →
          engine'.evaluate t.source r.shared r.session r.context.cleared =
            s.engine.evaluate t.source r.shared r.session r.context.cleared →
          ((s.withEngine engine' shared').handle request).1 = (s.handle request).1) ∧
      (r.ending = .returned (.error .cancelled) →
        (∀ limit ∈ t.deadline s.config.supervisor, r.context.clock < limit) →
        ((s.withEngine s.engine.recorded (s.shared, [])).handle request).2.shared.2 = [text] ∧
          ∃ front : String, (s.handle request).1 =
            some (responseOf (.failed (front ++ EngineError.cancelled.message)))) := by
  obtain ⟨hshared, hresponse, -⟩ := handle_of_turn hturn
  have hrecord : ((s.withEngine s.engine.recorded (s.shared, [])).handle request).2.shared.2 =
      if r.ending.settles then [text, t.source] else [text] := by
    have hnew : s.engine.recorded.newSession = s.engine.newSession := rfl
    rw [(handle_withEngine hturn hnew _).2, Turn.shared_result, hr, ← hshared]
    exact hopens.record
  subst hr
  refine ⟨fun hsettles => ⟨?_, ?_⟩, fun hcancelled htime => ⟨?_, ?_⟩⟩
  · rw [hrecord, if_pos hsettles]
  · intro engine' shared' r' hprelude hnew hr' hsettles' hsame hown
    subst hr'
    have hopens' : (t.withShared shared').Opens engine' s.config.supervisor text freeAt :=
      ⟨hprelude, hopens.fresh, hopens.free, hopens.inTime⟩
    rw [hresponse, (handle_withEngine hturn hnew shared').1,
      hopens.outcome_congr hopens' hsettles hsettles' hsame hown]
  · rw [hrecord, hcancelled]
    rfl
  · obtain ⟨front, houtcome⟩ := hopens.outcome_of_cancelled hcancelled htime
    exact ⟨front, by rw [hresponse, houtcome, Option.map_some]⟩

/-- A service whose engine first acts out a prelude and then comes to a value. -/
def rehearsing (prelude : Rehearsed.Behaviour) : Service Rehearsed.Course Unit :=
  .start (Rehearsed.engine (some "p") none) {}
    ⟨[prelude, ⟨none, .answer (.ok (.completed (some (.int 1))))⟩], []⟩

theorem handle_behind_prelude_noise :
    ((rehearsing ⟨some "noise", .answer (.error (.internal "broken"))⟩).handle (ask "x")).1 =
      ((rehearsing ⟨none, .answer (.ok (.completed none))⟩).handle (ask "x")).1 := by
  obtain ⟨t, hturn⟩ : ∃ t, (rehearsing ⟨none, .answer (.ok (.completed none))⟩).turn? (ask "x") =
    some t := ⟨_, rfl⟩
  have hopens : t.Opens (Rehearsed.engine (some "p") none) {} "p" 0 := by
    cases hturn
    exact ⟨rfl, rfl, rfl, rfl⟩
  have hsilent := (handle_behind_prelude hturn hopens rfl).1
  cases hturn
  exact (hsilent rfl).2 (Rehearsed.engine (some "p") none)
    ⟨[⟨some "noise", .answer (.error (.internal "broken"))⟩,
      ⟨none, .answer (.ok (.completed (some (.int 1))))⟩], []⟩ _ rfl rfl rfl rfl ⟨rfl, rfl, rfl⟩ rfl

/-- A prelude that reports that it was cancelled, or that breaks down, is not silent, and keeps the source
from being evaluated. -/
theorem prelude_not_silent :
    ((rehearsing ⟨none, .answer (.ok (.completed none))⟩).handle (ask "x")).1 =
        some { success := true, text := "1" } ∧
      (((rehearsing ⟨some "noise", .answer (.error .cancelled)⟩).handle (ask "x")).1 =
          some { success := true, text := "noiseevaluation cancelled" } ∧
        ((rehearsing ⟨some "noise", .answer (.error .cancelled)⟩).handle (ask "x")).2.shared.seen.map
          Prod.snd = ["p"]) ∧
      ((rehearsing ⟨some "noise", .panic (some "boom")⟩).handle (ask "x")).1 =
          some { success := false, text := "noiseinternal error: boom\n" } ∧
        ((rehearsing ⟨some "noise", .panic (some "boom")⟩).handle (ask "x")).2.shared.seen.map
          Prod.snd = ["p"] := by
  decide +kernel

end Service

end ReplDaemon
