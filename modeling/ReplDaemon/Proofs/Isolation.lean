import Mathlib
import ReplDaemon.Proofs.Continuation
import ReplDaemon.Proofs.Supervisor.Later

/-!
# Sessions of different keys

Where no session is ever dropped, the sessions of different keys have nothing to do with each other:
what is asked under one key is answered as if nothing else had been asked, and leaves the same behind.
All that other requests change is when it happens, and the engine does not know the time.
-/

namespace ReplDaemon.Service

variable {Shared State : Type}

/-- What happens to a service: it gets a request, or time passes. -/
inductive Event where
  | request (request : Request)
  | pause (time : Nat)

/-- Whether a request needs the session of a key. -/
def asks (key : String) (request : Request) : Bool :=
  request.key == key && !Text.isBlankText request.code

/-- Whether an event is a request that needs the session of a key. -/
def Event.asks (key : String) : Event → Bool
  | .request r => Service.asks key r
  | .pause _ => false

/-- The requests among some events with their answers, and the service afterwards. -/
def exchanges (s : Service Shared State) :
    List Event → List (Request × Option Response) × Service Shared State
  | [] => ([], s)
  | .request request :: rest =>
    let (response, s) := s.handle request
    let (answered, s) := s.exchanges rest
    ((request, response) :: answered, s)
  | .pause time :: rest => (s.runSweeper time).2.exchanges rest

variable {engine : Engine Unit State} {config : DaemonConfig} {key : String}
  {s t : Service Unit State}

/-- The service `t` has served whatever it was asked, the service `s` only what needs the session of the
key. Their sessions of the key are alike, and `t` is the later one. -/
structure Mirrors (engine : Engine Unit State) (config : DaemonConfig) (key : String)
    (s t : Service Unit State) : Prop where
  alone : s.Valid engine config
  among : t.Valid engine config
  clock : s.clock ≤ t.clock
  session : Option.Rel (Session.Alike s.clock t.clock) (s.registry.find? key) (t.registry.find? key)

namespace Mirrors

theorem refl_start (shared : Unit) :
    Mirrors engine config key (.start engine config shared) (.start engine config shared) :=
  ⟨⟨rfl, rfl, Registry.sound_empty⟩, ⟨rfl, rfl, Registry.sound_empty⟩, Nat.le_refl 0, .none⟩

/-- What leaves the session of the key alone does not matter. -/
theorem aside (h : Mirrors engine config key s t) {t' : Service Unit State}
    (hvalid : t'.Valid engine config) (hclock : t.clock ≤ t'.clock)
    (hfind : t'.registry.find? key = t.registry.find? key) : Mirrors engine config key s t' := by
  refine ⟨h.alone, hvalid, Nat.le_trans h.clock hclock, ?_⟩
  have hsession := h.session
  rw [hfind]
  generalize s.registry.find? key = found at hsession ⊢
  generalize t.registry.find? key = found' at hsession ⊢
  cases hsession with
  | some halike => exact .some (halike.mono (Nat.le_refl _) hclock)
  | none => exact .none

/-- The session that serves the next request under the key is alike, whether there is one or it has to
be made. -/
theorem sessionFor (h : Mirrors engine config key s t) (state : State) (outputLimit : Nat) :
    Session.Alike (s.clock + 1) (t.clock + 1)
      (s.registry.sessionFor state outputLimit key s.clock)
      (t.registry.sessionFor state outputLimit key t.clock) := by
  have hsession := h.session
  unfold Registry.sessionFor
  generalize s.registry.find? key = found at hsession ⊢
  generalize t.registry.find? key = found' at hsession ⊢
  have hle := Nat.le_succ s.clock
  have hle' := Nat.le_succ t.clock
  cases hsession with
  | some halike => exact (halike.touch s.clock t.clock).mono hle hle'
  | none => exact (Session.Alike.new key key _ _ state outputLimit).mono hle hle'

end Mirrors

/-- A service that keeps all sessions, one for each key. -/
structure Keeps (config : DaemonConfig) : Prop where
  keyed : config.protocol = .keyed
  unlimited : config.registry.maxSessions = none
  lasting : config.registry.idleTtl = none

namespace Mirrors

theorem keyOf (hkeeps : Keeps config) (hvalid : s.Valid engine config) (key : String) :
    s.keyOf key = key := by
  unfold Service.keyOf
  rw [hvalid.config, hkeeps.keyed]

/-- Time that passes does not matter. -/
theorem pause (hkeeps : Keeps config) (h : Mirrors engine config key s t) (time : Nat) :
    Mirrors engine config key s (t.runSweeper time).2 := by
  have hsweeper : (t.runSweeper time).2 = { t with clock := t.clock + time * millisecond } := by
    rw [runSweeper, h.among.config, hkeeps.lasting]
    rfl
  refine h.aside (h.among.runSweeper time) ?_ ?_
  · rw [hsweeper]
    exact Nat.le_add_right _ _
  · rw [hsweeper]

/-- A request that is not blank is served by the session of its key, and if it is answered, it is just
past the time of the answer. -/
theorem exists_result (hengine : engine.Steady) (hvalid : s.Valid engine config) {state : State}
    (hnew : engine.newSession = .ok state) {request : Request} (hkey : s.keyOf request.key = key)
    (hblank : Text.isBlankText request.code = false) :
    ∃ r : Supervisor.Result Unit State,
      r = Supervisor.run engine config.supervisor ()
        (s.registry.sessionFor state config.supervisor.maxOutputBytes key s.clock)
        request.code request.timeout (s.clock + 1) ∧
      (s.handle request).1 = r.outcome.map responseOf ∧
      (s.handle request).2.registry.find? key = some r.session ∧
      s.clock + 1 ≤ r.now ∧
      (s.handle request).2.clock = r.now + r.outcome.elim 0 fun _ => 1 := by
  rw [← hvalid.engine] at hnew hengine ⊢
  rw [← hvalid.config, ← hkey]
  obtain ⟨hanswer, hfound, -⟩ := handle_spec hvalid.sound hnew hblank rfl
  obtain ⟨_, _, _, _, _, _, _, _, hhandle⟩ := handle_eq hvalid.sound hnew hblank rfl
  have hnow := Supervisor.now_run hengine s.config.supervisor
    (s.registry.sessionFor state s.config.supervisor.maxOutputBytes (s.keyOf request.key) s.clock)
    request.code request.timeout (s.clock + 1)
  refine ⟨_, rfl, hanswer, hfound, hnow.1, ?_⟩
  rw [hhandle]
  cases houtcome : Supervisor.Result.outcome _ with
  | none => exact (hnow.2 houtcome).symm
  | some o => rfl

/-- A request never sets the clock back. -/
theorem clock_le_handle (hengine : engine.Steady) (hvalid : t.Valid engine config) {state : State}
    (hnew : engine.newSession = .ok state) (request : Request) :
    t.clock ≤ (t.handle request).2.clock := by
  cases hblank : Text.isBlankText request.code with
  | true => rw [handle_of_blank t hblank]
  | false =>
      obtain ⟨r, -, -, -, hnow, hclock⟩ := exists_result hengine hvalid hnew rfl hblank
      rw [hclock]
      exact Nat.le_add_right_of_le (Nat.le_of_succ_le hnow)

/-- Requests that do not need the session of the key do not matter. -/
theorem other (hkeeps : Keeps config) (hengine : engine.Steady) {state : State}
    (hnew : engine.newSession = .ok state) (h : Mirrors engine config key s t) {request : Request}
    (hother : asks key request = false) : Mirrors engine config key s (t.handle request).2 := by
  refine h.aside (h.among.handle request) (clock_le_handle hengine h.among hnew request) ?_
  cases hblank : Text.isBlankText request.code with
  | true => rw [handle_of_blank t hblank]
  | false =>
      have hne : request.key ≠ key := by simpa [asks, hblank] using hother
      rw [← h.among.engine] at hnew
      refine find?_handle_of_ne h.among.sound ?_ hnew ?_
      · rw [h.among.config, hkeeps.unlimited]
      · rwa [keyOf hkeeps h.among]

/-- A request that needs the session of the key is answered the same, unless it times out, and the
sessions stay alike. -/
theorem own (hkeeps : Keeps config) (hsteady : engine.Steady) (htimeless : engine.Timeless)
    {state : State} (hnew : engine.newSession = .ok state) (h : Mirrors engine config key s t)
    {request : Request} (hown : asks key request = true) (htime : ¬ TimedOut (t.handle request).1) :
    (t.handle request).1 = (s.handle request).1 ∧
      Mirrors engine config key (s.handle request).2 (t.handle request).2 := by
  obtain ⟨hkey, hblank⟩ : request.key = key ∧ Text.isBlankText request.code = false := by
    simpa [asks] using hown
  obtain ⟨r, hr, hanswer, hfound, -, hclock⟩ :=
    exists_result hsteady h.alone hnew ((keyOf hkeeps h.alone _).trans hkey) hblank
  obtain ⟨r', hr', hanswer', hfound', -, hclock'⟩ :=
    exists_result hsteady h.among hnew ((keyOf hkeeps h.among _).trans hkey) hblank
  obtain ⟨delay, hdelay⟩ := Nat.exists_eq_add_of_le h.clock
  have hlater : t.clock + 1 = s.clock + 1 + delay := by rw [hdelay, Nat.add_right_comm]
  have halike := h.sessionFor state config.supervisor.maxOutputBytes
  rw [hlater] at halike hr'
  have hdelayed : r.Delayed delay r' := by
    rw [hr, hr']
    exact Supervisor.run_later htimeless halike () request.code request.timeout
  have hgiven : r'.outcome ≠ some .probablyTimedOut := by
    intro hgiven
    rw [hanswer', hgiven] at htime
    exact htime (.inr rfl)
  refine ⟨by rw [hanswer, hanswer', hdelayed.outcome],
    h.alone.handle request, h.among.handle request, ?_, ?_⟩
  · rw [hclock, hclock', hdelayed.outcome, hdelayed.now]
    exact Nat.add_le_add_right (Nat.le_add_right _ _) _
  · rw [hfound, hfound', hclock, hclock']
    exact .some ((hdelayed.session hgiven).mono (Nat.le_add_right _ _) (Nat.le_add_right _ _))

/-- Whatever happens, the requests that need the session of the key are answered as if they were all there
is, as long as they do not time out. -/
theorem exchanges (hkeeps : Keeps config) (hsteady : engine.Steady) (htimeless : engine.Timeless)
    {state : State} (hnew : engine.newSession = .ok state) (h : Mirrors engine config key s t)
    {events : List Event} (htime : ∀ exchange ∈ (t.exchanges events).1,
      asks key exchange.1 = true → ¬ TimedOut exchange.2) :
    (t.exchanges events).1.filter (asks key ·.1) =
        (s.exchanges (events.filter (·.asks key))).1 ∧
      Mirrors engine config key (s.exchanges (events.filter (·.asks key))).2
        (t.exchanges events).2 := by
  induction events generalizing s t with
  | nil => exact ⟨rfl, h⟩
  | cons event rest ih =>
      cases event with
      | pause time => exact ih (h.pause hkeeps time) htime
      | request request =>
          obtain ⟨hfirst, hrest⟩ := List.forall_mem_cons.mp htime
          cases hasks : asks key request with
          | false =>
              rw [List.filter_cons_of_neg (by simp [Event.asks, hasks]), Service.exchanges]
              simp only [List.filter_cons, hasks, Bool.false_eq_true, if_false]
              exact ih (h.other hkeeps hsteady hnew hasks) hrest
          | true =>
              obtain ⟨hsame, hnext⟩ := h.own hkeeps hsteady htimeless hnew hasks (hfirst hasks)
              obtain ⟨hanswers, hmirrors⟩ := ih hnext hrest
              rw [List.filter_cons_of_pos (by simp [Event.asks, hasks]), Service.exchanges,
                Service.exchanges]
              simp only [List.filter_cons, hasks, if_true]
              exact ⟨by rw [hsame, hanswers], hmirrors⟩

/-- Sessions that are alike keep the same. -/
theorem keeps (hkeeps : Keeps config) (h : Mirrors engine config key s t) :
    t.state? key = s.state? key ∧ t.pending? key = s.pending? key := by
  unfold state? pending?
  rw [keyOf hkeeps h.alone, keyOf hkeeps h.among]
  have hsession := h.session
  generalize s.registry.find? key = found at hsession ⊢
  generalize t.registry.find? key = found' at hsession ⊢
  cases hsession with
  | some halike => exact ⟨congrArg some halike.state, congrArg some halike.pending⟩
  | none => exact ⟨rfl, rfl⟩

end Mirrors

/-- Sessions of different keys never interfere. Where no session is ever dropped, the requests under a key
that are not blank are answered like these requests alone, and leave the same variables and the same
pending chunks, whatever else is asked and whatever time passes, as long as they do not time out. -/
theorem exchanges_isolated {config : DaemonConfig} (hkeyed : config.protocol = .keyed)
    (hunlimited : config.registry.maxSessions = none) (hlasting : config.registry.idleTtl = none)
    (key : String) (events : List Event)
    (htime : ∀ exchange ∈ ((ofConfig config).exchanges events).1,
      asks key exchange.1 = true → ¬ TimedOut exchange.2) :
    ((ofConfig config).exchanges events).1.filter (asks key ·.1) =
        ((ofConfig config).exchanges (events.filter (·.asks key))).1 ∧
      ((ofConfig config).exchanges events).2.state? key =
        ((ofConfig config).exchanges (events.filter (·.asks key))).2.state? key ∧
      ((ofConfig config).exchanges events).2.pending? key =
        ((ofConfig config).exchanges (events.filter (·.asks key))).2.pending? key := by
  have hkeeps : Keeps config := ⟨hkeyed, hunlimited, hlasting⟩
  obtain ⟨prelude, hfresh⟩ : ∃ prelude, ofConfig config = start (Script.engine prelude) config () :=
    ⟨_, rfl⟩
  rw [hfresh] at htime ⊢
  obtain ⟨hanswers, hmirrors⟩ := Mirrors.exchanges hkeeps (Script.steady_engine prelude)
    (Script.timeless_engine prelude) rfl (Mirrors.refl_start ()) htime
  exact ⟨hanswers, hmirrors.keeps hkeeps⟩

/-- A configuration without a prelude. -/
def plain : DaemonConfig where
  engine := { prelude := some [] }

/-- A statement in two chunks under one key, and a request under another key in between. -/
def twoKeys : List Event :=
  [.request { timeout := 0, key := "k", code := "1 +" },
   .request { timeout := 0, key := "j", code := "7" },
   .pause 5,
   .request { timeout := 0, key := "k", code := "2" }]

set_option maxRecDepth 20000 in
theorem exchanges_isolated_twoKeys :
    ((ofConfig plain).exchanges twoKeys).1.map (·.2) =
        [some ⟨false, "(continue...)"⟩, some ⟨true, "7"⟩, some ⟨true, "3"⟩] ∧
      ((ofConfig plain).exchanges twoKeys).1.filter (asks "k" ·.1) =
        ((ofConfig plain).exchanges (twoKeys.filter (·.asks "k"))).1 := by
  have hanswers : ((ofConfig plain).exchanges twoKeys).1.map (·.2) =
      [some ⟨false, "(continue...)"⟩, some ⟨true, "7"⟩, some ⟨true, "3"⟩] := by cbv
  have htime : ∀ answer ∈ ((ofConfig plain).exchanges twoKeys).1.map (·.2), ¬ TimedOut answer := by
    rw [hanswers]
    unfold TimedOut
    decide
  exact ⟨hanswers, (exchanges_isolated rfl rfl rfl "k" twoKeys fun _ hmem _ =>
    htime _ (List.mem_map_of_mem hmem)).1⟩

end ReplDaemon.Service
