import ReplDaemon.Proofs.Service
import ReplDaemon.Proofs.Supervisor.Worked

/-!
# The turns of requests

A request that is not blank has a turn in a session, unless no session can be made for it. On a service
that has come about in whatever way, every answer is the outcome of such a turn, in a session with the
configured limit of output and with a state that evaluations have left.
-/

namespace ReplDaemon.Service

variable {Shared State : Type} {engine : Engine Shared State} {config : DaemonConfig}
  {kind : State → Prop}

/-- A request that has its turn: what it finds, and when. -/
structure Turn (Shared State : Type) where
  shared : Shared
  session : Session State
  request : Request
  now : Instant

namespace Turn

/-- What the supervisor does for a request that has its turn. -/
def result (engine : Engine Shared State) (config : SupervisorConfig) (t : Turn Shared State) :
    Supervisor.Result Shared State :=
  Supervisor.run engine config t.shared t.session t.request.code t.request.timeout t.now

/-- What a worker does for it. -/
def work (engine : Engine Shared State) (config : SupervisorConfig) (t : Turn Shared State) :
    Supervisor.Work Shared State :=
  Supervisor.workFor engine config t.shared t.session t.request.code t.request.timeout t.now

end Turn

/-- The outcome that the supervisor comes to; there is none without a turn. -/
def outcome? (engine : Engine Shared State) (config : SupervisorConfig)
    (turn : Option (Turn Shared State)) : Option Outcome :=
  turn.bind fun t => (t.result engine config).outcome

/-- The turn of a request at some time in the session that a reference is to. -/
def turnAt (s : Service Shared State) (reference : Reference) (request : Request) (now : Instant) :
    Option (Turn Shared State) :=
  (s.registry.sessions.find? (·.identity == reference.identity)).map fun session =>
    { shared := s.shared, session, request, now }

/-- The turn of a request that is handled by itself. -/
def turn? (s : Service Shared State) (request : Request) : Option (Turn Shared State) :=
  if Text.isBlankText request.code then none
  else match s.acquire (s.keyOf request.key) with
    | .error _ => none
    | .ok (reference, s) => s.turnAt reference request s.clock

section

variable {s t : Service Shared State} {request : Request}

theorem turn?_of_error {e : EngineError} (hblank : ¬ Text.isBlankText request.code)
    (hacquire : s.acquire (s.keyOf request.key) = .error e) : s.turn? request = none := by
  rw [turn?, if_neg hblank, hacquire]

theorem turn?_of_ok {reference : Reference} (hblank : ¬ Text.isBlankText request.code)
    (hacquire : s.acquire (s.keyOf request.key) = .ok (reference, t)) :
    s.turn? request = t.turnAt reference request t.clock := by
  rw [turn?, if_neg hblank, hacquire]

end

/-- The turns of requests that wait, in the order in which they are served. -/
def turnsFrom (s : Service Shared State) (issued : Instant) (served : List (Nat × Instant)) :
    List Ticket → List (Option (Turn Shared State))
  | [] => []
  | .answered _ :: rest => none :: s.turnsFrom issued served rest
  | .waiting reference request :: rest =>
    let start := (served.lookup reference.identity).getD issued
    s.turnAt reference request start ::
      match s.evaluate reference request start with
      | (none, _) => []
      | (some (_, now), s) => s.turnsFrom issued ((reference.identity, now) :: served) rest

theorem turnsFrom_waiting {s t : Service Shared State} {issued now : Instant}
    {served : List (Nat × Instant)} {reference : Reference} {request : Request} {response : Response}
    {rest : List Ticket}
    (h : s.evaluate reference request ((served.lookup reference.identity).getD issued) =
      (some (response, now), t)) :
    s.turnsFrom issued served (.waiting reference request :: rest) =
      s.turnAt reference request ((served.lookup reference.identity).getD issued) ::
        t.turnsFrom issued ((reference.identity, now) :: served) rest := by
  rw [turnsFrom]
  simp only [h]

/-- The turns of requests that are issued all at once. -/
def turns (s : Service Shared State) (requests : List Request) : List (Option (Turn Shared State)) :=
  (s.accept requests).2.turnsFrom (s.accept requests).2.clock [] (s.accept requests).1

/-- How a response comes about: code is blank, or no session can be made, or a turn has an outcome. -/
inductive Answers (engine : Engine Shared State) (config : DaemonConfig) (kind : State → Prop) :
    Option (Turn Shared State) → Response → Prop
  | blank : Answers engine config kind none blankResponse
  | refused {e : EngineError} (refuses : engine.newSession = .error e) :
      Answers engine config kind none (refusal e)
  | served {t : Turn Shared State} {o : Outcome}
      (limit : t.session.outputLimit = config.supervisor.maxOutputBytes)
      (state : kind t.session.slot.state)
      (outcome : (t.result engine config.supervisor).outcome = some o) :
      Answers engine config kind (some t) (responseOf o)

/-- A ticket that is answered already is one of code that is blank or that gets no session. -/
def Ticket.Sound (engine : Engine Shared State) : Ticket → Prop
  | .answered response =>
    response = blankResponse ∨ ∃ e, engine.newSession = .error e ∧ response = refusal e
  | .waiting _ _ => True

/-- A service of this engine and these settings, whose sessions have the configured limit and a state of
some kind. -/
structure Houses (engine : Engine Shared State) (config : DaemonConfig) (kind : State → Prop)
    (s : Service Shared State) : Prop where
  valid : s.Valid engine config
  sessions : ∀ session ∈ s.registry.sessions,
    session.outputLimit = config.supervisor.maxOutputBytes ∧ kind session.slot.state

namespace Houses

variable {s : Service Shared State}

theorem drop (h : s.Houses engine config kind) {r : Registry State} {clock : Instant}
    (hsub : r.sessions.Sublist s.registry.sessions) (hmade : r.made = s.registry.made) :
    Houses engine config kind { s with registry := r, clock } :=
  ⟨h.valid.drop hsub hmade, fun session hsession => h.sessions session (hsub.subset hsession)⟩

/-- Only a refusal to make a session keeps a request from getting one. -/
theorem newSession_of_acquire (h : s.Houses engine config kind) {key : String} {e : EngineError}
    (hacquire : s.acquire key = .error e) : engine.newSession = .error e := by
  rw [Service.acquire, Registry.acquire, h.valid.engine] at hacquire
  cases hfind : s.registry.find? key with
  | some session =>
      rw [hfind] at hacquire
      cases hacquire
  | none =>
      rw [hfind] at hacquire
      cases hnew : engine.newSession with
      | ok state =>
          rw [hnew] at hacquire
          cases hacquire
      | error e' =>
          rw [hnew] at hacquire
          cases hacquire
          rfl

theorem acquire (hkind : engine.Stays kind) (h : s.Houses engine config kind) {key : String}
    {reference : Reference} {t : Service Shared State}
    (hacquire : s.acquire key = .ok (reference, t)) : t.Houses engine config kind := by
  have hvalid := h.valid.acquire hacquire
  obtain ⟨registry, hregistry, rfl⟩ := exists_of_acquire hacquire
  rw [h.valid.engine, h.valid.config] at hregistry
  exact ⟨hvalid, Registry.forall_mem_acquire h.sessions (fun _ hsession => hsession)
    (fun state hnew => ⟨rfl, hkind.new state hnew⟩) hregistry⟩

theorem evaluate (hwrites : engine.Writes) (hkind : engine.Stays kind)
    (h : s.Houses engine config kind) (reference : Reference) (request : Request) (now : Instant) :
    (s.evaluate reference request now).2.Houses engine config kind := by
  have hvalid := h.valid.evaluate reference request now
  unfold Service.evaluate at hvalid ⊢
  split at hvalid
  · exact h
  · next session hfind =>
      obtain ⟨hlimit, hstate⟩ := h.sessions session (List.mem_of_find?_eq_some hfind)
      refine ⟨hvalid, Registry.forall_mem_update h.sessions ⟨?_, ?_⟩⟩
      · exact (Supervisor.run_session _ _ _ _ _ _ _).2.2.trans hlimit
      · rw [h.valid.engine]
        exact Supervisor.state_run hwrites hkind _ hstate _ _ _

/-- Whoever is answered has had a turn. -/
theorem answers_evaluate (h : s.Houses engine config kind) {reference : Reference}
    {request : Request} {now later : Instant} {response : Response} {t : Service Shared State}
    (hevaluate : s.evaluate reference request now = (some (response, later), t)) :
    Answers engine config kind (s.turnAt reference request now) response := by
  unfold Service.evaluate at hevaluate
  unfold turnAt
  cases hfind : s.registry.sessions.find? (·.identity == reference.identity) with
  | none =>
      rw [hfind] at hevaluate
      cases hevaluate
  | some session =>
      rw [hfind] at hevaluate
      obtain ⟨hlimit, hstate⟩ := h.sessions session (List.mem_of_find?_eq_some hfind)
      obtain ⟨o, houtcome, hresponse⟩ :=
        Option.map_eq_some_iff.mp (congrArg Prod.fst hevaluate)
      rw [h.valid.engine, h.valid.config] at houtcome
      cases hresponse
      exact .served hlimit hstate houtcome

/-- A request that is handled is answered by the outcome of its turn. -/
theorem answers_handle (hkind : engine.Stays kind) (h : s.Houses engine config kind)
    {request : Request} {response : Response} (hresponse : (s.handle request).1 = some response) :
    Answers engine config kind (s.turn? request) response := by
  unfold Service.handle at hresponse
  split at hresponse
  · next hblank =>
      cases hresponse
      rw [turn?, if_pos hblank]
      exact .blank
  · next hblank =>
      split at hresponse
      · next e hacquire =>
          cases hresponse
          rw [turn?_of_error hblank hacquire]
          exact .refused (h.newSession_of_acquire hacquire)
      · next reference t hacquire =>
          rw [turn?_of_ok hblank hacquire]
          split at hresponse
          · next answer now u hevaluate =>
              cases hresponse
              exact (h.acquire hkind hacquire).answers_evaluate hevaluate
          · cases hresponse

/-- Tickets are answered only where there is no session. -/
theorem sound_accept (hkind : engine.Stays kind) (h : s.Houses engine config kind)
    (requests : List Request) : ∀ ticket ∈ (s.accept requests).1, ticket.Sound engine := by
  induction requests generalizing s with
  | nil => exact List.forall_mem_nil _
  | cons request rest ih =>
      rw [accept]
      split
      · exact List.forall_mem_cons.mpr ⟨.inl rfl, ih h⟩
      · split
        · next e hacquire =>
            have hrefuses := h.newSession_of_acquire hacquire
            exact List.forall_mem_cons.mpr ⟨.inr ⟨e, hrefuses, rfl⟩, ih h⟩
        · next reference t hacquire =>
            exact List.forall_mem_cons.mpr ⟨trivial, ih (h.acquire hkind hacquire)⟩

/-- All tickets are answered by the outcomes of their turns. -/
theorem answers_serve (hwrites : engine.Writes) (hkind : engine.Stays kind)
    (h : s.Houses engine config kind) (issued : Instant) (served : List (Nat × Instant))
    {tickets : List Ticket} (htickets : ∀ ticket ∈ tickets, ticket.Sound engine)
    {responses : List Response} (hresponses : (s.serve issued served tickets).1 = some responses) :
    List.Forall₂ (Answers engine config kind) (s.turnsFrom issued served tickets) responses := by
  induction tickets generalizing s served responses with
  | nil =>
      cases hresponses
      exact .nil
  | cons ticket rest ih =>
      obtain ⟨hticket, hrest⟩ := List.forall_mem_cons.mp htickets
      cases ticket with
      | answered response =>
          obtain ⟨others, hothers, rfl⟩ := Option.map_eq_some_iff.mp hresponses
          rcases hticket with rfl | ⟨e, hrefuses, rfl⟩
          · exact .cons .blank (ih h served hrest hothers)
          · exact .cons (.refused hrefuses) (ih h served hrest hothers)
      | waiting reference request =>
          have hhouses := h.evaluate hwrites hkind reference request
            ((served.lookup reference.identity).getD issued)
          rw [serve] at hresponses
          simp only at hresponses
          split at hresponses
          · cases hresponses
          · next response now t hevaluate =>
              obtain ⟨others, hothers, rfl⟩ := Option.map_eq_some_iff.mp hresponses
              rw [turnsFrom_waiting hevaluate]
              rw [hevaluate] at hhouses
              exact .cons (h.answers_evaluate hevaluate) (ih hhouses _ hrest hothers)

theorem invariant (hwrites : engine.Writes) (hkind : engine.Stays kind) :
    Invariant (Houses engine config kind) where
  acquire h := h.acquire hkind
  evaluate reference request now h := h.evaluate hwrites hkind reference request now
  drop _ h := h.drop

end Houses

/-- Every answer of a reachable service is the outcome of a turn, whether the request is handled by itself
or with others. -/
theorem Reachable.answers (hwrites : engine.Writes) (hkind : engine.Stays kind) {shared : Shared}
    {s : Service Shared State} (h : Reachable engine config shared s) :
    (∀ request response, (s.handle request).1 = some response →
        Answers engine config kind (s.turn? request) response) ∧
      ∀ requests responses, (s.handleAll requests).1 = some responses →
        List.Forall₂ (Answers engine config kind) (s.turns requests) responses := by
  have hinvariant : Invariant (Houses engine config kind) := Houses.invariant hwrites hkind
  have hhouses : s.Houses engine config kind :=
    hinvariant.reachable ⟨⟨rfl, rfl, Registry.sound_empty⟩, List.forall_mem_nil _⟩ h
  refine ⟨fun request response => hhouses.answers_handle hkind,
    fun requests responses hresponses => ?_⟩
  exact (hinvariant.accept hhouses requests).answers_serve hwrites hkind _ []
    (hhouses.sound_accept hkind requests) hresponses

end ReplDaemon.Service
