import ReplDaemon.Proofs.Concourse.Outline
import ReplDaemon.Proofs.Service
import ReplDaemon.Proofs.Traffic.Sequence

/-!
# A service that is asked one thing after the other

A service that answers one request before it gets the next one goes through one of the runs of a service
in use: its registry has the outline of that run's, and its sessions are as that run leaves them. So what
holds in every run holds of the service.
-/

namespace ReplDaemon

variable {State : Type} {engine : Engine Unit State} {config : DaemonConfig}

namespace Traffic

variable {config : SupervisorConfig} {session : Session State} {moves moves' : List Move} {move : Move}
  {s t u : Traffic State}

theorem arrivals_append (moves moves' : List Move) :
    ReplDaemon.arrivals (moves ++ moves') = ReplDaemon.arrivals moves ++ ReplDaemon.arrivals moves' :=
  List.filterMap_append

theorem Run.requests_add (h : Run engine config s moves t) :
    t.requests + (answers moves).length = s.requests + (ReplDaemon.arrivals moves).length := by
  induction h with
  | nil => rfl
  | snoc _ hstep ih =>
      have hlast := hstep.requests_add
      rw [answers_append, arrivals_append, List.length_append, List.length_append]
      omega

theorem Run.of_snoc (h : Run engine config s (moves ++ [move]) u) :
    ∃ t, Run engine config s moves t ∧ Step engine config t move u := by
  generalize hall : moves ++ [move] = all at h
  cases h with
  | nil => simp at hall
  | snoc hrun hstep =>
      obtain ⟨rfl, hlast⟩ := List.append_inj' hall rfl
      cases hlast
      exact ⟨_, hrun, hstep⟩

/-- A run is what comes before one of its moves, this move, and what comes after it. -/
theorem Run.exists_around {back : List Move} (h : Run engine config s (moves ++ move :: back) u) :
    ∃ t t', Run engine config s moves t ∧ Step engine config t move t' ∧
      Run engine config t' back u := by
  induction back using List.reverseRecOn generalizing u with
  | nil =>
      obtain ⟨t, hrun, hstep⟩ := h.of_snoc
      exact ⟨t, u, hrun, hstep, .nil⟩
  | append_singleton back last ih =>
      rw [← List.cons_append, ← List.append_assoc] at h
      obtain ⟨v, hrun, hlast⟩ := h.of_snoc
      obtain ⟨t, t', hfront, hstep, hback⟩ := ih hrun
      exact ⟨t, t', hfront, hstep, hback.snoc hlast⟩

/-- Around its only answer a run gives none. -/
theorem Run.exists_answered {number : Nat} {outcome : Outcome} (h : Run engine config s moves u)
    (hanswers : answers moves = [(number, outcome)]) :
    ∃ front back t t', Run engine config s front t ∧ answers front = [] ∧
      Step engine config t (.answered number outcome) t' ∧
      Run engine config t' back u ∧ answers back = [] := by
  obtain ⟨front, move, back, rfl, hfront, hmove, hback⟩ := List.filterMap_eq_cons_iff.mp hanswers
  have hanswered : move = .answered number outcome := by
    cases move with
    | answered => simpa using hmove
    | arrived | served | worked | cancelled => cases hmove
  subst hanswered
  obtain ⟨t, t', hbefore, hstep, hafter⟩ := h.exists_around
  exact ⟨front, back, t, t', hbefore, List.filterMap_eq_nil_iff.mpr hfront, hstep, hafter, hback⟩

theorem Resting.requests_eq_zero (h : t.Resting session) : t.requests = 0 := by
  simp [requests, h.turn, h.queue]

end Traffic

namespace Registry

variable {r : Registry State}

theorem used_used (r : Registry State) (identity : Nat) (time time' : Instant) :
    (r.used identity time).used identity time' = r.used identity time' := by
  simp only [used, List.map_map]
  refine congrArg (Registry.mk · r.held r.made) (List.map_congr_left fun x _ => ?_)
  simp only [Function.comp_apply]
  by_cases he : (x.identity == identity) = true
  · rw [if_pos he, if_pos he, if_pos (show ((x.touch time).identity == identity) = true from he)]
    rfl
  · rw [if_neg he, if_neg he]

end Registry

namespace Concourse

variable {c : Concourse State} {reference : Reference} {moves : List Move} {t u : Traffic State}

/-- A state that a service in use may come to. -/
def Reached (engine : Engine Unit State) (config : DaemonConfig) (c : Concourse State) : Prop :=
  ∃ events, Run engine config events c

theorem Reached.sound (h : Reached engine config c) : c.Sound := by
  obtain ⟨events, hrun⟩ := h
  exact hrun.sound

theorem Reached.step {event : Event} {c' : Concourse State} (h : Reached engine config c)
    (hstep : Step engine config c event c') : Reached engine config c' := by
  obtain ⟨events, hrun⟩ := h
  exact ⟨_, hrun.snoc hstep⟩

/-- Another state differs in what has happened in one session, and in when this was used. -/
structure Turned (c : Concourse State) (reference : Reference) (u : Traffic State)
    (c' : Concourse State) : Prop where
  traffic : c'.traffic = Function.update c.traffic reference (some u)
  clock : c'.clock = c.clock
  registry : c'.registry = c.registry ∨ c'.registry = c.registry.used reference.identity c.clock

theorem Turned.held_eq {c' : Concourse State} (h : c.Turned reference u c') :
    c'.registry.held = c.registry.held := by
  rcases h.registry with he | he <;> rw [he]
  rfl

theorem Turned.used_eq {c' : Concourse State} (h : c.Turned reference u c') (time : Instant) :
    c'.registry.used reference.identity time = c.registry.used reference.identity time := by
  rcases h.registry with he | he
  · rw [he]
  · rw [he, Registry.used_used]

/-- What happens in a session between answers may happen in the service, if there are references enough
for the requests that arrive. -/
theorem Reached.exists_turned (hc : Reached engine config c) (ht : c.traffic reference = some t)
    (hrun : Traffic.Run engine config.supervisor t moves u) (hquiet : answers moves = [])
    (hspare : t.requests + (arrivals moves).length ≤ c.registry.held.count reference) :
    ∃ c', Reached engine config c' ∧ c.Turned reference u c' := by
  induction hrun with
  | nil => exact ⟨c, hc, (Function.update_eq_self_iff.mpr ht.symm).symm, rfl, .inl rfl⟩
  | @snoc moves move v w hrun hstep ih =>
      rw [Traffic.answers_append, List.append_eq_nil_iff] at hquiet
      rw [Traffic.arrivals_append, List.length_append] at hspare
      obtain ⟨c', hc', hturned⟩ := ih hquiet.1 (by omega)
      have htraffic : c'.traffic reference = some v := by
        rw [hturned.traffic, Function.update_self]
      have hentitled : ∀ number, move = .arrived number → c'.Spare reference := by
        rintro number rfl
        have hrequests := hrun.requests_add
        rw [hquiet.1, List.length_nil, Nat.add_zero] at hrequests
        rw [Spare, htraffic, Option.elim_some, hturned.held_eq, hrequests]
        exact hspare
      refine ⟨_, hc'.step (.move reference htraffic hstep hentitled), ?_, hturned.clock, ?_⟩
      · rw [proceed, hturned.traffic, Function.update_idem]
      · cases move with
        | served number => exact .inr (hturned.clock ▸ hturned.used_eq c.clock)
        | answered => cases hquiet.2
        | arrived | worked | cancelled => exact hturned.registry

/-- At some time a session was used last, and a request let go of it. -/
def answeredAt (c : Concourse State) (reference : Reference) (u : Traffic State) (time : Instant) :
    Concourse State where
  registry := (c.registry.used reference.identity time).unhold reference
  traffic := Function.update c.traffic reference (some u)
  clock := time

theorem Turned.step_answered {c' : Concourse State} (hturned : c.Turned reference t c')
    {number : Nat} {outcome : Outcome}
    (hanswer : Traffic.Step engine config.supervisor t (.answered number outcome) u) (time : Nat) :
    Step engine config { c' with clock := c'.clock + time }
      (.moved reference (.answered number outcome))
      (c.answeredAt reference u (c.clock + time)) := by
  have htraffic : c'.traffic reference = some t := by rw [hturned.traffic, Function.update_self]
  have hnext : ({ c' with clock := c'.clock + time } : Concourse State).proceed reference
      (.answered number outcome) u = c.answeredAt reference u (c.clock + time) := by
    simp only [proceed, note, answeredAt, hturned.traffic, hturned.clock, Function.update_idem,
      hturned.used_eq]
  have hentitled : ∀ arriving, .answered number outcome = Move.arrived arriving →
      ({ c' with clock := c'.clock + time } : Concourse State).Spare reference := by
    intro arriving hmove
    cases hmove
  exact hnext ▸ .move reference htraffic hanswer hentitled

theorem Turned.answeredAt {c' : Concourse State} {v : Traffic State} {time : Instant}
    (hturned : (c.answeredAt reference v time).Turned reference u c') :
    c' = c.answeredAt reference u time := by
  have hregistry : c'.registry = (c.answeredAt reference v time).registry := by
    rcases hturned.registry with he | he
    · exact he
    · exact he.trans (congrArg (Registry.unhold · _) (Registry.used_used _ _ _ _))
  exact Concourse.ext hregistry (hturned.traffic.trans (Function.update_idem ..)) hturned.clock

/-- A request that the supervisor answers may be answered so in the service, and leaves the session as the
supervisor does. -/
theorem Reached.exists_served (hc : Reached engine config c) (hengine : engine.Steady)
    {y : Session State} (ht : c.traffic y.reference = some t) (hrest : t.Resting y)
    (hheld : y.reference ∈ c.registry.held) {chunk : String} {timeout : UInt32}
    {r : Supervisor.Result Unit State}
    (hr : r = Supervisor.run engine config.supervisor ⟨⟩ y chunk timeout c.clock)
    {outcome : Outcome} (houtcome : r.outcome = some outcome) :
    ∃ u, Reached engine config (c.answeredAt y.reference u r.now) ∧ u.Resting r.session := by
  obtain ⟨moves, u, hrun, hanswers, hrest'⟩ := hrest.exists_run_of_run hengine hr houtcome
  obtain ⟨front, back, v, v', hfront, hquiet, hanswer, hback, hquiet'⟩ :=
    hrun.exists_answered hanswers
  -- One request has arrived, before the answer.
  have hbefore := hfront.requests_add
  have hlast := hanswer.requests_add
  have hafter := hback.requests_add
  rw [hquiet, List.length_nil, hrest.requests_eq_zero] at hbefore
  rw [hquiet', List.length_nil, hrest'.requests_eq_zero] at hafter
  rw [show answers [Move.answered t.arrivals outcome] = [(t.arrivals, outcome)] from rfl,
    show arrivals [Move.answered t.arrivals outcome] = [] from rfl, List.length_singleton,
    List.length_nil] at hlast
  have hcount : 0 < c.registry.held.count y.reference := List.count_pos_iff.mpr hheld
  obtain ⟨c₁, hc₁, hturned₁⟩ := hc.exists_turned ht hfront hquiet
    (by rw [hrest.requests_eq_zero]; omega)
  obtain ⟨time, htime⟩ : ∃ time, r.now = c.clock + time :=
    Nat.exists_eq_add_of_le (hr ▸ (Supervisor.now_run hengine _ y chunk timeout c.clock).1)
  have hc₂ : Reached engine config (c.answeredAt y.reference v' r.now) :=
    htime ▸ (hc₁.step (.wait time)).step (hturned₁.step_answered hanswer time)
  obtain ⟨c₃, hc₃, hturned₃⟩ := hc₂.exists_turned (Function.update_self ..) hback hquiet' (by omega)
  exact ⟨u, hturned₃.answeredAt ▸ hc₃, hrest'⟩

/-- A state of a service in use that a service is in: the registry has the same outline, and nobody uses the
sessions, in which the same has happened. -/
structure Reflects (c : Concourse State) (s : Service Unit State) : Prop where
  clock : c.clock = s.clock
  outline : c.registry.outline = s.registry.outline
  resting : ∀ y ∈ s.registry.sessions, ∃ t, c.traffic y.reference = some t ∧ t.Resting y

namespace Reflects

variable {s s' : Service Unit State}

theorem held_eq (h : c.Reflects s) : c.registry.held = s.registry.held :=
  congrArg (·.held) h.outline

theorem references_eq (h : c.Reflects s) : c.registry.references = s.registry.references := by
  rw [← Registry.references_outline, h.outline, Registry.references_outline]

theorem start (engine : Engine Unit State) (config : DaemonConfig) :
    (Concourse.start : Concourse State).Reflects (.start engine config ()) :=
  ⟨rfl, rfl, fun _ h => absurd h List.not_mem_nil⟩

theorem wait (h : c.Reflects s) (time : Nat) :
    Reflects { c with clock := c.clock + time } { s with clock := s.clock + time } :=
  ⟨congrArg (· + time) h.clock, h.outline, h.resting⟩

/-- Where both registries drop sessions or references and keep the same outline. -/
theorem drop (h : c.Reflects s) {registry registry' : Registry State}
    (houtline : registry.outline = registry'.outline)
    (hsub : registry'.sessions.Sublist s.registry.sessions) :
    Reflects { c with registry } { s with registry := registry' } :=
  ⟨h.clock, houtline, fun y hy => h.resting y (hsub.subset hy)⟩

/-- Whoever acquires a key of the service acquires it there. -/
theorem acquire (h : c.Reflects s) (hc : Reached engine config c) (hs : s.Valid engine config)
    {key : String} (hacquire : s.acquire key = .ok (reference, s')) :
    ∃ c', Reached engine config c' ∧ c'.Reflects s' ∧ reference ∈ c'.registry.held := by
  obtain ⟨registry, hregistry, rfl⟩ := Service.exists_of_acquire hacquire
  rw [hs.engine, hs.config, ← h.clock] at hregistry
  obtain ⟨registry', hregistry', houtline⟩ := Registry.exists_acquire h.outline.symm hregistry
  have hstep : Step engine config c (.acquired reference) (c.enter reference registry') :=
    .acquire engine.newSession key hregistry'
  have hheld : reference ∈ registry'.held :=
    (hc.sound.secure.acquire hregistry').2 ▸ List.mem_cons_self
  suffices hresting : ∀ y ∈ registry.sessions,
      ∃ t, (c.enter reference registry').traffic y.reference = some t ∧ t.Resting y by
    have hentered : (c.enter reference registry').Reflects { s with registry } :=
      ⟨h.clock, houtline.symm, hresting⟩
    exact ⟨_, (hc.step hstep).step (.wait 1), hentered.wait 1, hheld⟩
  have hold : ∀ y ∈ s.registry.sessions,
      ∃ t, (c.enter reference registry').traffic y.reference = some t ∧ t.Resting y := by
    intro y hy
    obtain ⟨t, ht, hrest⟩ := h.resting y hy
    refine ⟨t, ?_, hrest⟩
    by_cases he : y.reference = reference
    · rw [he, traffic_enter_self, ← he, ht, Option.some_or]
    · rwa [traffic_enter_of_ne c he]
  rcases Registry.acquire_cases hregistry with ⟨x, hfind, -, rfl⟩ | ⟨hfind, state, hstate, he, rfl⟩
  · refine Registry.forall_mem_update hold ?_
    obtain ⟨t, ht, hrest⟩ := hold x (List.mem_of_find?_eq_some hfind)
    exact ⟨t, ht, hrest.touch c.clock⟩
  · intro y hy
    rcases List.mem_append.mp ((Registry.enforceCapacity_spec _ _).1.subset hy) with hy | hy
    · exact hold y hy
    · have hfind' : c.registry.find? key = none := by
        rw [← Option.map_eq_none_iff, ← Registry.find?_outline, h.outline, Registry.find?_outline,
          hfind, Option.map_none]
      have hmade : c.registry.made = s.registry.made := congrArg (·.made) h.outline
      have hacquire' : c.acquire config (.ok state) key = .ok (reference, registry') :=
        hstate ▸ hregistry'
      have hnew := hc.sound.traffic_enter_new hfind' hacquire'
      rw [List.mem_singleton.mp hy]
      refine ⟨_, ?_, Traffic.resting_ofSession rfl⟩
      rw [← hmade] at he ⊢
      exact he ▸ hnew

/-- Whoever evaluates in the service may evaluate there, and lets go of the session. -/
theorem evaluate (h : c.Reflects s) (hc : Reached engine config c) (hs : s.Valid engine config)
    (hengine : engine.Steady) (hheld : reference ∈ c.registry.held) {request : Request}
    {response : Response} {now : Instant}
    (hanswer : s.evaluate reference request s.clock = (some (response, now), s')) :
    ∃ c', Reached engine config c' ∧ c'.Reflects { s' with clock := now } := by
  unfold Service.evaluate at hanswer
  split at hanswer
  · cases hanswer
  next y hfind =>
  have hy : y ∈ s.registry.sessions := List.mem_of_find?_eq_some hfind
  have hreference : y.reference = reference := by
    have hidentity : y.identity = reference.identity := by simpa using List.find?_some hfind
    obtain ⟨z, hz, rfl⟩ := Registry.mem_references.mp
      (h.references_eq ▸ hc.sound.secure.held reference hheld)
    rw [hs.sound.eq_of_identity hz hy hidentity]
  subst hreference
  obtain ⟨t, ht, hrest⟩ := h.resting y hy
  rw [hs.engine, hs.config, ← h.clock] at hanswer
  obtain ⟨r, hr⟩ : ∃ r, r = Supervisor.run engine config.supervisor s.shared y request.code
    request.timeout c.clock := ⟨_, rfl⟩
  dsimp only at hanswer
  rw [← hr] at hanswer
  obtain ⟨houtcome', rfl⟩ := Prod.mk.inj hanswer
  obtain ⟨outcome, houtcome, he⟩ := Option.map_eq_some_iff.mp houtcome'
  obtain ⟨-, rfl⟩ := Prod.mk.inj he
  obtain ⟨hkey, hidentity, hlimit⟩ :=
    hr ▸ Supervisor.run_session engine config.supervisor s.shared y request.code request.timeout c.clock
  have hlast : r.session.lastUsed = r.now :=
    hr ▸ Supervisor.lastUsed_run _ _ _ _ _ _ _ (hr ▸ houtcome)
  have hsame : r.session.outline = (y.touch r.now).outline := by
    rw [Session.outline, hkey, hidentity, hlimit, hlast]
    rfl
  obtain ⟨u, hreached, hrest'⟩ := hc.exists_served hengine ht hrest hheld hr houtcome
  refine ⟨_, hreached, rfl, ?_, fun z hz => ?_⟩
  · have houtline : (c.registry.used y.identity r.now).outline =
        (s.registry.update r.session).outline := by
      rw [Registry.outline_used, h.outline, ← Registry.outline_used,
        ← hs.sound.outline_update hy hsame]
    exact congrArg (Registry.unhold · y.reference) houtline
  · obtain ⟨x, hx, rfl⟩ := List.mem_map.mp hz
    split
    · have hreference : r.session.reference = y.reference := by
        rw [Session.reference, hkey, hidentity, Session.reference]
      exact ⟨u, hreference ▸ Function.update_self .., hrest'⟩
    · next hne =>
        obtain ⟨v, hv, hrest⟩ := h.resting x hx
        have hother : x.reference ≠ y.reference := fun he =>
          hne (beq_iff_eq.mpr ((congrArg Reference.identity he).trans hidentity.symm))
        exact ⟨v, (Function.update_of_ne hother ..).trans hv, hrest⟩

theorem handle (h : c.Reflects s) (hc : Reached engine config c) (hs : s.Valid engine config)
    (hengine : engine.Steady) {request : Request} {response : Response}
    (hanswer : (s.handle request).1 = some response) :
    ∃ c', Reached engine config c' ∧ c'.Reflects (s.handle request).2 := by
  unfold Service.handle at hanswer ⊢
  split
  · exact ⟨c, hc, h⟩
  · next hblank =>
      rw [if_neg hblank] at hanswer
      split at hanswer
      · exact ⟨c, hc, h⟩
      · next reference t hacquire =>
          obtain ⟨c₁, hc₁, h₁, hheld⟩ := h.acquire hc hs hacquire
          split at hanswer
          · next response now t' hevaluate =>
              obtain ⟨c₂, hc₂, h₂⟩ := h₁.evaluate hc₁ (hs.acquire hacquire) hengine hheld hevaluate
              exact ⟨_, hc₂.step (.wait 1), h₂.wait 1⟩
          · cases hanswer

theorem hold (h : c.Reflects s) (hc : Reached engine config c) (hs : s.Valid engine config)
    {key : String} {same : Bool} (hhold : s.hold key = .ok (same, s')) :
    ∃ c', Reached engine config c' ∧ c'.Reflects s' := by
  rw [Service.hold] at hhold
  cases hacquire : s.acquire key with
  | error e =>
      rw [hacquire] at hhold
      cases hhold
  | ok result =>
      rw [hacquire] at hhold
      cases hhold
      obtain ⟨c', hc', h', -⟩ := h.acquire hc hs hacquire
      exact ⟨c', hc', h'⟩

theorem sweep (h : c.Reflects s) (hc : Reached engine config c) (hs : s.Valid engine config)
    (time : Nat) : ∃ c', Reached engine config c' ∧ c'.Reflects
      { s with
        registry := (s.registry.sweep s.config.registry (s.clock + time)).2
        clock := s.clock + time } := by
  have hsame : (c.registry.sweep config.registry (c.clock + time)).2.outline =
      (s.registry.sweep s.config.registry (s.clock + time)).2.outline := by
    rw [Registry.outline_sweep, h.outline, h.clock, hs.config, Registry.outline_sweep]
  exact ⟨_, (hc.step (.wait time)).step .sweep,
    (h.wait time).drop hsame (Registry.sweep_spec _ _ _).1⟩

theorem runSweeper (h : c.Reflects s) (hc : Reached engine config c) (hs : s.Valid engine config)
    (time : Nat) : ∃ c', Reached engine config c' ∧ c'.Reflects (s.runSweeper time).2 := by
  have hwait : ∃ c', Reached engine config c' ∧
      c'.Reflects { s with clock := s.clock + time * millisecond } :=
    ⟨_, hc.step (.wait _), h.wait _⟩
  unfold Service.runSweeper
  simp only
  split
  · exact hwait
  · split
    · exact hwait
    · obtain ⟨c', hc', h'⟩ := h.sweep hc hs
        (time / s.config.registry.sweepInterval * s.config.registry.sweepInterval * millisecond)
      -- The rest of the time is too short for another sweep.
      obtain ⟨rest, hrest⟩ := Nat.exists_eq_add_of_le
        (Nat.mul_le_mul_right millisecond (Nat.div_mul_le_self time s.config.registry.sweepInterval))
      rw [hrest, ← Nat.add_assoc]
      exact ⟨_, hc'.step (.wait rest), h'.wait rest⟩

/-- Letting one reference go after the other lets all under a key go. -/
theorem release (h : c.Reflects s) (hc : Reached engine config c) (key : String) :
    ∃ c', Reached engine config c' ∧ c'.Reflects (s.release key).2 := by
  generalize hcount : (s.registry.held.filter (·.key == key)).length = count
  induction count generalizing c s with
  | zero =>
      have hnone : s.registry.held.filter (·.key != key) = s.registry.held := by
        rw [List.filter_eq_self]
        rw [List.length_eq_zero_iff, List.filter_eq_nil_iff] at hcount
        simpa using hcount
      refine ⟨c, hc, ?_⟩
      rw [Service.release, Registry.release, hnone]
      exact h
  | succ count ih =>
      obtain ⟨reference, hmem⟩ := List.exists_mem_of_length_eq_add_one hcount
      obtain ⟨hheld, hkey⟩ := List.mem_filter.mp hmem
      obtain ⟨y, hy, rfl⟩ := Registry.mem_references.mp
        (h.references_eq ▸ hc.sound.secure.held reference (h.held_eq ▸ hheld))
      obtain ⟨t, ht, hrest⟩ := h.resting y hy
      have hspare : c.Spare y.reference := by
        rw [Spare, ht, Option.elim_some, hrest.requests_eq_zero, h.held_eq]
        exact List.count_pos_iff.mpr hheld
      have hunheld : Reflects { c with registry := c.registry.unhold y.reference }
          { s with registry := s.registry.unhold y.reference } :=
        h.drop (congrArg (Registry.unhold · y.reference) h.outline) (.refl _)
      have hfewer : ((s.registry.held.erase y.reference).filter (·.key == key)).length = count := by
        rw [← List.erase_filter, List.length_erase_of_mem hmem, hcount, Nat.add_sub_cancel]
      have hothers : (s.registry.held.erase y.reference).filter (·.key != key) =
          s.registry.held.filter (·.key != key) := by
        rw [← List.erase_filter, List.erase_of_not_mem]
        intro hother
        exact absurd (beq_iff_eq.mp hkey) (bne_iff_ne.mp (List.mem_filter.mp hother).2)
      obtain ⟨c', hc', h'⟩ := ih hunheld (hc.step (.release _ hspare)) hfewer
      refine ⟨c', hc', ?_⟩
      rw [Service.release, Registry.release, Registry.unhold] at h'
      rw [Service.release, Registry.release, ← hothers]
      exact h'

end Reflects

end Concourse

namespace Service

/-- A service that has answered what it was asked, one thing after the other. -/
inductive Sequential (engine : Engine Unit State) (config : DaemonConfig) : Service Unit State → Prop
  | start : Sequential engine config (.start engine config ())
  | handle {s : Service Unit State} {request : Request} {response : Response}
      (sequential : Sequential engine config s) (answered : (s.handle request).1 = some response) :
      Sequential engine config (s.handle request).2
  | hold {s t : Service Unit State} {key : String} {same : Bool} (sequential : Sequential engine config s)
      (held : s.hold key = .ok (same, t)) : Sequential engine config t
  | release {s : Service Unit State} (key : String) (sequential : Sequential engine config s) :
      Sequential engine config (s.release key).2
  | sweep {s : Service Unit State} (sequential : Sequential engine config s) :
      Sequential engine config s.sweep.2
  | runSweeper {s : Service Unit State} (time : Nat) (sequential : Sequential engine config s) :
      Sequential engine config (s.runSweeper time).2

theorem Sequential.reachable {s : Service Unit State} (h : Sequential engine config s) :
    Reachable engine config () s := by
  induction h with
  | start => exact .start
  | handle _ _ ih => exact ih.handle _
  | hold _ hheld ih => exact ih.hold _ hheld
  | release key _ ih => exact ih.release key
  | sweep _ ih => exact ih.sweep
  | runSweeper time _ ih => exact ih.runSweeper time

/-- Such a service is in a state that a service in use may come to. -/
theorem Sequential.exists_reached (hengine : engine.Steady) {s : Service Unit State}
    (h : Sequential engine config s) : ∃ c, Concourse.Reached engine config c ∧ c.Reflects s := by
  induction h with
  | start => exact ⟨.start, ⟨[], .nil⟩, .start engine config⟩
  | handle hsequential hanswered ih =>
      obtain ⟨c, hc, hreflects⟩ := ih
      exact hreflects.handle hc hsequential.reachable.valid hengine hanswered
  | hold hsequential hheld ih =>
      obtain ⟨c, hc, hreflects⟩ := ih
      exact hreflects.hold hc hsequential.reachable.valid hheld
  | release key _ ih =>
      obtain ⟨c, hc, hreflects⟩ := ih
      exact hreflects.release hc key
  | sweep hsequential ih =>
      obtain ⟨c, hc, hreflects⟩ := ih
      exact hreflects.sweep hc hsequential.reachable.valid 0
  | runSweeper time hsequential ih =>
      obtain ⟨c, hc, hreflects⟩ := ih
      exact hreflects.runSweeper hc hsequential.reachable.valid time

/-- In such a service, too, sessions that someone refers to are registered. -/
theorem Sequential.secure (hengine : engine.Steady) {s : Service Unit State}
    (h : Sequential engine config s) : s.registry.Secure := by
  obtain ⟨c, hc, hreflects⟩ := h.exists_reached hengine
  refine ⟨h.reachable.valid.sound, fun reference hheld => ?_⟩
  rw [← hreflects.references_eq]
  exact hc.sound.secure.held reference (hreflects.held_eq ▸ hheld)

end Service

end ReplDaemon
