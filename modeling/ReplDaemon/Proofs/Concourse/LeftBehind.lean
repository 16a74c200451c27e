import ReplDaemon.Proofs.Concourse.Capacity

/-!
# Workers that are left behind

A request whose grace period is over lets go of its session, but not its worker, which goes on in the slot.
The registry does not know of it. While the request is there the session stays; afterwards it is dropped
like any other one that nobody refers to, evaluating or not, and its key gets a session with another slot.
-/

namespace ReplDaemon

variable {Shared State : Type} {engine : Engine Shared State} {config : DaemonConfig}

namespace Concourse

variable {events : List Event} {event : Event} {s t : Concourse State} {reference : Reference}
  {x : Session State} {u : Traffic State} {number : Nat}

/-- It is a session's turn to go: a sweep finds that it has not been used for long enough, or one is made
that is too many, and there are not enough idle sessions that were used before it. -/
def Due (config : DaemonConfig) (s : Concourse State) (x : Session State) : Event → Prop
  | .swept => ∃ ttl, config.registry.idleTtl = some ttl ∧ ttl * millisecond ≤ s.clock - x.lastUsed
  | .acquired reference => ¬ s.Registered reference ∧
      (s.registry.idleBefore x.lastUsed).length < config.registry.surplus (s.registry.size + 1)
  | .refused _ _ | .released _ | .moved _ _ | .waited _ => False

/-- Whoever acquires the key of a session gets this session and meets what happens in it. -/
def Meets (config : DaemonConfig) (s : Concourse State) (reference : Reference) : Prop :=
  ∀ newSession, ∃ registry,
    s.acquire config newSession reference.key = .ok (reference, registry) ∧
      (s.enter reference registry).traffic reference = s.traffic reference

/-- The reference to a session that is made names none that is registered. -/
theorem Sound.not_registered (h : s.Sound) (key : String) :
    ¬ s.Registered ⟨key, s.registry.made⟩ :=
  fun hmem => absurd (h.secure.sound.identity_lt hmem) (Nat.lt_irrefl _)

/-- A session is still registered after a step if it is in use or it is not its turn to go. -/
theorem Step.registered_iff (h : Step engine config s event t) (hs : s.Sound)
    (hdistinct : (s.registry.idle.map (·.lastUsed)).Nodup) (hx : x ∈ s.registry.sessions) :
    t.Registered x.reference ↔ s.InUse x.reference ∨ ¬ s.Due config x event := by
  have hregistered : s.Registered x.reference := Registry.mem_references_of_mem hx
  have hidle : s.registry.isIdle x = true ↔ ¬ s.InUse x.reference := by
    rw [hs.secure.isIdle_iff hx, hs.inUse_iff]
  cases h with
  | acquire newSession key hacquire =>
      rcases Registry.acquire_cases hacquire with ⟨y, hfind, rfl, rfl⟩ | ⟨hfind, state, hstate, rfl, -⟩
      · have hy : y ∈ s.registry.sessions := List.mem_of_find?_eq_some hfind
        have hkey : y.key = key := by simpa using List.find?_some hfind
        have hfound : s.Registered ⟨key, y.identity⟩ := hkey ▸ Registry.mem_references_of_mem hy
        refine iff_of_true ?_ (.inr fun hdue => hdue.1 hfound)
        rwa [Registered, enter, hs.secure.sound.references_reused hy]
      · obtain ⟨registry', hacquire', hdrops⟩ := hs.acquire_new hfind config state
        rw [← hstate, hacquire] at hacquire'
        cases hacquire'
        have hx' : x ∈ (s.crowded config state key).sessions := List.mem_append_left _ hx
        have hsound := hs.crowded hfind config state
        have hsame : (s.crowded config state key).idle = s.registry.idle :=
          Registry.idle_extend hs.secure.sound state _ key s.clock
        rw [← not_iff_not, not_or, not_not, ← hidle, Due, and_iff_right (hs.not_registered key),
          ← Registry.givesWay_extend_iff hs.secure.sound hx]
        exact (not_congr (hsound.mem_references_iff hdrops.sublist hx')).trans
          (hdrops.not_mem_iff hsound (hsame.symm ▸ hdistinct) hx')
  | sweep =>
      refine (hs.secure.sound.mem_references_iff (Registry.sweep_spec _ _ _).1 hx).trans ?_
      rw [Registry.mem_sweep hx, ← Bool.not_eq_true, hidle, not_not, Due]
      simp
  | move => exact iff_of_true (registered_proceed.mpr hregistered) (.inr id)
  | refuse | release | wait => exact iff_of_true hregistered (.inr id)

/-- Who is inside an evaluation belongs to a session in use, or has been left behind. -/
theorem Run.inUse_or_left (h : Run engine config events s) (hu : s.traffic reference = some u)
    (hevaluates : u.Evaluates number) :
    s.InUse reference ∨ .moved reference (.answered number .probablyTimedOut) ∈ events := by
  obtain ⟨w, part, hw, hphase⟩ := hevaluates
  have hrun := h.traffic_run reference
  rw [hu] at hrun
  obtain ⟨session, hrun⟩ := hrun
  rcases hrun.left_behind hw (fun ending hdone => by cases hphase.symm.trans hdone) with
    ⟨turn, hturn, -⟩ | hleft
  · exact .inl (.inr ⟨u, hu, by rw [hturn, Option.isSome_some]⟩)
  · exact .inr (mem_of_mem_moves hleft)

/-- A session that has been made has traffic ever after. -/
theorem Step.isSome_traffic (h : Step engine config s event t)
    (hs : (s.traffic reference).isSome = true) : (t.traffic reference).isSome = true := by
  cases h with
  | @acquire _ _ acquired registry =>
      by_cases he : reference = acquired
      · rw [he, traffic_enter_self, Option.isSome_or, ← he, hs, Bool.true_or]
      · rwa [traffic_enter_of_ne s he]
  | @move moved _ _ _ =>
      by_cases he : reference = moved
      · rw [he, traffic_proceed_self, Option.isSome_some]
      · rwa [traffic_proceed_of_ne s he]
  | refuse | release | sweep | wait => exact hs

/-- One meets the sessions that are registered. -/
theorem Sound.meets (h : s.Sound) (htraffic : (s.traffic reference).isSome = true)
    (hregistered : s.Registered reference) : s.Meets config reference := by
  intro newSession
  obtain ⟨y, hy, rfl⟩ := Registry.mem_references.mp hregistered
  refine ⟨_, h.secure.acquire_eq hy _ newSession _ _, ?_⟩
  rw [traffic_enter_self]
  exact Option.or_of_isSome htraffic

/-- After a step the registered sessions are some of those that were, and perhaps one that is made for a key
that had none. -/
theorem Step.registered_of_registered (h : Step engine config s event t) (hs : s.Sound)
    (hregistered : t.Registered reference) :
    s.Registered reference ∨ s.registry.find? reference.key = none := by
  cases h with
  | acquire newSession key hacquire =>
      rcases Registry.acquire_cases hacquire with ⟨y, hfind, -, rfl⟩ | ⟨hfind, state, -, -, rfl⟩
      · rw [Registered, enter, hs.secure.sound.references_reused (List.mem_of_find?_eq_some hfind)]
          at hregistered
        exact .inl hregistered
      · obtain ⟨y, hy, rfl⟩ := Registry.mem_references.mp hregistered
        rcases List.mem_append.mp ((Registry.enforceCapacity_spec _ _).1.subset hy) with hy | hy
        · exact .inl (Registry.mem_references_of_mem hy)
        · rw [List.mem_singleton.mp hy]
          exact .inr hfind
  | move => exact .inl (registered_proceed.mp hregistered)
  | sweep => exact .inl ((Registry.sweep_spec _ _ _).1.map _ |>.subset hregistered)
  | refuse | release | wait => exact .inl hregistered

/-- The key of a session that is dropped has none afterwards. -/
theorem Step.find?_eq_none (h : Step engine config s event t) (hs : s.Sound)
    (hx : x ∈ s.registry.sessions) (hdropped : ¬ t.Registered x.reference) :
    t.registry.find? x.key = none := by
  have hfind := hs.secure.sound.find? hx
  rw [Registry.find?, List.find?_eq_none]
  intro y hy hkey
  have hkey : y.key = x.key := by simpa using hkey
  rcases h.registered_of_registered hs (Registry.mem_references_of_mem hy) with hmem | hnone
  · obtain ⟨z, hz, he⟩ := Registry.mem_references.mp hmem
    have hfind' := hs.secure.sound.find? hz
    rw [show z.key = x.key from (congrArg Reference.key he).trans hkey, hfind] at hfind'
    rw [Option.some.inj hfind', he] at hdropped
    exact hdropped (Registry.mem_references_of_mem hy)
  · rw [show y.reference.key = x.key from hkey, hfind] at hnone
    cases hnone

/-- What becomes of a session at an event, while a worker is inside an evaluation in it. -/
structure Fate (config : DaemonConfig) (events : List Event) (s : Concourse State)
    (x : Session State) (number : Nat) (event : Event) (t : Concourse State) : Prop where
  /-- The session is in use, or the request has been answered without waiting for the worker. -/
  inUse_or_left : s.InUse x.reference ∨
    .moved x.reference (.answered number .probablyTimedOut) ∈ events
  /-- It stays if it is in use or not its turn to go, whether it evaluates or not. -/
  registered_iff : t.Registered x.reference ↔ s.InUse x.reference ∨ ¬ s.Due config x event
  /-- If it stays, whoever asks for its key meets the evaluation. -/
  meets : t.Registered x.reference → t.Meets config x.reference
  /-- If not, its key gets a session in which nothing has happened. -/
  replaced : ¬ t.Registered x.reference → ∀ state, ∃ registry,
    t.acquire config (.ok state) x.key = .ok (⟨x.key, t.registry.made⟩, registry) ∧
      (t.enter ⟨x.key, t.registry.made⟩ registry).traffic ⟨x.key, t.registry.made⟩ =
        some (.ofSession
          (.new x.key t.registry.made state config.supervisor.maxOutputBytes t.clock))

/-- While the request of an evaluation has not been answered, or anyone else refers to the session, the
session stays, and so it does until it is its turn to go. Whoever asks for its key meets the evaluation
that long, and no longer. -/
theorem Run.evaluating_fate (h : Run engine config events s)
    (hdistinct : (s.registry.idle.map (·.lastUsed)).Nodup) (hx : x ∈ s.registry.sessions)
    (hu : s.traffic x.reference = some u) (hevaluates : u.Evaluates number)
    (hstep : Step engine config s event t) : Fate config events s x number event t where
  inUse_or_left := h.inUse_or_left hu hevaluates
  registered_iff := hstep.registered_iff h.sound hdistinct hx
  meets := by
    have hsome : (t.traffic x.reference).isSome = true :=
      hstep.isSome_traffic (by rw [hu, Option.isSome_some])
    exact (hstep.sound h.sound).meets hsome
  replaced hdropped state := by
    have hnone := hstep.find?_eq_none h.sound hx hdropped
    obtain ⟨registry, hacquire, -⟩ := (hstep.sound h.sound).acquire_new hnone config state
    exact ⟨registry, hacquire, (hstep.sound h.sound).traffic_enter_new hnone hacquire⟩

/-- A request that is answered while its worker is still inside the evaluation. -/
def leftBehind : List Event :=
  [.acquired ⟨"a", 0⟩, .moved ⟨"a", 0⟩ (.arrived 0), .moved ⟨"a", 0⟩ (.served 0),
    .moved ⟨"a", 0⟩ (.worked 0 .acquired), .moved ⟨"a", 0⟩ (.worked 0 .admitted),
    .moved ⟨"a", 0⟩ (.worked 0 (.called .source "block(400);")), .moved ⟨"a", 0⟩ (.cancelled 0),
    .moved ⟨"a", 0⟩ (.answered 0 .probablyTimedOut)]

/-- Settings with which a session goes soon. -/
def scarce : DaemonConfig :=
  { registry := { maxSessions := some 1, idleTtl := some 5 } }

/-- The session in which a worker is left behind. -/
def leftSession : Session Script.Bindings :=
  .new "a" 0 .empty scarce.supervisor.maxOutputBytes 0

theorem exists_leftBehind :
    ∃ s u, Run (Script.engine []) scarce leftBehind s ∧
      s.registry = { sessions := [leftSession], held := [], made := 1 } ∧ s.clock = 0 ∧
      s.traffic leftSession.reference = some u ∧ u.Evaluates 0 := by
  have hstart : Run (Script.engine []) scarce [] _ := .nil
  have hserved := ((hstart.snoc (.acquire (.ok .empty) "a" rfl)).snoc
    (.move ⟨"a", 0⟩ rfl (.arrive "block(400);" 40) fun _ _ => by decide)).snoc
    (.move ⟨"a", 0⟩ rfl (.serve rfl rfl rfl) nofun)
  have hcalled := ((hserved.snoc (.move ⟨"a", 0⟩ rfl (.work 0 rfl (.acquire rfl rfl)) nofun)).snoc
    (.move ⟨"a", 0⟩ rfl (.work 0 rfl (.pass rfl rfl)) nofun)).snoc
    (.move ⟨"a", 0⟩ rfl (.work 0 rfl (.callSource rfl (.inr rfl))) nofun)
  have hleft := (hcalled.snoc (.move ⟨"a", 0⟩ rfl (.cancel rfl rfl rfl rfl) nofun)).snoc
    (.move ⟨"a", 0⟩ rfl (.abandon rfl rfl) nofun)
  exact ⟨_, _, hleft, rfl, rfl, rfl, _, .source, rfl, rfl⟩

/-- A sweep that comes at once leaves the session, with the evaluation in it. -/
theorem evaluating_fate_swept :
    ∃ s t, Run (Script.engine []) scarce leftBehind s ∧
      Step (Script.engine []) scarce s .swept t ∧ t.Meets scarce leftSession.reference := by
  obtain ⟨s, u, hrun, hregistry, hclock, hu, hevaluates⟩ := exists_leftBehind
  have hmem : leftSession ∈ s.registry.sessions := hregistry ▸ List.mem_cons_self
  have hdistinct : (s.registry.idle.map (·.lastUsed)).Nodup := by
    rw [hregistry]
    exact List.nodup_singleton _
  have hdue : ¬ s.Due scarce leftSession .swept := by
    rintro ⟨ttl, httl, hunused⟩
    cases httl
    rw [hclock] at hunused
    exact absurd hunused (by decide)
  have hstep : Step (Script.engine []) scarce s .swept _ := .sweep
  have hfate := hrun.evaluating_fate hdistinct hmem hu hevaluates hstep
  exact ⟨s, _, hrun, hstep, hfate.meets (hfate.registered_iff.mpr (.inr hdue))⟩

/-- A session whose evaluation goes on is dropped where another one is made, and by a sweep. -/
theorem evaluating_session_dropped :
    ∃ s u, Run (Script.engine []) scarce leftBehind s ∧ s.Registered leftSession.reference ∧
      s.traffic leftSession.reference = some u ∧ u.Evaluates 0 ∧
      (∃ t, Run (Script.engine []) scarce (leftBehind ++ [.acquired ⟨"b", 1⟩]) t ∧
        t.traffic leftSession.reference = some u ∧ ¬ t.Registered leftSession.reference) ∧
      ∃ t, Run (Script.engine []) scarce (leftBehind ++ [.waited (5 * millisecond)] ++ [.swept]) t ∧
        t.traffic leftSession.reference = some u ∧ ¬ t.Registered leftSession.reference := by
  obtain ⟨s, u, hrun, hregistry, hclock, hu, hevaluates⟩ := exists_leftBehind
  have hacquire : s.acquire scarce (.ok .empty) "b" = .ok (⟨"b", 1⟩,
      { sessions := [.new "b" 1 .empty scarce.supervisor.maxOutputBytes 0], held := [⟨"b", 1⟩],
        made := 2 }) := by
    rw [acquire, hregistry, hclock]
    rfl
  have hswept : (s.registry.sweep scarce.registry (s.clock + 5 * millisecond)).2.references = [] := by
    rw [hregistry, hclock]
    rfl
  refine ⟨s, u, hrun, ?_, hu, hevaluates, ⟨_, hrun.snoc (.acquire _ _ hacquire), ?_, ?_⟩,
    _, (hrun.snoc (.wait (5 * millisecond))).snoc .sweep, hu, ?_⟩
  · rw [Registered, hregistry]
    exact List.mem_cons_self
  · rwa [traffic_enter_of_ne s (by decide)]
  · have hother : leftSession.reference ∉ [(⟨"b", 1⟩ : Reference)] := by decide
    exact hother
  · rw [Registered, hswept]
    exact List.not_mem_nil

end Concourse

end ReplDaemon
