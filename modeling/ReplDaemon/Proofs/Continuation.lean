import Mathlib
import ReplDaemon.Proofs.Capture
import ReplDaemon.Proofs.Service

/-!
# Sources in chunks

A source may be sent in chunks: as long as each of them is answered by the request to continue, the
last one is answered like the whole source sent at once, and leaves the same variables and the same
pending source. Blank requests in between change nothing.
-/

namespace ReplDaemon

namespace Session

theorem joinChunks_append {chunks : List String} (h : chunks ≠ []) (chunk : String) :
    joinChunks (chunks ++ [chunk]) = joinChunks chunks ++ "\n" ++ chunk := by
  rw [joinChunks, joinChunks, String.intercalate_append_of_ne_nil h (by simp),
    String.intercalate_singleton]

/-- Chunks may be joined in advance. -/
theorem joinChunks_joinChunks (pending : List String) {chunks : List String} (h : chunks ≠ []) :
    joinChunks (pending ++ [joinChunks chunks]) = joinChunks (pending ++ chunks) := by
  by_cases hpending : pending = []
  · rw [hpending]
    exact String.intercalate_singleton
  · rw [joinChunks_append hpending, joinChunks, joinChunks, joinChunks,
      String.intercalate_append_of_ne_nil hpending h]

/-- A source is not blank if its last chunk is not. -/
theorem isBlankText_joinChunks {chunks : List String} {chunk : String}
    (h : Text.isBlankText chunk = false) :
    Text.isBlankText (joinChunks (chunks ++ [chunk])) = false := by
  by_cases hchunks : chunks = []
  · rw [hchunks]
    exact (congrArg _ String.intercalate_singleton).trans h
  · rw [joinChunks_append hchunks, Text.isBlankText_append, h, Bool.and_false]

end Session

namespace Service

variable {State : Type}

/-- Whether a request times out, as far as its answer tells. -/
def TimedOut (answer : Option Response) : Prop :=
  answer = some (responseOf .timedOut) ∨ answer = some (responseOf .probablyTimedOut)

/-- The state of the session that a key means, if there is such a session: on the script engine, its
variables. -/
def state? (s : Service Unit State) (key : String) : Option State :=
  (s.registry.find? (s.keyOf key)).map (·.slot.state)

/-- The source that is pending in the session that a key means, if there is such a session. -/
def pendingSource? (s : Service Unit State) (key : String) : Option String :=
  (s.pending? key).map Session.joinChunks

/-- The chunks are sent to a key one after the other, each is answered by the request to continue, and
there may be blank requests to any key around them. -/
inductive Continued (key : String) : Service Unit State → List String → Service Unit State → Prop
  | done (s : Service Unit State) : Continued key s [] s
  | blank {s t : Service Unit State} {chunks : List String} (request : Request)
      (blank : Text.isBlankText request.code = true)
      (rest : Continued key (s.handle request).2 chunks t) : Continued key s chunks t
  | chunk {s t : Service Unit State} {chunks : List String} (request : Request)
      (solid : Text.isBlankText request.code = false) (toKey : s.keyOf request.key = s.keyOf key)
      (continues : (s.handle request).1 = some (responseOf .continues))
      (rest : Continued key (s.handle request).2 chunks t) :
      Continued key s (request.code :: chunks) t

theorem responseOf_continues {o : Outcome} (h : responseOf o = responseOf .continues)
    (hinternal : ∀ text : String, o = .internal text → '\n' ∈ text.toList) : o = .continues := by
  cases o with
  | continues => rfl
  | internal text =>
      have htext : text = continueMarker := congrArg Response.text h
      have hmem := hinternal text rfl
      rw [htext] at hmem
      exact absurd hmem (by decide)
  | output text | failed text =>
      have hsuccess : true = false := congrArg Response.success h
      cases hsuccess
  | timedOut => exact absurd (congrArg Response.text h) (by decide)
  | probablyTimedOut => exact absurd (congrArg Response.text h) (by decide)

/-- The text of a breakdown ends a line. -/
theorem newline_mem_of_settle {ending : Ending} {output : Capture} {pending : List String}
    {text : String}
    (h : (Supervisor.settle ending output pending).map Prod.fst = some (.internal text)) :
    '\n' ∈ text.toList := by
  rcases ending with (_ | (_ | _) | _ | _) | message | _ <;>
    simp only [Supervisor.settle, Option.map_some, Option.map_none, Option.some.injEq,
      Outcome.internal.injEq, reduceCtorEq] at h
  rw [← h]
  exact Capture.newline_mem_shown_writeLine _ _

/-- The session that serves a key. -/
def servedBy (s : Service Unit State) (state : State) (key : String) : Session State :=
  s.registry.sessionFor state s.config.supervisor.maxOutputBytes (s.keyOf key) s.clock

/-- What a request to the key does that is served by its session. -/
structure Served (s : Service Unit State) (state : State) (key : String) (request : Request)
    (r : Supervisor.Result Unit State) : Prop where
  serves : Supervisor.Serves s.engine s.config.supervisor (s.servedBy state key) request.code r
  answer : (s.handle request).1 = r.outcome.map responseOf
  found : (s.handle request).2.registry.find? (s.keyOf key) = some r.session
  limit : r.session.outputLimit = (s.servedBy state key).outputLimit

/-- A request that does not time out is served. -/
theorem exists_served {s : Service Unit State} (hengine : s.engine.Steady)
    (hsound : s.registry.Sound) {state : State} (hnew : s.engine.newSession = .ok state)
    {key : String} {request : Request} (hkey : s.keyOf request.key = s.keyOf key)
    (hblank : Text.isBlankText request.code = false) (htime : ¬ TimedOut (s.handle request).1) :
    ∃ r : Supervisor.Result Unit State, s.Served state key request r := by
  obtain ⟨hanswer, hfound, _⟩ := handle_spec hsound hnew hblank rfl
  rw [hkey] at hanswer hfound
  rw [hanswer] at htime
  refine ⟨_, Supervisor.run_serves hengine (s.servedBy state key) request.code request.timeout
    (s.clock + 1) (fun h => htime (.inl ?_)) (fun h => htime (.inr ?_)), hanswer, hfound,
    (Supervisor.run_session _ _ _ _ _ _ _).2.2⟩
  · exact congrArg (Option.map responseOf) h
  · exact congrArg (Option.map responseOf) h

/-- A request that is answered by the request to continue has that outcome. -/
theorem Served.continues {s : Service Unit State} {state : State} {key : String}
    {request : Request} {r : Supervisor.Result Unit State} (h : s.Served state key request r)
    (hcontinues : (s.handle request).1 = some (responseOf .continues)) :
    r.outcome = some .continues := by
  have hanswer := h.answer
  rw [hcontinues] at hanswer
  cases hserves : h.serves with
  | stuck _ outcome => simp [outcome] at hanswer
  | done _ _ _ _ _ _ _ outcome =>
      cases ho : r.outcome with
      | none => simp [ho] at hanswer
      | some o =>
          rw [ho, Option.map_some, Option.some.injEq] at hanswer
          rw [ho] at outcome
          refine congrArg some (responseOf_continues hanswer.symm fun text htext => ?_)
          rw [htext] at outcome
          exact newline_mem_of_settle outcome.symm

/-- The service `t` has come from `s` by chunks that are still pending: its session for the key differs
from the one before by those chunks and by a slot that follows the slot before. -/
structure Extends (s t : Service Unit State) (state : State) (key : String)
    (chunks : List String) : Prop where
  valid : t.Valid s.engine s.config
  pending : (t.servedBy state key).pending = (s.servedBy state key).pending ++ chunks
  limit : (t.servedBy state key).outputLimit = (s.servedBy state key).outputLimit
  follows : Supervisor.Follows s.engine s.config.supervisor (s.servedBy state key).outputLimit
    (s.servedBy state key).slot (t.servedBy state key).slot

theorem servedBy_of_find? {s : Service Unit State} {state : State} {key : String}
    {session : Session State} (h : s.registry.find? (s.keyOf key) = some session) :
    s.servedBy state key = session.touch s.clock := by
  unfold servedBy Registry.sessionFor
  rw [h]

namespace Valid

variable {engine : Engine Unit State} {config : DaemonConfig} {s t : Service Unit State}

theorem keyOf (h : s.Valid engine config) (h' : t.Valid engine config) (key : String) :
    t.keyOf key = s.keyOf key := by
  unfold Service.keyOf
  rw [h.config, h'.config]

end Valid

/-- One more chunk is pending after a request to continue. -/
theorem Extends.chunk {s t : Service Unit State} (hengine : s.engine.Steady) {state : State}
    (hnew : s.engine.newSession = .ok state) {key : String} {chunks : List String}
    (h : s.Extends t state key chunks) {request : Request}
    (hsolid : Text.isBlankText request.code = false) (hkey : t.keyOf request.key = t.keyOf key)
    (hcontinues : (t.handle request).1 = some (responseOf .continues)) :
    s.Extends (t.handle request).2 state key (chunks ++ [request.code]) := by
  have htime : ¬ TimedOut (t.handle request).1 := by
    rw [hcontinues]
    unfold TimedOut
    decide
  rw [← h.valid.engine] at hengine hnew
  obtain ⟨r, hserved⟩ := exists_served hengine h.valid.sound hnew hkey hsolid htime
  have hserves := hserved.serves
  have hvalid := h.valid.handle request
  have hfound := hserved.found
  rw [← h.valid.keyOf hvalid key] at hfound
  have hfollows := h.follows
  rw [← h.limit, ← h.valid.engine, ← h.valid.config] at hfollows
  obtain ⟨hpending, hslot⟩ := hserves.continues hengine hfollows (hserved.continues hcontinues)
  rw [h.limit, h.valid.engine, h.valid.config] at hslot
  refine ⟨hvalid, ?_, ?_, ?_⟩
  · rw [servedBy_of_find? hfound]
    change r.session.pending = _
    rw [hpending, h.pending, List.append_assoc]
  · rw [servedBy_of_find? hfound]
    exact hserved.limit.trans h.limit
  · rw [servedBy_of_find? hfound]
    exact hslot

/-- Chunks that are all answered by the request to continue stay pending, and nothing else happens. -/
theorem Continued.extends {s t u : Service Unit State} (hengine : s.engine.Steady) {state : State}
    (hnew : s.engine.newSession = .ok state) {key : String} {before chunks : List String}
    (h : s.Extends t state key before) (hchunks : Continued key t chunks u) :
    s.Extends u state key (before ++ chunks) := by
  induction hchunks generalizing before with
  | done t =>
      rw [List.append_nil]
      exact h
  | blank request hblank rest ih =>
      rw [handle_of_blank _ hblank] at ih
      exact ih h
  | chunk request hsolid hkey hcontinues rest ih =>
      have hrest := ih (h.chunk hengine hnew hsolid hkey hcontinues)
      rwa [List.append_assoc] at hrest

/-- A source sent in chunks is answered like the source sent at once, whatever is pending already and
wherever there are blank requests between the chunks, if only no request times out. -/
theorem handle_split {prelude : List String} {config : DaemonConfig}
    {s t : Service Unit Script.Bindings} {key : String} {chunks : List String}
    {last whole : Request} (hreachable : Reachable (Script.engine prelude) config ⟨⟩ s)
    (hchunks : Continued key s chunks t) (hlast : Text.isBlankText last.code = false)
    (hlastKey : s.keyOf last.key = s.keyOf key) (hwholeKey : s.keyOf whole.key = s.keyOf key)
    (hwhole : whole.code = Session.joinChunks (chunks ++ [last.code]))
    (htime : ¬ TimedOut (t.handle last).1) (htime' : ¬ TimedOut (s.handle whole).1) :
    (t.handle last).1 = (s.handle whole).1 ∧
      (t.handle last).2.state? key = (s.handle whole).2.state? key ∧
      (t.handle last).2.pendingSource? key = (s.handle whole).2.pendingSource? key := by
  have hvalid := hreachable.valid
  have hengine : s.engine.Steady := by
    rw [hvalid.engine]
    exact Script.steady_engine prelude
  have hnew : s.engine.newSession = .ok Script.Bindings.empty := by
    rw [hvalid.engine]
    rfl
  have hself : s.Extends s Script.Bindings.empty key [] :=
    ⟨⟨rfl, rfl, hvalid.sound⟩, (List.append_nil _).symm, rfl, .same rfl rfl rfl⟩
  have hextends := hchunks.extends hengine hnew hself
  rw [List.nil_append] at hextends
  have hkeys := hself.valid.keyOf hextends.valid
  have hsolid : Text.isBlankText whole.code = false := by
    rw [hwhole]
    exact Session.isBlankText_joinChunks hlast
  obtain ⟨r, hserved⟩ := exists_served hengine hvalid.sound hnew hwholeKey hsolid htime'
  have hlastKey' : t.keyOf last.key = t.keyOf key := by rw [hkeys, hkeys, hlastKey]
  obtain ⟨r', hserved'⟩ := exists_served (by rwa [hextends.valid.engine]) hextends.valid.sound
    (by rwa [hextends.valid.engine]) hlastKey' hlast htime
  have hserves' := hserved'.serves
  rw [hextends.valid.engine, hextends.valid.config] at hserves'
  have hjoin : Session.joinChunks ((t.servedBy Script.Bindings.empty key).pending ++ [last.code]) =
      Session.joinChunks ((s.servedBy Script.Bindings.empty key).pending ++ [whole.code]) := by
    rw [hwhole, Session.joinChunks_joinChunks _ (by simp), hextends.pending, List.append_assoc]
  obtain ⟨houtcome, hstate, hpending⟩ := hserved.serves.agrees hengine hserves' hextends.follows
    hextends.limit hjoin
  have hfound : (s.handle whole).2.registry.find? ((s.handle whole).2.keyOf key) =
      some r.session := by
    rw [hself.valid.keyOf (hself.valid.handle whole)]
    exact hserved.found
  have hfound' : (t.handle last).2.registry.find? ((t.handle last).2.keyOf key) =
      some r'.session := by
    rw [hextends.valid.keyOf (hextends.valid.handle last)]
    exact hserved'.found
  refine ⟨?_, ?_, ?_⟩
  · rw [hserved.answer, hserved'.answer, houtcome]
  · simp only [state?, hfound, hfound', Option.map_some, hstate]
  · simp only [pendingSource?, pending?, hfound, hfound', Option.map_some, hpending]

/-- A service without a prelude, before its first request. -/
def bare : Service Unit Script.Bindings :=
  .start (Script.engine []) {} ⟨⟩

set_option maxRecDepth 20000 in
theorem handle_split_sum :
    (bare.handle (ask "1 +\n2")).1 = some { success := true, text := "3" } ∧
      (((bare.handle (ask "1 +")).2.handle (ask " ")).2.handle (ask "2")).1 =
        (bare.handle (ask "1 +\n2")).1 := by
  have hwhole : (bare.handle (ask "1 +\n2")).1 = some { success := true, text := "3" } := by cbv
  have hlast : (((bare.handle (ask "1 +")).2.handle (ask " ")).2.handle (ask "2")).1 =
      some { success := true, text := "3" } := by cbv
  have hchunks : Continued "k" bare ["1 +"] ((bare.handle (ask "1 +")).2.handle (ask " ")).2 :=
    .chunk (ask "1 +") rfl rfl (by cbv) (.blank (ask " ") rfl (.done _))
  have htime (answer : Option Response) (h : answer = some { success := true, text := "3" }) :
      ¬ TimedOut answer := by
    rw [h, TimedOut]
    decide
  have hsolid : Text.isBlankText (ask "2").code = false := rfl
  have hcode : (ask "1 +\n2").code = Session.joinChunks (["1 +"] ++ [(ask "2").code]) := rfl
  exact ⟨hwhole, (handle_split .start hchunks hsolid rfl rfl hcode (htime _ hlast)
    (htime _ hwhole)).1⟩

end Service

end ReplDaemon
