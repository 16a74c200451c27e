import Mathlib.Data.List.Chain
import ReplDaemon.Proofs.Exchange
import ReplDaemon.Proofs.Markers
import ReplDaemon.Proofs.Supervisor.Undecided

/-!
# What the prompt tells

The prompt of an interactive session only follows the responses, and these only say what has become of a
line: whether it is to be continued. So the prompt tells whether something is pending as long as lines
change what is pending. A blank line does not, and neither does one that times out where the policy is to
preserve what is pending; behind these the prompt is that for a new statement, whatever is pending.
-/

namespace ReplDaemon

open Text

namespace Service

variable {Shared State : Type}

/-- The chunks that are pending for a key: none if it has no session. -/
def pendingFor (s : Service Shared State) (key : String) : List String :=
  (s.pending? key).getD []

/-- The legacy protocol loses the key, but has one session only. -/
theorem pendingFor_received {s : Service Shared State} {p : Protocol} (h : s.config.protocol = p)
    (r : Request) : s.pendingFor (r.received p).key = s.pendingFor r.key := by
  unfold pendingFor pending? keyOf
  rw [h]
  cases p <;> rfl

theorem pending_sessionFor (s : Service Shared State) (key : String) (state : State)
    (outputLimit : Nat) (now : Instant) :
    (s.registry.sessionFor state outputLimit (s.keyOf key) now).pending = s.pendingFor key := by
  unfold pendingFor pending? Registry.sessionFor
  cases s.registry.find? (s.keyOf key) <;> rfl

end Service

namespace Prompt

/-- Whether a line that is answered like this leaves what is pending as it is: it is blank, or it has
timed out and what was pending before is preserved. -/
def isIdle (policy : TimeoutPolicy) (code : String) (response : Response) : Bool :=
  isBlankText code || policy = .preserve &&
    (response.text == timedOutMarker || response.text == probablyTimedOutMarker)

/-- What a response to a line tells about what is pending behind it. -/
structure Tells (policy : TimeoutPolicy) (code : String) (response : Response)
    (before after : List String) : Prop where
  continues : isContinuation response = true ↔ after ≠ [] ∧ isIdle policy code response = false
  idle : isIdle policy code response = true → after = before

/-- Only the text of a response counts. -/
theorem Tells.received {policy : TimeoutPolicy} {code : String} {response : Response}
    {before after : List String} (h : Tells policy code response before after) (p : Protocol) :
    Tells policy code (Frame.received p response) before after :=
  ⟨h.continues, h.idle⟩

/-- Where no text is taken for a marker, the response to a line tells what has become of it. -/
theorem tells_responseOf {policy : TimeoutPolicy} {code : String} {o : Outcome}
    (hmarked : Service.Marked (some o) (Service.responseOf o)) (hblank : isBlankText code = false)
    (pending : List String) :
    Tells policy code (Service.responseOf o) pending
      (Supervisor.pendingAfter policy pending ⟨code, o⟩) := by
  have hidle : isIdle policy code (Service.responseOf o) = policy.skips o := by
    have htimedOut := hmarked.timedOut
    have hprobablyTimedOut := hmarked.probablyTimedOut
    rw [isIdle, hblank, Bool.false_or, TimeoutPolicy.skips, Bool.eq_iff_iff]
    cases o <;> simp_all [Outcome.isTimeout]
  have hcontinues := hmarked.prompted
  rw [Option.some.injEq] at hcontinues
  constructor
  · rw [hcontinues, hidle]
    cases hskips : policy.skips o with
    | true =>
        have hne : o ≠ .continues := by
          rintro rfl
          simp [TimeoutPolicy.skips, Outcome.isTimeout] at hskips
        exact ⟨fun he => absurd he hne, fun hbusy => absurd hbusy.2 (by decide)⟩
    | false =>
        rw [Supervisor.pendingAfter, if_neg (by simp [hskips])]
        by_cases he : o = .continues
        · simp [he]
        · simp [he]
  · rw [hidle]
    exact fun hskips => if_pos hskips

end Prompt

namespace Service

open Prompt

/-- The outcome of a turn on the script engine is told apart from all others. -/
theorem marked_of_run {prelude : List String} {config : SupervisorConfig}
    {session : Session Script.Bindings} (hreached : Script.Reached session.slot.state)
    {chunk : String} {timeout : UInt32} {now : Instant} {o : Outcome}
    (h : (Supervisor.run (Script.engine prelude) config ⟨⟩ session chunk timeout now).outcome =
      some o) : Marked (some o) (responseOf o) := by
  cases hown : o.isOwn with
  | true =>
      refine marked_of_not_isMarker (Supervisor.distinct_of_run hreached h hown).not_isMarker ?_
      rintro _ ⟨⟩
      exact hown
  | false => exact marked_of_not_isOwn hown

/-- Whatever has become of a service on the script engine, each of its responses tells what is pending. -/
theorem Houses.tells {prelude : List String} {config : DaemonConfig} {s : Service Unit Script.Bindings}
    (h : s.Houses (Script.engine prelude) config Script.Reached) {request : Request}
    {response : Response} (hresponse : (s.handle request).1 = some response) :
    Tells config.supervisor.timeoutPolicy request.code response (s.pendingFor request.key)
      ((s.handle request).2.pendingFor request.key) := by
  cases hblank : isBlankText request.code with
  | true =>
      rw [handle_of_blank s hblank] at hresponse ⊢
      cases hresponse
      have hidle : isIdle config.supervisor.timeoutPolicy request.code blankResponse = true := by
        rw [isIdle, hblank, Bool.true_or]
      refine ⟨?_, fun _ => rfl⟩
      rw [hidle]
      exact ⟨fun hmarker => absurd hmarker (by decide), fun hbusy => absurd hbusy.2 (by decide)⟩
  | false =>
      have hnew : s.engine.newSession = .ok .empty := by
        rw [h.valid.engine]
        rfl
      generalize hsession : s.registry.sessionFor .empty s.config.supervisor.maxOutputBytes
        (s.keyOf request.key) s.clock = session
      have hreached : Script.Reached session.slot.state := by
        rw [← hsession, Registry.sessionFor]
        cases hfind : s.registry.find? (s.keyOf request.key) with
        | none => exact .new
        | some old => exact (h.sessions old (List.mem_of_find?_eq_some hfind)).2
      have hpending : session.pending = s.pendingFor request.key :=
        hsession ▸ s.pending_sessionFor request.key .empty _ _
      obtain ⟨houtcome, hfind, -⟩ := handle_spec h.valid.sound hnew hblank rfl
      rw [hsession, h.valid.engine, h.valid.config] at houtcome hfind
      rw [houtcome] at hresponse
      obtain ⟨o, ho, rfl⟩ := Option.map_eq_some_iff.mp hresponse
      have hafter : (s.handle request).2.pendingFor request.key =
          Supervisor.pendingAfter config.supervisor.timeoutPolicy session.pending
            ⟨request.code, o⟩ := by
        have hkey : (s.handle request).2.keyOf request.key = s.keyOf request.key := by
          rw [keyOf, keyOf, (h.valid.handle request).config, h.valid.config]
        rw [pendingFor, pending?, hkey, hfind, Option.map_some, Option.getD_some,
          Supervisor.pending_run ho]
      rw [hafter, ← hpending]
      exact tells_responseOf (marked_of_run hreached ho) hblank _

/-- The responder is the daemon of a client that has the session of a key to itself. Others may use the
daemon as well between its requests, as long as they leave alone what is pending for this key. -/
structure Lends (engine : Engine Shared State) (config : DaemonConfig) (shared : Shared) (key : String)
    {σ : Type} (R : Responder σ) (service : σ → Service Shared State) : Prop where
  protocol : R.protocol = config.protocol
  handle : ∀ (state : σ) (request : Request), Reachable engine config shared (service state) →
    ∃ s, Reachable engine config shared s ∧ s.pendingFor key = (service state).pendingFor key ∧
      (R.handle state request).1 = (s.handle request).1 ∧
      service (R.handle state request).2 = (s.handle request).2

/-- The daemon that nobody else uses. -/
theorem lends_responder {engine : Engine Shared State} {config : DaemonConfig} {shared : Shared}
    {s : Service Shared State} (h : Reachable engine config shared s) (key : String) :
    Lends engine config shared key s.responder id where
  protocol := congrArg DaemonConfig.protocol h.valid.config
  handle state _ hstate := ⟨state, hstate, rfl, rfl, rfl⟩

end Service

namespace Prompt

variable {σ : Type}

/-- A moment at which an interactive session asks for a line: the prompt, the state of the other side,
the line that follows and its answer, if there are any, and what is shown behind the prompt. -/
structure Moment (σ : Type) where
  prompt : String
  state : σ
  line : Option String
  answer : Option Response
  shown : String

/-- The moments at which a session asks for lines, beginning with a prompt. -/
def momentsFrom (link : Link σ) (key : String) (timeout : UInt32) (prompt : String) :
    List Bytes → List (Moment σ)
  | [] => [{ prompt, state := link.state, line := none, answer := none, shown := "\n" }]
  | line :: rest =>
    match lineText line with
    | .error _ => [{ prompt, state := link.state, line := none, answer := none, shown := "" }]
    | .ok code =>
      match link.request { timeout, key, code } with
      | (some (.ok response), next) =>
        { prompt, state := link.state, line := some code, answer := some response
          shown := if isContinuation response then "" else displayText response } ::
          momentsFrom next key timeout (if isContinuation response then continued else fresh) rest
      | _ => [{ prompt, state := link.state, line := some code, answer := none, shown := "" }]

/-- The moments at which an interactive session over an input asks for lines. -/
def moments (link : Link σ) (key : String) (timeout : UInt32) (input : Bytes) : List (Moment σ) :=
  momentsFrom link key timeout fresh (lines input)

/-- What an interactive session writes are its prompts, and what is shown behind each. -/
theorem output_runFrom (link : Link σ) (key : String) (timeout : UInt32) (written prompt : String)
    (lines : List Bytes) :
    (runFrom link key timeout written prompt lines).1.output = written ++
      String.join ((momentsFrom link key timeout prompt lines).map fun m => m.prompt ++ m.shown) := by
  induction lines generalizing link written prompt with
  | nil => simp [runFrom, momentsFrom, String.append_assoc]
  | cons line rest ih =>
      rw [runFrom, momentsFrom]
      cases lineText line with
      | error e => simp
      | ok code =>
          dsimp only
          rcases link.request { timeout, key, code } with ⟨_ | _ | response, next⟩
          · simp
          · simp
          · cases hcontinues : isContinuation response with
            | true => simp [hcontinues, ih, String.append_assoc]
            | false => simp [hcontinues, ih, String.append_assoc]

/-- The next prompt is that for the rest of a statement exactly if something is pending and the line
before was not idle; behind one that was, what is pending is as before. -/
def Follows (policy : TimeoutPolicy) (pending : σ → List String) (m m' : Moment σ) : Prop :=
  ∃ code response, m.line = some code ∧ m.answer = some response ∧
    m'.prompt = (if pending m'.state ≠ [] ∧ isIdle policy code response = false then continued
      else fresh) ∧
    (isIdle policy code response = true → pending m'.state = pending m.state)

/-- An interactive session whose prompts tell what is pending, but for those behind idle lines. -/
structure Truthful (policy : TimeoutPolicy) (pending : σ → List String) (start : σ)
    (moments : List (Moment σ)) : Prop where
  first : ∀ m ∈ moments.head?, m.prompt = fresh ∧ m.state = start
  next : moments.IsChain (Follows policy pending)

/-- The line that is sent at this moment and whatever it is answered have texts that can be announced. -/
def Moment.Announced (R : Responder σ) (key : String) (timeout : UInt32) (m : Moment σ) : Prop :=
  ∀ code ∈ m.line, R.Announces m.state { timeout, key, code }

instance (R : Responder σ) (key : String) (timeout : UInt32) (m : Moment σ) :
    Decidable (m.Announced R key timeout) :=
  inferInstanceAs (Decidable (∀ code ∈ m.line, R.Announces m.state { timeout, key, code }))

theorem head?_momentsFrom (link : Link σ) (key : String) (timeout : UInt32) (prompt : String)
    (lines : List Bytes) :
    ∀ m ∈ (momentsFrom link key timeout prompt lines).head?,
      m.prompt = prompt ∧ m.state = link.state := by
  intro m hm
  cases lines with
  | nil =>
      cases hm
      exact ⟨rfl, rfl⟩
  | cons line rest =>
      rw [momentsFrom] at hm
      cases hline : lineText line with
      | error e =>
          rw [hline] at hm
          cases hm
          exact ⟨rfl, rfl⟩
      | ok code =>
          rw [hline] at hm
          dsimp only at hm
          split at hm <;> cases hm <;> exact ⟨rfl, rfl⟩

variable {prelude : List String} {config : DaemonConfig} {key : String} {R : Responder σ}
  {service : σ → Service Unit Script.Bindings}

/-- A line that is answered, and what its response tells. -/
theorem follows_of_handle (hlends : Service.Lends (Script.engine prelude) config ⟨⟩ key R service)
    {state next : σ} (hreachable : Service.Reachable (Script.engine prelude) config ⟨⟩ (service state))
    {code : String} {timeout : UInt32} {answer : Response}
    (hhandle : R.handle state (Request.received R.protocol { timeout, key, code }) =
      (some answer, next)) :
    Service.Reachable (Script.engine prelude) config ⟨⟩ (service next) ∧
      Tells config.supervisor.timeoutPolicy code answer ((service state).pendingFor key)
        ((service next).pendingFor key) := by
  obtain ⟨s, hs, hpending, hanswer, hnext⟩ :=
    hlends.handle state (Request.received R.protocol { timeout, key, code }) hreachable
  rw [hhandle] at hanswer hnext
  have hhouses : s.Houses (Script.engine prelude) config Script.Reached :=
    (Service.Houses.invariant (Script.steady_engine prelude).writes
      (Script.stays_engine prelude)).reachable
      ⟨⟨rfl, rfl, Registry.sound_empty⟩, List.forall_mem_nil _⟩ hs
  have hreached : Service.Reachable (Script.engine prelude) config ⟨⟩ (service next) :=
    hnext ▸ hs.handle _
  have htells := hhouses.tells hanswer.symm
  rw [← hnext, Service.pendingFor_received (by rw [hs.valid.config, hlends.protocol]),
    Service.pendingFor_received (by rw [hreached.valid.config, hlends.protocol]), hpending] at htells
  have hcode : (Request.received R.protocol { timeout, key, code }).code = code := by
    cases R.protocol <;> rfl
  rw [hcode] at htells
  exact ⟨hreached, htells⟩

/-- Moments follow each other as long as the texts of lines and answers can be announced. -/
theorem isChain_momentsFrom
    (hlends : Service.Lends (Script.engine prelude) config ⟨⟩ key R service) {state : σ}
    (hreachable : Service.Reachable (Script.engine prelude) config ⟨⟩ (service state))
    (timeout : UInt32) (limit : Nat) (prompt : String) (lines : List Bytes)
    (hannounced : ∀ m ∈ momentsFrom (Link.idle R state limit) key timeout prompt lines,
      m.Announced R key timeout) :
    (momentsFrom (Link.idle R state limit) key timeout prompt lines).IsChain
      (Follows config.supervisor.timeoutPolicy fun state => (service state).pendingFor key) := by
  induction lines generalizing state prompt with
  | nil => exact .singleton _
  | cons line rest ih =>
      rw [momentsFrom] at hannounced ⊢
      cases hline : lineText line with
      | error e => exact .singleton _
      | ok code =>
          rw [hline] at hannounced
          dsimp only at hannounced ⊢
          rcases hrequest : (Link.idle R state limit).request { timeout, key, code } with
            ⟨_ | _ | response, link⟩
          · exact .singleton _
          · exact .singleton _
          · -- What is left over of an exchange is an idle link again, which the induction needs.
            rw [hrequest] at hannounced
            dsimp only at hannounced ⊢
            obtain ⟨hhead, hrest⟩ := List.forall_mem_cons.mp hannounced
            obtain ⟨answer, next, hhandle, rfl, rfl⟩ := Link.request_ok (hhead code rfl) hrequest
            obtain ⟨hreachable', htells⟩ := follows_of_handle hlends hreachable hhandle
            refine List.isChain_cons.mpr ⟨fun m' hm' => ?_, ih hreachable' _ hrest⟩
            obtain ⟨hprompt, hstate⟩ := head?_momentsFrom _ _ _ _ _ m' hm'
            have hnext : m'.state = next := hstate
            have hreceived := htells.received R.protocol
            refine ⟨code, _, rfl, rfl, ?_, ?_⟩
            · rw [hprompt, hnext]
              exact if_congr hreceived.continues rfl rfl
            · rw [hnext]
              exact hreceived.idle

/-- The prompts of an interactive session tell what is pending in its session, except behind lines that
leave this as it is. -/
theorem run_truthful (hlends : Service.Lends (Script.engine prelude) config ⟨⟩ key R service)
    {state : σ} (hreachable : Service.Reachable (Script.engine prelude) config ⟨⟩ (service state))
    (timeout : UInt32) (limit : Nat) (input : Bytes)
    (hannounced : ∀ m ∈ moments (.connect R state (.new R.protocol limit)) key timeout input,
      m.Announced R key timeout) :
    (run (.connect R state (.new R.protocol limit)) key timeout input).1.output =
        String.join ((moments (.connect R state (.new R.protocol limit)) key timeout input).map
          fun m => m.prompt ++ m.shown) ∧
      Truthful config.supervisor.timeoutPolicy (fun state => (service state).pendingFor key) state
        (moments (.connect R state (.new R.protocol limit)) key timeout input) := by
  refine ⟨?_, head?_momentsFrom _ _ _ _ _, ?_⟩
  · rw [run, output_runFrom, String.empty_append]
    rfl
  · exact isChain_momentsFrom hlends hreachable timeout limit fresh (lines input) hannounced

/-- Settings under which what is pending is preserved. -/
def patient : DaemonConfig where
  supervisor := { timeoutPolicy := .preserve, cancelGrace := 5000 }

/-- A client of a daemon with these settings, which nobody else uses. -/
def alone : Link (Service Unit Script.Bindings) :=
  .connect (Service.ofConfig patient).responder (.ofConfig patient) (.new .keyed Client.defaultLimit)

/-- A statement that is interrupted by a blank line and by one that times out. -/
def interrupted : Bytes :=
  encode "if true \x7b\n\nsleep(60000) \x7d\n\x7d\n"

theorem run_truthful_interrupted :
    (moments alone "default" 25 interrupted).map (fun m => (m.prompt, m.state.pendingFor "default")) =
        [(fresh, []), (continued, ["if true \x7b"]), (fresh, ["if true \x7b"]),
          (fresh, ["if true \x7b"]), (fresh, [])] ∧
      (∀ m ∈ moments alone "default" 25 interrupted,
        m.Announced (Service.ofConfig patient).responder "default" 25) ∧
      Truthful .preserve (·.pendingFor "default") (.ofConfig patient)
        (moments alone "default" 25 interrupted) := by
  have hreachable : Service.Reachable (Script.engine Script.defaultPrelude) patient ⟨⟩
      (.ofConfig patient) := .start
  have hannounced : ∀ m ∈ moments alone "default" 25 interrupted,
      m.Announced (Service.ofConfig patient).responder "default" 25 := by decide +kernel
  have htruthful := run_truthful (Service.lends_responder hreachable "default") hreachable 25
    Client.defaultLimit interrupted hannounced
  exact ⟨by decide +kernel, hannounced, htruthful.2⟩

/-- Behind the blank line, and behind the one that times out, the prompt is that for a new statement,
although one is pending. -/
theorem prompt_hides_pending :
    (run alone "default" 25 interrupted).1.output = "> ... > (timed out)\n> > \n" ∧
      ((moments alone "default" 25 interrupted).filter fun m =>
        m.prompt = fresh ∧ m.state.pendingFor "default" ≠ []).map (·.line) =
      [some "sleep(60000) \x7d", some "\x7d"] := by
  decide +kernel

end Prompt

end ReplDaemon
