import ReplDaemon.Prompt
import ReplDaemon.Proofs.Script.Wording
import ReplDaemon.Proofs.Turns

/-!
# Markers

A response tells by its text alone that a source is to be continued, or that the evaluation has timed
out. On the script engine no other response has such a text, whatever a program prints, comes to or fails
with: either a line has ended in it, as in no marker, or it does not begin with a parenthesis, as all
markers do.
-/

namespace ReplDaemon

/-- A text that cannot be taken for a marker. -/
def Distinct (text : String) : Prop :=
  '\n' ∈ text.toList ∨ Unparenthesized text

/-- The texts that stand for an outcome. -/
def IsMarker (text : String) : Prop :=
  text = continueMarker ∨ text = timedOutMarker ∨ text = probablyTimedOutMarker

theorem Distinct.not_isMarker {text : String} (h : Distinct text) : ¬ IsMarker text := by
  rintro (rfl | rfl | rfl) <;>
    exact h.elim (fun hline => absurd hline (by decide)) fun hopen => hopen (by decide)

theorem Script.stays_engine (prelude : List String) : (engine prelude).Stays Reached where
  new state hnew := by
    cases hnew
    exact .new
  evaluate source _ _ c h := h.after source c

namespace Supervisor

theorem exists_captured_eq (ending : Ending) :
    ∃ lines : List String, ending.captured = Capture.lineTexts lines := by
  rcases ending with answer | message | _
  · exact ⟨[], rfl⟩
  · exact ⟨[breakdownReport message], rfl⟩
  · exact ⟨[], rfl⟩

/-- Work on the script engine has printed lines, and says nothing in parentheses behind them. -/
theorem Worked.wording {prelude : List String} {limit : Nat} {w : Work Unit Script.Bindings}
    (h : Worked (Script.engine prelude) Script.Reached limit w) :
    (∃ lines : List String, w.context.output = .written limit (Capture.lineTexts lines)) ∧
      Unparenthesized w.ending.appended := by
  cases h with
  | idle ending output _ =>
      refine ⟨⟨[], output⟩, ?_⟩
      rcases ending with hending | hending <;> rw [hending] <;> exact .of_not_mem (by decide)
  | @evaluated source shared vars c preludeApplied before output eq =>
      subst eq
      obtain ⟨lines, hlines⟩ := Script.evaluate_prints source vars c
      rw [output] at hlines
      exact ⟨⟨lines, hlines⟩, before.unparenthesized source c⟩

/-- An outcome on the script engine that has a text of its own has one that is no marker. -/
theorem distinct_of_run {prelude : List String} {config : SupervisorConfig}
    {session : Session Script.Bindings} (hreached : Script.Reached session.slot.state)
    {chunk : String} {timeout : UInt32} {now : Instant} {o : Outcome}
    (h : (run (Script.engine prelude) config ⟨⟩ session chunk timeout now).outcome = some o)
    (hown : o.isOwn = true) : Distinct o.text := by
  have hworked : Worked (Script.engine prelude) Script.Reached session.outputLimit
      (workFor (Script.engine prelude) config ⟨⟩ session chunk timeout now) :=
    worked_workFor (Script.steady_engine prelude).writes (Script.stays_engine prelude) ⟨⟩ hreached
      chunk timeout now
  obtain ⟨⟨lines, hlines⟩, hsays⟩ := hworked.wording
  rw [text_of_run h hown rfl hlines]
  generalize workFor (Script.engine prelude) config ⟨⟩ session chunk timeout now = w at hsays
  obtain ⟨lines', hcaptured⟩ := exists_captured_eq w.ending
  have hall : Capture.lineTexts lines ++ w.ending.captured =
      Capture.lineTexts (lines ++ lines') := by
    rw [hcaptured, Capture.lineTexts, Capture.lineTexts, Capture.lineTexts, List.flatMap_append]
  rw [hall]
  by_cases hnone : lines ++ lines' = []
  · rw [hnone]
    exact .inr (String.empty_append.symm ▸ hsays)
  · refine .inl ?_
    rw [String.toList_append]
    exact List.mem_append_left _ (Capture.newline_mem_shown_lineTexts _ hnone)

end Supervisor

namespace Service

/-- The response tells by its text which outcome it is, if it is one that a marker stands for. -/
structure Marked (outcome : Option Outcome) (response : Response) : Prop where
  continues : response.text = continueMarker ↔ outcome = some .continues
  timedOut : response.text = timedOutMarker ↔ outcome = some .timedOut
  probablyTimedOut : response.text = probablyTimedOutMarker ↔ outcome = some .probablyTimedOut
  prompted : isContinuation response = true ↔ outcome = some .continues

theorem isContinuation_iff {response : Response} :
    isContinuation response = true ↔ response.text = continueMarker :=
  beq_iff_eq

/-- A response that is no marker, to an outcome that none stands for. -/
theorem marked_of_not_isMarker {outcome : Option Outcome} {response : Response}
    (hresponse : ¬ IsMarker response.text) (houtcome : ∀ o ∈ outcome, o.isOwn = true) :
    Marked outcome response := by
  have hother (o : Outcome) (hother : o.isOwn = false) : outcome ≠ some o := by
    intro ho
    cases hother.symm.trans (houtcome o ho)
  have hcontinues : response.text = continueMarker ↔ outcome = some .continues :=
    ⟨fun h => absurd (.inl h) hresponse, fun h => absurd h (hother _ rfl)⟩
  exact ⟨hcontinues,
    ⟨fun h => absurd (.inr (.inl h)) hresponse, fun h => absurd h (hother _ rfl)⟩,
    ⟨fun h => absurd (.inr (.inr h)) hresponse, fun h => absurd h (hother _ rfl)⟩,
    isContinuation_iff.trans hcontinues⟩

/-- The markers are told apart. -/
theorem marked_of_not_isOwn {o : Outcome} (h : o.isOwn = false) :
    Marked (some o) (responseOf o) := by
  cases o with
  | output | failed | internal => cases h
  | continues | timedOut | probablyTimedOut =>
      exact ⟨by decide, by decide, by decide, by decide⟩

/-- On the script engine, with any prelude and any settings, markers are not ambiguous: whatever has
become of a service, the text of a response is a marker exactly if the outcome is the one that it stands
for. -/
theorem marked_responses {prelude : List String} {config : DaemonConfig}
    {s : Service Unit Script.Bindings} (h : Reachable (Script.engine prelude) config ⟨⟩ s) :
    (∀ request response, (s.handle request).1 = some response →
        Marked (outcome? (Script.engine prelude) config.supervisor (s.turn? request)) response) ∧
      ∀ requests responses, (s.handleAll requests).1 = some responses →
        List.Forall₂ Marked
          ((s.turns requests).map (outcome? (Script.engine prelude) config.supervisor))
          responses := by
  have hmarked (turn : Option (Turn Unit Script.Bindings)) (response : Response)
      (hanswers : Answers (Script.engine prelude) config Script.Reached turn response) :
      Marked (outcome? (Script.engine prelude) config.supervisor turn) response := by
    cases hanswers with
    | blank =>
        have hblank : Distinct "" := .inr (.of_not_mem (by decide))
        exact marked_of_not_isMarker hblank.not_isMarker nofun
    | refused refuses => cases refuses
    | @served t o limit state outcome =>
        have houtcome :
            outcome? (Script.engine prelude) config.supervisor (some t) = some o := outcome
        rw [houtcome]
        cases hown : o.isOwn with
        | true =>
            have hdistinct := Supervisor.distinct_of_run state outcome hown
            refine marked_of_not_isMarker hdistinct.not_isMarker fun o' ho' => ?_
            cases ho'
            exact hown
        | false => exact marked_of_not_isOwn hown
  obtain ⟨hhandle, hhandleAll⟩ :=
    h.answers (Script.steady_engine prelude).writes (Script.stays_engine prelude)
  exact ⟨fun request response hresponse => hmarked _ _ (hhandle request response hresponse),
    fun requests responses hresponses =>
      List.forall₂_map_left_iff.mpr ((hhandleAll requests responses hresponses).imp hmarked)⟩

/-- A service whose captures have just the room for a marker, before its first request. -/
def narrow : Service Unit Script.Bindings :=
  .start (Script.engine []) { supervisor := { maxOutputBytes := 13 } } ⟨⟩

theorem marked_responses_print :
    let request := ask "print(\"(continue...)\")"
    ∃ response, (narrow.handle request).1 = some response ∧
      response.text = "(continue...)\n(output truncated)" ∧
      Marked (outcome? (Script.engine []) { maxOutputBytes := 13 } (narrow.turn? request))
        response := by
  intro request
  have hresponse : (narrow.handle request).1 =
      some { success := true, text := "(continue...)\n(output truncated)" } := by decide +kernel
  have hreachable : Reachable (Script.engine []) { supervisor := { maxOutputBytes := 13 } } ⟨⟩
      narrow := .start
  exact ⟨_, hresponse, rfl, (marked_responses hreachable).1 request _ hresponse⟩

end Service

end ReplDaemon
