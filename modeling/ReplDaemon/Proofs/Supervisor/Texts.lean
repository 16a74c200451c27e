import ReplDaemon.Proofs.Capture
import ReplDaemon.Proofs.Supervisor.Record

/-!
# The texts of answers

An answer shows what the engine has written into the capture of the evaluation, and behind it the value
or the error. Only the report of a breakdown is written into the capture itself; so it is the one reason
of a failure that is lost where the output is cut.
-/

namespace ReplDaemon

namespace Supervisor

/-- The report of a breakdown is written behind the output, as a line. -/
def breakdownReport (message : Option String) : String :=
  "internal error: " ++ panicText message

end Supervisor

open Supervisor

/-- What is written into the output at the end of an evaluation. -/
def Ending.captured : Ending → List String
  | .panicked message => [breakdownReport message, "\n"]
  | _ => []

/-- What is shown behind the output. -/
def Ending.appended : Ending → String
  | .returned (.ok (.completed (some v))) => v.format
  | .returned (.ok (.failed e)) => e
  | .returned (.error e) => e.message
  | _ => ""

/-- Whether an outcome has a text of its own, and is not told by a marker. -/
def Outcome.isOwn : Outcome → Bool
  | .output _ | .failed _ | .internal _ => true
  | _ => false

namespace Supervisor

variable {Shared State : Type} {engine : Engine Shared State} {config : SupervisorConfig}

/-- The text of work that is done in time. -/
theorem text_of_settle {ending : Ending} {limit : Nat} {texts pending : List String} {o : Outcome}
    (h : (settle ending (.written limit texts) pending).map Prod.fst = some o)
    (hown : o.isOwn = true) :
    o.text = (Capture.written limit (texts ++ ending.captured)).shown ++ ending.appended := by
  rcases ending with (_ | (_ | _) | _ | _) | message | _ <;>
    simp only [settle, Option.map_some, Option.map_none, Option.some.injEq, reduceCtorEq] at h
  all_goals subst h
  case returned.ok.incomplete => cases hown
  case panicked =>
    rw [Ending.captured, Capture.written_append]
    exact String.append_empty.symm
  case returned.ok.completed.none =>
    show _ = (Capture.written limit (texts ++ [])).shown ++ ""
    rw [List.append_nil]
    exact String.append_empty.symm
  case returned.error | returned.ok.completed.some | returned.ok.failed =>
    show _ = (Capture.written limit (texts ++ [])).shown ++ _
    rw [List.append_nil]
    rfl

/-- Work that is done before the deadline is answered by its own outcome. -/
theorem answer_of_lt {deadline : Option Instant} {w : Work Shared State} (pending : List String)
    (hends : w.ending ≠ .endless) (h : ∀ limit ∈ deadline, w.context.clock < limit) :
    answer config deadline w pending =
      (settle w.ending w.context.output pending).map fun (outcome, pending) =>
        { outcome, pending, time := w.context.clock } := by
  have hdone : w.doneAt = some w.context.clock := by
    rcases doneAt_cases w with ⟨hendless, -⟩ | ⟨-, hdone⟩
    · exact absurd hendless hends
    · exact hdone
  unfold answer
  cases deadline with
  | none => exact if_pos rfl
  | some limit =>
      rw [hdone]
      exact if_pos (decide_eq_true (h limit rfl))

/-- Work has an outcome of its own only where it is done in time. -/
theorem settle_of_answer {deadline : Option Instant} {w : Work Shared State}
    {pending : List String} {a : Answer} (h : answer config deadline w pending = some a)
    (hown : a.outcome.isOwn = true) :
    (settle w.ending w.context.output pending).map Prod.fst = some a.outcome := by
  rcases answer_cases deadline w pending with ⟨_, ha⟩ | ⟨_, _, _, _, ha⟩ | ⟨_, _, ha⟩
  · obtain ⟨settled, hsettled, rfl⟩ := Option.map_eq_some_iff.mp (ha.symm.trans h)
    exact Option.map_eq_some_iff.mpr ⟨settled, hsettled, rfl⟩
  · cases ha.symm.trans h
    cases hown
  · cases ha.symm.trans h
    cases hown

/-- The text of a request that has an outcome of its own. -/
theorem text_of_run {shared : Shared} {session : Session State} {chunk : String} {timeout : UInt32}
    {now : Instant} {o : Outcome}
    (h : (run engine config shared session chunk timeout now).outcome = some o)
    (hown : o.isOwn = true) {w : Work Shared State}
    (hw : w = workFor engine config shared session chunk timeout now) {texts : List String}
    (hwritten : w.context.output = .written session.outputLimit texts) :
    o.text = (Capture.written session.outputLimit (texts ++ w.ending.captured)).shown ++
      w.ending.appended := by
  rw [run_eq_resultOf, ← hw] at h
  cases ha : answer config (deadlineAt config timeout now) w (session.pending ++ [chunk]) with
  | none =>
      rw [ha] at h
      cases h
  | some a =>
      rw [ha] at h
      cases h
      have hsettle := settle_of_answer ha hown
      rw [hwritten] at hsettle
      exact text_of_settle hsettle hown

end Supervisor

end ReplDaemon
