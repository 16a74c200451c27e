import ReplDaemon.Engine.Rehearsed
import ReplDaemon.Proofs.Supervisor.Texts
import ReplDaemon.Service

/-!
# The reasons of failures

An evaluation that fails in time is answered by a text that ends with the reason, however much the
evaluation has written. An engine that breaks down is answered so only if its report still fits into the
capture.
-/

namespace ReplDaemon

open Supervisor

/-- Why an evaluation has not succeeded. -/
def Ending.reason? : Ending → Option String
  | .returned (.ok (.failed e)) => some e
  | .returned (.error e) => some e.message
  | .panicked message => some (breakdownReport message ++ "\n")
  | _ => none

namespace Supervisor

variable {Shared State : Type} {engine : Engine Shared State} {config : SupervisorConfig}

theorem suffix_append (s t : String) : t.toList <:+ (s ++ t).toList := by
  rw [String.toList_append]
  exact List.suffix_append _ _

/-- A report ends with a line break, and the notice that output was cut does not. -/
theorem not_suffix_notice (report kept : String) :
    ¬ (report ++ "\n").toList <:+ (kept ++ Capture.notice).toList := by
  rintro ⟨front, hfront⟩
  have hlast := congrArg List.getLast? hfront
  have hline : "\n".toList.getLast? = some '\n' := by decide
  have hnotice : Capture.notice.toList.getLast? = some ')' := by decide
  simp only [String.toList_append, List.getLast?_append, hline, hnotice, Option.some_or] at hlast
  exact absurd (Option.some.inj hlast) (by decide)

/-- The report of a breakdown is at the end of what is shown exactly if it fits with all the rest. -/
theorem report_suffix_shown_iff (limit : Nat) (texts : List String) (message : Option String) :
    (breakdownReport message ++ "\n").toList <:+
        (Capture.written limit (texts ++ [breakdownReport message, "\n"])).shown.toList ↔
      (String.join texts ++ (breakdownReport message ++ "\n")).utf8ByteSize ≤ limit := by
  have hjoin : String.join (texts ++ [breakdownReport message, "\n"]) =
      String.join texts ++ (breakdownReport message ++ "\n") := by simp
  rw [← hjoin]
  constructor
  · intro hsuffix
    by_contra hlarge
    obtain ⟨kept, hshown, -⟩ := Capture.shown_written_of_lt (Nat.not_le.mp hlarge)
    rw [hshown] at hsuffix
    exact not_suffix_notice _ kept hsuffix
  · intro hfits
    rw [Capture.shown_written hfits, hjoin]
    exact suffix_append _ _

theorem isSome_settle_of_reason? {ending : Ending} {reason : String}
    (h : ending.reason? = some reason) (output : Capture) (pending : List String) :
    ∃ o : Outcome, (settle ending output pending).map Prod.fst = some o ∧ o.isOwn = true := by
  rcases ending with (_ | (_ | _) | _ | _) | _ | _ <;> cases h <;> exact ⟨_, rfl, rfl⟩

/-- A request whose evaluation has failed in time is answered by a text that ends with the reason, unless
the engine has broken down and its report does not fit into the capture behind all that was written. -/
theorem run_reason_iff {shared : Shared} {session : Session State} {chunk : String}
    {timeout : UInt32} {now : Instant} {w : Work Shared State}
    (hw : w = workFor engine config shared session chunk timeout now)
    (htime : ∀ limit ∈ deadlineAt config timeout now, w.context.clock < limit)
    {texts : List String} (hwritten : w.context.output = .written session.outputLimit texts)
    {reason : String} (hreason : w.ending.reason? = some reason) :
    ∃ o : Outcome, (run engine config shared session chunk timeout now).outcome = some o ∧
      (reason.toList <:+ (Service.responseOf o).text.toList ↔
        ∀ message, w.ending = .panicked message →
          (String.join texts ++ reason).utf8ByteSize ≤ session.outputLimit) := by
  have hends : w.ending ≠ .endless := by
    intro hendless
    rw [hendless] at hreason
    cases hreason
  have hanswer : answer config (deadlineAt config timeout now) w (session.pending ++ [chunk]) = _ :=
    answer_of_lt _ hends htime
  obtain ⟨o, hsettle, hown⟩ :=
    isSome_settle_of_reason? hreason w.context.output (session.pending ++ [chunk])
  have houtcome : (run engine config shared session chunk timeout now).outcome = some o := by
    rw [run_eq_resultOf, ← hw, hanswer]
    obtain ⟨settled, hsettled, rfl⟩ := Option.map_eq_some_iff.mp hsettle
    rw [hsettled]
    rfl
  rw [hwritten] at hsettle
  refine ⟨o, houtcome, ?_⟩
  show reason.toList <:+ o.text.toList ↔ _
  rw [text_of_settle hsettle hown]
  rcases hending : w.ending with (e | (_ | _) | _ | e) | message | _ <;>
    rw [hending] at hreason <;> cases hreason
  case returned.error | returned.ok.failed =>
    exact ⟨(fun _ _ h => nomatch h), fun _ => suffix_append _ _⟩
  case panicked =>
    have hiff := report_suffix_shown_iff session.outputLimit texts message
    simp only [Ending.captured, Ending.appended, String.append_empty, hiff]
    exact ⟨fun h _ _ => h, fun h => h message rfl⟩

/-- An engine that prints something and then breaks down. -/
def breakingDown (printed message : String) : Rehearsed.Course where
  ahead := [⟨some printed, .panic (some message)⟩]
  seen := []

theorem run_reason_iff_fits :
    ∃ o : Outcome, (run (Rehearsed.engine none none) {} (breakingDown "ab" "boom")
        (.new "k" 0 ⟨⟩ 23 0) "x" 0 0).outcome = some o ∧
      "internal error: boom\n".toList <:+ (Service.responseOf o).text.toList := by
  obtain ⟨w, hw⟩ : ∃ w, w = workFor (Rehearsed.engine none none) {} (breakingDown "ab" "boom")
      (.new "k" 0 ⟨⟩ 23 0) "x" 0 0 := ⟨_, rfl⟩
  have hwritten : w.context.output = .written 23 ["ab"] := by
    rw [hw]
    decide
  have hreason : w.ending.reason? = some "internal error: boom\n" := by
    rw [hw]
    rfl
  obtain ⟨o, houtcome, hsuffix⟩ := run_reason_iff hw (fun _ h => nomatch h) hwritten hreason
  exact ⟨o, houtcome, hsuffix.mpr fun _ _ => by decide⟩

/-- What was written before fills the capture, so the report is lost. -/
theorem reason_lost :
    (workFor (Rehearsed.engine none none) {} (breakingDown "abcdef" "boom")
        (.new "k" 0 ⟨⟩ 5 0) "x" 0 0).ending = .panicked (some "boom") ∧
      ∃ o : Outcome, (run (Rehearsed.engine none none) {} (breakingDown "abcdef" "boom")
          (.new "k" 0 ⟨⟩ 5 0) "x" 0 0).outcome = some o ∧
        ¬ "internal error: boom\n".toList <:+ (Service.responseOf o).text.toList := by
  have houtcome : (run (Rehearsed.engine none none) {} (breakingDown "abcdef" "boom")
      (.new "k" 0 ⟨⟩ 5 0) "x" 0 0).outcome = some (.internal "abcde\n(output truncated)") := by
    decide +kernel
  exact ⟨rfl, _, houtcome, by decide⟩

end Supervisor

end ReplDaemon
