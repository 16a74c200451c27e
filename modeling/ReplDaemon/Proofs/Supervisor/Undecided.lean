import Mathlib.Data.List.DropRight
import ReplDaemon.Engine.Rehearsed
import ReplDaemon.Proofs.Supervisor.Record

/-!
# The input that is still undecided

After any requests to a session, what is pending is the input that is still undecided: the chunks of the
requests that were answered by the request to continue, back to the last one that was answered otherwise.
A timeout decides like any other answer, unless the policy is to preserve what is pending: then a
request that times out is as if it had not been sent.
-/

namespace ReplDaemon

/-- Whether a request with this outcome is as if it had not been sent. -/
def TimeoutPolicy.skips (policy : TimeoutPolicy) (outcome : Outcome) : Bool :=
  policy = .preserve && outcome.isTimeout

namespace Supervisor

/-- A request to the session, and what it came to. -/
structure Exchange where
  chunk : String
  outcome : Outcome

/-- What one more exchange leaves pending. -/
def pendingAfter (policy : TimeoutPolicy) (pending : List String) (e : Exchange) : List String :=
  if policy.skips e.outcome then pending
  else if e.outcome = .continues then pending ++ [e.chunk]
  else []

variable {Shared State : Type} {engine : Engine Shared State} {config : SupervisorConfig}

theorem pending_of_settle {ending : Ending} {output : Capture} {pending pending' : List String}
    {outcome : Outcome} (h : settle ending output pending = some (outcome, pending')) :
    outcome.isTimeout = false ∧ pending' = if outcome = .continues then pending else [] := by
  rcases ending with (_ | (_ | _) | _ | _) | _ | _ <;> cases h <;> exact ⟨rfl, rfl⟩

/-- An answer decides what was pending before the request and its chunk. -/
theorem pending_of_answer {deadline : Option Instant} {w : Work Shared State} {pending : List String}
    {chunk : String} {a : Answer} (h : answer config deadline w (pending ++ [chunk]) = some a) :
    a.pending = pendingAfter config.timeoutPolicy pending ⟨chunk, a.outcome⟩ := by
  have htimeout : config.timeoutPolicy.apply (pending ++ [chunk]) =
      if config.timeoutPolicy = .preserve then pending else [] := by
    cases config.timeoutPolicy with
    | discard => rfl
    | preserve => exact List.dropLast_concat
  rcases answer_cases deadline w (pending ++ [chunk]) with ⟨_, ha⟩ | ⟨_, _, _, _, ha⟩ | ⟨_, _, ha⟩
  · obtain ⟨⟨outcome, pending'⟩, hsettle, rfl⟩ := Option.map_eq_some_iff.mp (ha.symm.trans h)
    obtain ⟨hin, hpending⟩ := pending_of_settle hsettle
    simp [pendingAfter, TimeoutPolicy.skips, hin, hpending]
  · cases ha.symm.trans h
    simp [pendingAfter, TimeoutPolicy.skips, Outcome.isTimeout, htimeout]
  · cases ha.symm.trans h
    simp [pendingAfter, TimeoutPolicy.skips, Outcome.isTimeout, htimeout]

theorem pending_run {shared : Shared} {session : Session State} {chunk : String} {timeout : UInt32}
    {now : Instant} {outcome : Outcome}
    (h : (run engine config shared session chunk timeout now).outcome = some outcome) :
    (run engine config shared session chunk timeout now).session.pending =
      pendingAfter config.timeoutPolicy session.pending ⟨chunk, outcome⟩ := by
  rw [run_eq_resultOf] at h ⊢
  generalize ha : answer config (deadlineAt config timeout now)
    (workFor engine config shared session chunk timeout now) (session.pending ++ [chunk]) = answer
    at h ⊢
  cases answer with
  | none => cases h
  | some a =>
      cases h
      exact pending_of_answer ha

end Supervisor

end ReplDaemon
