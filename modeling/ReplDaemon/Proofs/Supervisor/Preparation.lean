import Mathlib.Data.List.Nodup
import ReplDaemon.Proofs.Supervisor.Record

/-!
# The prelude comes first

A session evaluates its engine's prelude until that has come to an end once, and from then on the sources
of the requests. An attempt at the prelude fails its request if it is cancelled or breaks down, and only
then; the next request that gets the slot makes another one.
-/

namespace ReplDaemon

/-- How an evaluation stands: it is not over, it has failed as it was cancelled or broke down, or it has
come to an end of another kind. -/
inductive Progress where
  | running
  | failed
  | settled
  deriving Repr, DecidableEq

/-- How an evaluation stands in the long run that ends like this, if it ends. -/
def Ending.progress : Ending → Progress
  | .endless => .running
  | .returned (.error .cancelled) | .panicked _ => .failed
  | .returned _ => .settled

/-- An evaluation of the prelude settles if it comes to an end of that other kind. -/
theorem Ending.settles_iff (e : Ending) : e.settles = true ↔ e.progress = .settled := by
  rcases e with ((_ | _ | _) | _) | _ | _ <;> simp [settles, progress]

theorem Ending.progress_of_not_settles {e : Ending} (h : e.settles = false) (ends : e ≠ .endless) :
    e.progress = .failed := by
  rcases e with ((_ | _ | _) | _) | _ | _ <;> simp_all [settles, progress]

/-- An evaluation of a text for the request with a given number. -/
structure Episode where
  number : Nat
  text : String
  progress : Progress
  deriving Repr, DecidableEq

/-- The attempts at a prelude that have failed the requests with these numbers. -/
def failures (text : String) (failed : List Nat) : List Episode :=
  failed.map fun number => ⟨number, text, .failed⟩

/-- Every episode evaluates the source of its own request. No request has two of them, and none of those
that have failed before has any. -/
structure OwnSources (sourceOf : Nat → Option String) (failed : List Nat) (episodes : List Episode) :
    Prop where
  own : ∀ e ∈ episodes, sourceOf e.number = some e.text
  once : (failed ++ episodes.map (·.number)).Nodup

/-- The episodes of a session, in order: without a prelude they are of sources. With one, some attempts
at the prelude have failed; then there may be another one, and only when that has come to an end of
another kind there are episodes of sources, and of nothing but sources. -/
inductive PreludeFirst (prelude : Option String) (sourceOf : Nat → Option String) :
    List Episode → Prop
  | without {sources : List Episode} (prelude_eq : prelude = none)
      (own : OwnSources sourceOf [] sources) : PreludeFirst prelude sourceOf sources
  | missing {text : String} (prelude_eq : prelude = some text) (failed : List Nat) :
      PreludeFirst prelude sourceOf (failures text failed)
  | running {text : String} (prelude_eq : prelude = some text) (failed : List Nat) (number : Nat) :
      PreludeFirst prelude sourceOf (failures text failed ++ [⟨number, text, .running⟩])
  | applied {text : String} (prelude_eq : prelude = some text) (failed : List Nat) (number : Nat)
      {sources : List Episode} (own : OwnSources sourceOf failed sources) :
      PreludeFirst prelude sourceOf (failures text failed ++ ⟨number, text, .settled⟩ :: sources)

theorem failures_concat (text : String) (failed : List Nat) (number : Nat) :
    failures text (failed ++ [number]) = failures text failed ++ [⟨number, text, .failed⟩] :=
  List.map_append

namespace OwnSources

variable {sourceOf sourceOf' : Nat → Option String} {failed : List Nat} {episodes : List Episode}

theorem nil (once : failed.Nodup) : OwnSources sourceOf failed [] :=
  ⟨fun _ h => (List.not_mem_nil h).elim, by rwa [List.map_nil, List.append_nil]⟩

/-- More requests may be known than before. -/
theorem mono (h : OwnSources sourceOf failed episodes)
    (hle : ∀ number text, sourceOf number = some text → sourceOf' number = some text) :
    OwnSources sourceOf' failed episodes :=
  ⟨fun e he => hle _ _ (h.own e he), h.once⟩

theorem concat (h : OwnSources sourceOf failed episodes) {e : Episode}
    (own : sourceOf e.number = some e.text)
    (new : e.number ∉ failed ++ episodes.map (·.number)) :
    OwnSources sourceOf failed (episodes ++ [e]) := by
  refine ⟨fun d hd => ?_, ?_⟩
  · rcases List.mem_append.mp hd with hd | hd
    · exact h.own d hd
    · rwa [List.mem_singleton.mp hd]
  · rw [List.map_append, ← List.append_assoc]
    exact h.once.append (List.nodup_singleton _) (by simpa using new)

theorem getElem?_concat_of_eq_some {sources : List String} {number : Nat} {text : String} (source : String)
    (h : sources[number]? = some text) : (sources ++ [source])[number]? = some text := by
  rw [List.getElem?_append_left (List.getElem?_eq_some_iff.mp h).1, h]

/-- The source of the request that comes next may be evaluated. -/
theorem next {sources : List String} {source : String} (h : OwnSources (sources[·]?) failed episodes)
    (behind : ∀ number ∈ failed, number < sources.length) (progress : Progress) :
    OwnSources ((sources ++ [source])[·]?) failed
      (episodes ++ [⟨sources.length, source, progress⟩]) := by
  refine (h.mono fun _ _ => getElem?_concat_of_eq_some source).concat List.getElem?_concat_length ?_
  rw [List.mem_append, List.mem_map]
  rintro (hfailed | ⟨e, he, hnumber⟩)
  · exact Nat.lt_irrefl _ (behind _ hfailed)
  · have hlt := (List.getElem?_eq_some_iff.mp (h.own e he)).1
    rw [hnumber] at hlt
    exact Nat.lt_irrefl _ hlt

end OwnSources

variable {Shared State : Type}

/-- The engine with a record of the texts that it has been given, first one first, and of how their
evaluations have ended. -/
def Engine.logged (engine : Engine Shared State) : Engine (Shared × List (String × Ending)) State where
  name := engine.name
  prelude := engine.prelude
  newSession := engine.newSession
  evaluate source shared state c :=
    let r := engine.evaluate source shared.1 state c
    { r with shared := (r.shared, shared.2 ++ [(source, r.ending)]) }

namespace Supervisor

variable {engine : Engine Shared State} {config : SupervisorConfig}

/-- What is logged for a request, and what becomes of the slot: nothing, where the request is too late;
its source; the prelude, which does not settle and, if it is endless, keeps the slot for ever; or both. -/
inductive Logs (prelude : Option String) (source : String) (applied : Bool) (slot : Slot State) :
    List (String × Ending) → Prop
  | nothing (unchanged : slot.preludeApplied = applied) : Logs prelude source applied slot []
  | source (ending : Ending) (ready : applied = true ∨ prelude = none)
      (still : slot.preludeApplied = true) : Logs prelude source applied slot [(source, ending)]
  | failed {text : String} {ending : Ending} (prelude_eq : prelude = some text)
      (missing : applied = false) (fails : ending.settles = false)
      (still : slot.preludeApplied = false) (never : ending = .endless → slot.freeAt = none) :
      Logs prelude source applied slot [(text, ending)]
  | behind {text : String} {ending : Ending} (prelude_eq : prelude = some text)
      (missing : applied = false) (settles : ending.settles = true) (ending' : Ending)
      (now : slot.preludeApplied = true) :
      Logs prelude source applied slot [(text, ending), (source, ending')]

/-- The slot as a worker leaves it. -/
def Work.leaves (w : Work Shared State) : Slot State :=
  { w.slot with freeAt := w.doneAt }

theorem doneAt_of_endless {w : Work Shared State} (h : w.ending = .endless) : w.doneAt = none := by
  rcases doneAt_cases w with ⟨-, hnone⟩ | ⟨hends, -⟩
  · exact hnone
  · exact absurd h hends

/-- The prelude is logged and, if it settles, the source. -/
theorem evaluateBoth_logs {text : String} (hprelude : engine.prelude = some text) (source : String)
    (shared : Shared) (state : State) (c : Context) :
    Logs engine.prelude source false
      (evaluateBoth engine.logged text source (shared, []) state c).leaves
      (evaluateBoth engine.logged text source (shared, []) state c).shared.2 := by
  rw [evaluateBoth_eq]
  dsimp only
  cases hsettles : (engine.logged.evaluate text (shared, []) state c).ending.settles with
  | true =>
      rw [if_pos rfl]
      exact .behind hprelude rfl hsettles _ rfl
  | false =>
      rw [if_neg Bool.false_ne_true]
      exact .failed hprelude rfl hsettles rfl fun hendless => doneAt_of_endless hendless

/-- What a worker logs, and how it leaves the slot. -/
theorem work_logs (source : String) (shared : Shared) (slot : Slot State) (c : Context) :
    Logs engine.prelude source slot.preludeApplied
      (work engine.logged source (shared, []) slot c).leaves
      (work engine.logged source (shared, []) slot c).shared.2 := by
  have hprelude : engine.logged.prelude = engine.prelude := rfl
  unfold work
  rw [hprelude]
  cases c.cancelled with
  | true => exact .nothing rfl
  | false =>
      cases happlied : slot.preludeApplied with
      | true => exact .source _ (.inl rfl) rfl
      | false =>
          cases hsome : engine.prelude with
          | none => exact .source _ (.inr rfl) rfl
          | some text =>
              have hboth := evaluateBoth_logs hsome source shared slot.state c
              rw [hsome] at hboth
              exact hboth

/-- A result has the slot and the log that the work leaves. -/
theorem slot_resultOf (session : Session State) (chunk : String) (now : Instant)
    (w : Work Shared State) (a : Option Answer) :
    (resultOf session chunk now w a).session.slot = w.leaves ∧
      (resultOf session chunk now w a).shared = w.shared := by
  cases a <;> exact ⟨rfl, rfl⟩

/-- What is logged for a request, and how the slot is left. -/
theorem run_logs (engine : Engine Shared State) (config : SupervisorConfig) (shared : Shared)
    (session : Session State) (chunk : String) (timeout : UInt32) (now : Instant) :
    Logs engine.prelude (Session.joinChunks (session.pending ++ [chunk])) session.slot.preludeApplied
      (run engine.logged config (shared, []) session chunk timeout now).session.slot
      (run engine.logged config (shared, []) session chunk timeout now).shared.2 := by
  rw [run_eq_resultOf, (slot_resultOf _ _ _ _ _).1, (slot_resultOf _ _ _ _ _).2, workFor]
  cases session.slot.freeAt with
  | none => exact .nothing rfl
  | some freeAt => exact work_logs _ _ _ _

/-- A slot that is never free stays so, and then nothing is logged. -/
theorem run_logs_of_never (engine : Engine Shared State) (config : SupervisorConfig)
    (shared : Shared) {session : Session State} (h : session.slot.freeAt = none) (chunk : String)
    (timeout : UInt32) (now : Instant) :
    (run engine.logged config (shared, []) session chunk timeout now).session.slot.freeAt = none ∧
      (run engine.logged config (shared, []) session chunk timeout now).shared.2 = [] := by
  rw [run_eq_resultOf, (slot_resultOf _ _ _ _ _).1, (slot_resultOf _ _ _ _ _).2, workFor, h]
  exact ⟨rfl, rfl⟩

/-- The supervisor serves requests to a session one after the other, whether they are answered or not.
The requests are known by their sources, and what is evaluated for them by the log of the engine. -/
inductive Served (engine : Engine Shared State) (config : SupervisorConfig) (shared : Shared)
    (session : Session State) : List String → List Episode → Shared → Session State → Prop
  | nil : Served engine config shared session [] [] shared session
  | concat {sources : List String} {episodes : List Episode} {shared' : Shared}
      {session' : Session State} {r : Result (Shared × List (String × Ending)) State}
      (before : Served engine config shared session sources episodes shared' session')
      (chunk : String) (timeout : UInt32) (now : Instant)
      (result : run engine.logged config (shared', []) session' chunk timeout now = r) :
      Served engine config shared session
        (sources ++ [Session.joinChunks (session'.pending ++ [chunk])])
        (episodes ++ r.shared.2.map fun entry => ⟨sources.length, entry.1, entry.2.progress⟩)
        r.shared.1 r.session

/-- The episodes so far, and what the slot shows of them. -/
inductive Prepared (prelude : Option String) (sources : List String) (slot : Slot State) :
    List Episode → Prop
  | without {episodes : List Episode} (prelude_eq : prelude = none)
      (own : OwnSources (sources[·]?) [] episodes) : Prepared prelude sources slot episodes
  | missing {text : String} {failed : List Nat} (prelude_eq : prelude = some text)
      (unapplied : slot.preludeApplied = false) (once : failed.Nodup)
      (behind : ∀ number ∈ failed, number < sources.length) :
      Prepared prelude sources slot (failures text failed)
  | running {text : String} {failed : List Nat} {number : Nat} (prelude_eq : prelude = some text)
      (never : slot.freeAt = none) :
      Prepared prelude sources slot (failures text failed ++ [⟨number, text, .running⟩])
  | applied {text : String} {failed : List Nat} {number : Nat} {episodes : List Episode}
      (prelude_eq : prelude = some text) (applied : slot.preludeApplied = true)
      (behind : ∀ number ∈ failed, number < sources.length)
      (own : OwnSources (sources[·]?) failed episodes) :
      Prepared prelude sources slot (failures text failed ++ ⟨number, text, .settled⟩ :: episodes)

theorem Prepared.preludeFirst {prelude : Option String} {sources : List String} {slot : Slot State}
    {episodes : List Episode} (h : Prepared prelude sources slot episodes) :
    PreludeFirst prelude (sources[·]?) episodes := by
  cases h with
  | without prelude_eq own => exact .without prelude_eq own
  | missing prelude_eq => exact .missing prelude_eq _
  | running prelude_eq => exact .running prelude_eq _ _
  | applied prelude_eq _ _ own => exact .applied prelude_eq _ _ own

variable {prelude : Option String} {source : String} {sources : List String} {slot slot' : Slot State}
  {failed : List Nat} {episodes : List Episode} {log : List (String × Ending)}

/-- One more request keeps the prelude in front of the sources. -/
theorem Prepared.step (h : Prepared prelude sources slot episodes)
    (hlogs : Logs prelude source slot.preludeApplied slot' log)
    (hnever : slot.freeAt = none → slot'.freeAt = none ∧ log = []) :
    Prepared prelude (sources ++ [source]) slot'
      (episodes ++ log.map fun entry => ⟨sources.length, entry.1, entry.2.progress⟩) := by
  have hlength : (sources ++ [source]).length = sources.length + 1 := List.length_append
  have hbehind {failed : List Nat} (h : ∀ number ∈ failed, number < sources.length) :
      ∀ number ∈ failed, number < (sources ++ [source]).length :=
    fun number hn => hlength ▸ Nat.lt_succ_of_lt (h number hn)
  cases h with
  | without prelude_eq own =>
      cases hlogs with
      | nothing =>
          rw [List.map_nil, List.append_nil]
          exact .without prelude_eq (own.mono fun _ _ => OwnSources.getElem?_concat_of_eq_some source)
      | source => exact .without prelude_eq (own.next (fun _ h => nomatch h) _)
      | failed hsome | behind hsome => cases prelude_eq.symm.trans hsome
  | @missing text failed prelude_eq unapplied once behind =>
      cases hlogs with
      | nothing unchanged =>
          rw [List.map_nil, List.append_nil]
          exact .missing prelude_eq (unchanged.trans unapplied) once (hbehind behind)
      | source _ ready =>
          rcases ready with happlied | hnone
          · cases unapplied.symm.trans happlied
          · cases hnone.symm.trans prelude_eq
      | @failed text' ending hsome _ fails still never =>
          cases prelude_eq.symm.trans hsome
          rw [List.map_singleton]
          by_cases hendless : ending = .endless
          · subst hendless
            exact .running prelude_eq (never rfl)
          · rw [Ending.progress_of_not_settles fails hendless, ← failures_concat]
            refine .missing prelude_eq still ?_ ?_
            · refine once.append (List.nodup_singleton _) ?_
              simpa using fun hmem => Nat.lt_irrefl _ (behind _ hmem)
            · simpa [or_imp, forall_and, hlength] using fun n hn => Nat.lt_succ_of_lt (behind n hn)
      | @behind text' ending hsome _ settles ending' now =>
          cases prelude_eq.symm.trans hsome
          rw [List.map_cons, List.map_singleton, (Ending.settles_iff ending).mp settles]
          exact .applied prelude_eq now (hbehind behind) ((OwnSources.nil once).next behind _)
  | running prelude_eq never =>
      -- An attempt that does not end keeps the slot, and nobody gets to evaluate anything.
      obtain ⟨hstays, rfl⟩ := hnever never
      rw [List.map_nil, List.append_nil]
      exact .running prelude_eq hstays
  | applied prelude_eq applied behind own =>
      rw [List.append_assoc, List.cons_append]
      cases hlogs with
      | nothing unchanged =>
          rw [List.map_nil, List.append_nil]
          exact .applied prelude_eq (unchanged.trans applied) (hbehind behind)
            (own.mono fun _ _ => OwnSources.getElem?_concat_of_eq_some source)
      | source _ _ still => exact .applied prelude_eq still (hbehind behind) (own.next behind _)
      | failed _ hmissing | behind _ hmissing => cases applied.symm.trans hmissing

theorem Served.prepared {shared shared' : Shared} {session session' : Session State}
    (hfresh : session.slot.preludeApplied = false)
    (h : Served engine config shared session sources episodes shared' session') :
    Prepared engine.prelude sources session'.slot episodes := by
  induction h with
  | nil =>
      cases hprelude : engine.prelude with
      | none => exact .without rfl (.nil .nil)
      | some text =>
          exact @Prepared.missing State (some text) [] session.slot text [] rfl hfresh .nil
            fun _ h => nomatch h
  | concat _ chunk timeout now hresult ih =>
      subst hresult
      exact ih.step (run_logs _ _ _ _ _ _ _) fun hnever => run_logs_of_never _ _ _ hnever _ _ _

end Supervisor

end ReplDaemon
