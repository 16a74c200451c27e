import Mathlib.Logic.Relation
import ReplDaemon.Proofs.Supervisor.Later
import ReplDaemon.Proofs.Traffic.Invariants

/-!
# Requests one after the other

Where each request is sent when the one before it is answered, what the supervisor does is one of the
runs of the session: its answers are answers of that run, and it leaves the same behind. So what holds of
every run holds of the supervisor.
-/

namespace ReplDaemon

variable {State : Type} {engine : Engine Unit State} {config : SupervisorConfig}

namespace Slot

/-- The slot behind its lock. -/
def lockedBy (slot : Slot State) (holder : Option Nat) : LockedSlot State where
  holder
  state := slot.state
  preludeApplied := slot.preludeApplied

/-- The slot as the workers find it: free, unless it will never be. -/
def LockedAs (slot : Slot State) (locked : LockedSlot State) : Prop :=
  match slot.freeAt with
  | some _ => locked = slot.lockedBy none
  | none => locked.holder ≠ none

end Slot

namespace Worker

open Supervisor (Work evaluateSource evaluateBoth work)

variable {number : Nat} {slot locked : LockedSlot State} {w v : Worker}

/-- Some steps of a worker lead from one state of the slot and of the worker to another. -/
def Reaches (engine : Engine Unit State) (number : Nat) :
    LockedSlot State × Worker → LockedSlot State × Worker → Prop :=
  Relation.ReflTransGen fun p q => ∃ act, Step engine number p.1 p.2 act q.1 q.2

theorem Step.reaches {act : Act} (h : Step engine number slot w act locked v) :
    Reaches engine number (slot, w) (locked, v) :=
  .single ⟨act, h⟩

/-- A worker inside an evaluation writes some texts. -/
theorem reaches_writes {part : Part} (hphase : w.phase = .evaluating part) (texts : List String) :
    Reaches engine number (slot, w)
      (slot, { w with output := texts.foldl Capture.write w.output }) := by
  induction texts generalizing w with
  | nil => exact .refl
  | cons text texts ih => exact (Step.write hphase text).reaches.trans (ih hphase)

/-- The worker has come to what the work comes to, and the slot as well. -/
structure Lands (work : Work Unit State) (locked : LockedSlot State) (w : Worker) : Prop where
  slot : ({ work.slot with freeAt := work.doneAt } : Slot State).LockedAs locked
  done : ∀ t, work.doneAt = some t → w.phase = .done work.ending ∧ w.output = work.context.output

/-- The worker may come to what the work comes to. -/
def Comes (engine : Engine Unit State) (number : Nat) (p : LockedSlot State × Worker)
    (work : Work Unit State) : Prop :=
  ∃ q, Reaches engine number p q ∧ Lands work q.1 q.2

theorem Comes.before {p q : LockedSlot State × Worker} {work : Work Unit State}
    (h : Reaches engine number p q) (hq : Comes engine number q work) :
    Comes engine number p work := by
  obtain ⟨last, hreaches, hlands⟩ := hq
  exact ⟨last, h.trans hreaches, hlands⟩

theorem Step.comes {act : Act} {work : Work Unit State} (h : Step engine number slot w act locked v)
    (hq : Comes engine number (locked, v) work) : Comes engine number (slot, w) work :=
  hq.before h.reaches

/-- A worker inside an evaluation writes what is reported and ends as reported, if that is an end. -/
theorem comes_report {part : Part} {r : Report Unit State} (hphase : w.phase = .evaluating part)
    (hlast : part = .prelude → r.ending.settles = false) (hholder : slot.holder = some number)
    (hwritten : ∃ texts : List String, r.context.output = texts.foldl Capture.write w.output) :
    Comes engine number (slot, w) (.ofReport r slot.preludeApplied) := by
  rcases Supervisor.doneAt_cases (.ofReport r slot.preludeApplied) with ⟨_, hdone⟩ | ⟨hends, hdone⟩
  · refine ⟨(slot, w), .refl, ?_, fun t ht => nomatch hdone.symm.trans ht⟩
    simp [Slot.LockedAs, hdone, hholder]
  · obtain ⟨texts, htexts⟩ := hwritten
    have hphase' : ({ w with output := texts.foldl Capture.write w.output } : Worker).phase =
        .evaluating part := hphase
    refine Comes.before (reaches_writes hphase texts)
      ((Step.finish part hphase' r.ending hends hlast r.session).comes ⟨_, .refl, ?_, ?_⟩)
    · simp only [Slot.LockedAs, hdone]
      rfl
    · exact fun _ _ => ⟨rfl, htexts.symm⟩

/-- An admitted worker evaluates its source. -/
theorem comes_source (hengine : engine.Steady) (hphase : w.phase = .admitted)
    (happlied : slot.preludeApplied = true ∨ engine.prelude = none)
    (hholder : slot.holder = some number) {c : Context} (hout : c.output = w.output) :
    Comes engine number (slot, w) (evaluateSource engine w.source ⟨⟩ slot.state c) :=
  (Step.callSource hphase happlied).comes
    (comes_report rfl nofun hholder (hout ▸ (hengine.leads w.source slot.state c).written))

/-- An admitted worker evaluates the prelude and then, unless the prelude does not settle, its source. -/
theorem comes_both (hengine : engine.Steady) (hphase : w.phase = .admitted) {prelude : String}
    (hprelude : engine.prelude = some prelude) (hmissing : slot.preludeApplied = false)
    (hholder : slot.holder = some number) {c : Context} (hout : c.output = w.output) :
    Comes engine number (slot, w) (evaluateBoth engine prelude w.source ⟨⟩ slot.state c) := by
  have hwritten : ∃ texts : List String,
      (engine.evaluate prelude ⟨⟩ slot.state c).context.output = texts.foldl Capture.write w.output :=
    hout ▸ (hengine.leads prelude slot.state c).written
  refine (Step.callPrelude hphase hmissing hprelude).comes ?_
  rw [Supervisor.evaluateBoth_eq]
  generalize engine.evaluate prelude ⟨⟩ slot.state c = r at hwritten
  cases hsettles : r.ending.settles with
  | false =>
      simp only [hsettles, Bool.false_eq_true, if_false]
      rw [← hmissing]
      exact comes_report rfl (fun _ => hsettles) hholder hwritten
  | true =>
      simp only [hsettles, if_true]
      obtain ⟨texts, htexts⟩ := hwritten
      have happlied : ({ slot with state := r.session, preludeApplied := true } :
          LockedSlot State).preludeApplied = true := rfl
      refine Comes.before (reaches_writes rfl texts)
        ((Step.prepare rfl r.ending hsettles r.session).comes ?_)
      exact comes_source hengine rfl (.inl happlied) hholder
        (w := { w with phase := .admitted, output := (texts.foldl Capture.write w.output).clear })
        (c := { r.context with output := r.context.output.clear }) (congrArg Capture.clear htexts)

/-- A new worker that is not cancelled and finds the slot free comes to what the work comes to. -/
theorem comes_work (hengine : engine.Steady) (number : Nat) (source : String) (slot : Slot State)
    {c : Context} (hcalm : c.cancelled = false) {outputLimit : Nat}
    (hout : c.output = .empty outputLimit) :
    Comes engine number (slot.lockedBy none, .new source outputLimit)
      (work engine source ⟨⟩ slot c) := by
  refine (Step.acquire rfl rfl).comes ((Step.pass rfl rfl).comes ?_)
  rw [work, if_neg (by simp [hcalm])]
  cases happlied : slot.preludeApplied with
  | true =>
      simp only [if_true]
      exact comes_source hengine rfl (.inl happlied) rfl hout
  | false =>
      simp only [Bool.false_eq_true, if_false]
      split
      · next hnone => exact comes_source hengine rfl (.inr hnone) rfl hout
      · next prelude hprelude => exact comes_both hengine rfl hprelude happlied rfl hout

end Worker

namespace Traffic

variable {session : Session State} {s t u : Traffic State} {moves moves' : List Move} {number : Nat}

theorem Run.trans (h : Run engine config s moves t) (h' : Run engine config t moves' u) :
    Run engine config s (moves ++ moves') u := by
  induction h' with
  | nil =>
      rw [List.append_nil]
      exact h
  | snoc _ hstep ih =>
      rw [← List.append_assoc]
      exact ih.snoc hstep

theorem Step.run {move : Move} (h : Step engine config s move t) : Run engine config s [move] t :=
  Run.nil.snoc h

/-- A worker and the slot in a new state. -/
def advance (s : Traffic State) (number : Nat) (p : LockedSlot State × Worker) : Traffic State :=
  { s.setWorker number p.2 with slot := p.1 }

theorem advance_advance (s : Traffic State) (number : Nat) (p q : LockedSlot State × Worker) :
    (s.advance number p).advance number q = s.advance number q := by
  unfold advance setWorker
  simp only [Function.update_idem]

/-- Steps of a worker are moves of the session, and none of them is an answer. -/
theorem exists_run_of_reaches {p q : LockedSlot State × Worker} (h : Worker.Reaches engine number p q)
    (s : Traffic State) :
    ∃ moves, Run engine config (s.advance number p) moves (s.advance number q) ∧
      answers moves = [] := by
  induction h with
  | refl => exact ⟨[], .nil, rfl⟩
  | @tail v w _ hstep ih =>
      obtain ⟨moves, hrun, hanswers⟩ := ih
      obtain ⟨act, hact⟩ := hstep
      have hmove : Step engine config (s.advance number v) (.worked number act)
          ((s.advance number v).advance number w) := .work number (setWorker_self s number v.2) hact
      rw [advance_advance] at hmove
      refine ⟨moves ++ [.worked number act], hrun.snoc hmove, ?_⟩
      rw [answers, List.filterMap_append, ← answers, hanswers]
      rfl

/-- Nobody uses the session, and it is what the supervisor takes it to be. -/
structure Resting (session : Session State) (t : Traffic State) : Prop where
  turn : t.turn = none
  queue : t.queue = []
  pending : t.pending = session.pending
  outputLimit : t.outputLimit = session.outputLimit
  slot : session.slot.LockedAs t.slot

theorem resting_ofSession {session : Session State} (h : session.slot.freeAt.isSome = true) :
    (ofSession session).Resting session := by
  obtain ⟨freeAt, hfree⟩ := Option.isSome_iff_exists.mp h
  refine ⟨rfl, rfl, rfl, rfl, ?_⟩
  unfold Slot.LockedAs
  rw [hfree]
  rfl

/-- A request has arrived and got the turn, and nobody else waits. -/
def opened (t : Traffic State) (chunk : String) (timeout : UInt32) (overdue : Bool) : Traffic State :=
  { t with
    arrivals := t.arrivals + 1
    queue := []
    turn := some ⟨t.arrivals, timeout, overdue⟩
    pending := t.pending ++ [chunk] }

/-- The request that had the turn has given it back. -/
def closed (t : Traffic State) (pending : List String) : Traffic State :=
  { t with turn := none, pending }

/-- What the new worker finds: the slot as it is, and the request's chunk behind those that are
pending. -/
def fresh (t : Traffic State) (chunk : String) : LockedSlot State × Worker :=
  (t.slot, .new (Session.joinChunks (t.pending ++ [chunk])) t.outputLimit)

theorem Resting.run_opened (h : t.Resting session) (chunk : String) (timeout : UInt32) :
    Run engine config t [.arrived t.arrivals, .served t.arrivals]
      ((t.opened chunk timeout false).advance t.arrivals (t.fresh chunk)) := by
  have harrive : Step engine config t (.arrived t.arrivals)
      { t with
        arrivals := t.arrivals + 1
        queue := t.queue ++ [⟨t.arrivals, chunk, timeout⟩] } := .arrive chunk timeout
  rw [h.queue] at harrive
  have hfree : ({ t with
      arrivals := t.arrivals + 1
      queue := [⟨t.arrivals, chunk, timeout⟩] } : Traffic State).turn = none := h.turn
  exact harrive.run.snoc (.serve hfree rfl rfl)

/-- The deadline passes, whatever the worker is doing. -/
theorem step_cancel {timeout : UInt32} (hlimited : (config.deadline timeout).isSome = true)
    (chunk : String) (slot : LockedSlot State) (w : Worker) :
    Step engine config ((t.opened chunk timeout false).advance t.arrivals (slot, w))
      (.cancelled t.arrivals)
      ((t.opened chunk timeout true).advance t.arrivals (slot, { w with cancelled := true })) := by
  have hcurrent : ((t.opened chunk timeout false).advance t.arrivals (slot, w)).turn =
      some ⟨t.arrivals, timeout, false⟩ := rfl
  have hcancel : Step engine config ((t.opened chunk timeout false).advance t.arrivals (slot, w))
      (.cancelled t.arrivals)
      (((t.opened chunk timeout true).advance t.arrivals (slot, w)).advance t.arrivals
        (slot, { w with cancelled := true })) :=
    .cancel hcurrent rfl hlimited (setWorker_self _ _ _)
  rwa [advance_advance] at hcancel

/-- After its deadline a request is answered by one of the timeouts. -/
theorem step_late {outcome : Outcome} {w : Worker}
    (h : outcome = .timedOut ∧ (∃ ending, w.phase = .done ending) ∨ outcome = .probablyTimedOut)
    (chunk : String) (timeout : UInt32) (slot : LockedSlot State) :
    Step engine config ((t.opened chunk timeout true).advance t.arrivals (slot, w))
      (.answered t.arrivals outcome)
      (((t.opened chunk timeout true).advance t.arrivals (slot, w)).closed
        (config.timeoutPolicy.apply (t.pending ++ [chunk]))) := by
  have hcurrent : ((t.opened chunk timeout true).advance t.arrivals (slot, w)).turn =
      some ⟨t.arrivals, timeout, true⟩ := rfl
  rcases h with ⟨rfl, ending, hdone⟩ | rfl
  · exact .stop hcurrent rfl (setWorker_self _ _ _) hdone
  · exact .abandon hcurrent rfl

/-- The session that a request leaves behind rests if nobody has the slot, unless for ever. -/
theorem Resting.closed (h : t.Resting session) {session' : Session State} {pending : List String}
    {p : LockedSlot State × Worker} (hpending : session'.pending = pending)
    (hlimit : session'.outputLimit = session.outputLimit) (hslot : session'.slot.LockedAs p.1)
    (chunk : String) (timeout : UInt32) (overdue : Bool) :
    (((t.opened chunk timeout overdue).advance t.arrivals p).closed pending).Resting session' :=
  ⟨rfl, rfl, hpending.symm, h.outputLimit.trans hlimit.symm, hslot⟩

theorem answers_append (moves moves' : List Move) :
    answers (moves ++ moves') = answers moves ++ answers moves' :=
  List.filterMap_append

/-- What happens to a request between its arrival and its answer. -/
theorem Resting.exists_run (h : t.Resting session) {chunk : String} {timeout : UInt32}
    {outcome : Outcome} (hrun : Run engine config
      ((t.opened chunk timeout false).advance t.arrivals (t.fresh chunk)) moves s)
    (hanswers : answers moves = [])
    (hstep : Step engine config s (.answered t.arrivals outcome) u) :
    ∃ moves, Run engine config t moves u ∧ answers moves = [(t.arrivals, outcome)] := by
  refine ⟨_, (h.run_opened chunk timeout).trans (hrun.snoc hstep), ?_⟩
  rw [answers_append, answers_append, hanswers]
  rfl

/-- What happens to a request whose deadline passes when its worker has come somewhere. -/
theorem Resting.exists_run_late (h : t.Resting session) {chunk : String} {timeout : UInt32}
    (hlimited : (config.deadline timeout).isSome = true) {p q : LockedSlot State × Worker}
    (hbefore : Worker.Reaches engine t.arrivals (t.fresh chunk) p)
    (hafter : Worker.Reaches engine t.arrivals (p.1, { p.2 with cancelled := true }) q)
    {outcome : Outcome} (houtcome : outcome = .timedOut ∧ (∃ ending, q.2.phase = .done ending) ∨
      outcome = .probablyTimedOut) :
    ∃ moves, Run engine config t moves (((t.opened chunk timeout true).advance t.arrivals q).closed
        (config.timeoutPolicy.apply (t.pending ++ [chunk]))) ∧
      answers moves = [(t.arrivals, outcome)] := by
  obtain ⟨moves, hrun, hanswers⟩ := exists_run_of_reaches hbefore (t.opened chunk timeout false)
  obtain ⟨moves', hrun', hanswers'⟩ := exists_run_of_reaches hafter (t.opened chunk timeout true)
  refine h.exists_run ((hrun.snoc (step_cancel hlimited chunk p.1 p.2)).trans hrun') ?_
    (step_late houtcome chunk timeout q.1)
  rw [answers_append, answers_append, hanswers, hanswers']
  rfl

theorem isSome_deadline {timeout : UInt32} {now limit : Instant}
    (h : Supervisor.deadlineAt config timeout now = some limit) :
    (config.deadline timeout).isSome = true := by
  obtain ⟨d, hd, _⟩ := Option.map_eq_some_iff.mp h
  rw [hd, Option.isSome_some]

/-- A request whose worker comes to some work is answered as that work is. -/
theorem Resting.exists_run_of_comes (h : t.Resting session) {chunk : String} {timeout : UInt32}
    {now : Instant} {w : Supervisor.Work Unit State}
    (hcomes : Worker.Comes engine t.arrivals (t.fresh chunk) w) {a : Supervisor.Answer}
    (ha : Supervisor.answer config (Supervisor.deadlineAt config timeout now) w
      (session.pending ++ [chunk]) = some a) {session' : Session State}
    (hpending : session'.pending = a.pending) (hlimit : session'.outputLimit = session.outputLimit)
    (hslot : session'.slot = { w.slot with freeAt := w.doneAt }) :
    ∃ moves u, Run engine config t moves u ∧ answers moves = [(t.arrivals, a.outcome)] ∧
      u.Resting session' := by
  obtain ⟨q, hreaches, hlands⟩ := hcomes
  have hlocked : session'.slot.LockedAs q.1 := hslot ▸ hlands.slot
  rw [← h.pending] at ha
  rcases Supervisor.answer_cases (Supervisor.deadlineAt config timeout now) w (t.pending ++ [chunk])
    with ⟨_, heq⟩ | ⟨limit, done, hat, hdone, heq⟩ | ⟨limit, hat, heq⟩
  · obtain ⟨⟨outcome, kept⟩, hsettle, rfl⟩ := Option.map_eq_some_iff.mp (heq.symm.trans ha)
    obtain ⟨hphase, houtput⟩ : q.2.phase = .done w.ending ∧ q.2.output = w.context.output := by
      rcases Supervisor.doneAt_cases w with ⟨hendless, _⟩ | ⟨_, hdone⟩
      · rw [hendless] at hsettle
        cases hsettle
      · exact hlands.done _ hdone
    obtain ⟨moves, hrun, hanswers⟩ := exists_run_of_reaches hreaches (t.opened chunk timeout false)
    have hcurrent : ((t.opened chunk timeout false).advance t.arrivals q).turn =
      some ⟨t.arrivals, timeout, false⟩ := rfl
    obtain ⟨moves', hrun', hanswers'⟩ := h.exists_run hrun hanswers
      (.answer hcurrent rfl (setWorker_self _ _ _) hphase (houtput ▸ hsettle))
    exact ⟨moves', _, hrun', hanswers', h.closed hpending hlimit hlocked chunk timeout false⟩
  · cases heq.symm.trans ha
    obtain ⟨moves, hrun, hanswers⟩ := h.exists_run_late (isSome_deadline hat) hreaches .refl
      (.inl ⟨rfl, w.ending, (hlands.done done hdone).1⟩)
    exact ⟨moves, _, hrun, hanswers, h.closed (p := (q.1, { q.2 with cancelled := true })) hpending
      hlimit hlocked chunk timeout true⟩
  · cases heq.symm.trans ha
    obtain ⟨moves, hrun, hanswers⟩ := h.exists_run_late (isSome_deadline hat) hreaches .refl
      (.inr rfl)
    exact ⟨moves, _, hrun, hanswers, h.closed (p := (q.1, { q.2 with cancelled := true })) hpending
      hlimit hlocked chunk timeout true⟩

/-- A request whose worker has been cancelled by the time it gets the slot is answered by a timeout. -/
theorem Resting.exists_run_of_cancelled (h : t.Resting session) {chunk : String} {timeout : UInt32}
    {now : Instant} {c : Context} (hat : c.cancelAt = Supervisor.deadlineAt config timeout now)
    (hcancelled : c.cancelled = true) {slot : Slot State} (hfree : t.slot = slot.lockedBy none)
    {w : Supervisor.Work Unit State}
    (hw : w = { ending := .returned (.error .cancelled), shared := ⟨⟩, slot, context := c })
    {a : Supervisor.Answer}
    (ha : Supervisor.answer config (Supervisor.deadlineAt config timeout now) w
      (session.pending ++ [chunk]) = some a) {session' : Session State}
    (hpending : session'.pending = a.pending) (hlimit : session'.outputLimit = session.outputLimit)
    (hslot : session'.slot = { w.slot with freeAt := w.doneAt }) :
    ∃ moves u, Run engine config t moves u ∧ answers moves = [(t.arrivals, a.outcome)] ∧
      u.Resting session' := by
  obtain ⟨limit, hlimited, hpassed⟩ : ∃ limit, c.cancelAt = some limit ∧ limit ≤ c.clock := by
    cases hc : c.cancelAt with
    | none => simp [Context.cancelled, hc] at hcancelled
    | some limit => exact ⟨limit, rfl, by simpa [Context.cancelled, hc] using hcancelled⟩
  have hdone : w.doneAt = some c.clock := by rw [hw, Supervisor.Work.doneAt]
  have hskip : Worker.Reaches engine t.arrivals
      ((t.fresh chunk).1, { (t.fresh chunk).2 with cancelled := true })
      (slot.lockedBy none, { (t.fresh chunk).2 with
        cancelled := true, phase := .done (.returned (.error .cancelled)) }) := by
    rw [fresh, hfree]
    exact (Worker.Step.acquire rfl rfl).reaches.trans (Worker.Step.skip rfl rfl).reaches
  have hlocked : session'.slot.LockedAs (slot.lockedBy none) := by
    rw [hslot, hw]
    rfl
  rw [hat] at hlimited
  rw [← h.pending] at ha
  obtain ⟨hlate, hkept⟩ : (a.outcome = .timedOut ∨ a.outcome = .probablyTimedOut) ∧
      a.pending = config.timeoutPolicy.apply (t.pending ++ [chunk]) := by
    rcases Supervisor.answer_cases (Supervisor.deadlineAt config timeout now) w
      (t.pending ++ [chunk]) with ⟨hin, _⟩ | ⟨_, _, _, _, heq⟩ | ⟨_, _, heq⟩
    · obtain ⟨done, hdone', hlt⟩ := hin limit hlimited
      cases hdone.symm.trans hdone'
      exact absurd hpassed (Nat.not_le_of_lt hlt)
    · cases heq.symm.trans ha
      exact ⟨.inl rfl, rfl⟩
    · cases heq.symm.trans ha
      exact ⟨.inr rfl, rfl⟩
  obtain ⟨moves, hrun, hanswers⟩ := h.exists_run_late (isSome_deadline hlimited) .refl hskip
    (hlate.imp (fun heq => ⟨heq, _, rfl⟩) id)
  exact ⟨moves, _, hrun, hanswers,
    h.closed (hpending.trans hkept) hlimit hlocked chunk timeout true⟩

/-- A worker that waits behind a slot that is never free again comes to no end, and its work has none. -/
theorem Resting.comes_of_never (h : t.Resting session) (hfree : session.slot.freeAt = none)
    (config : SupervisorConfig) (chunk : String) (timeout : UInt32) (now : Instant) :
    Worker.Comes engine t.arrivals (t.fresh chunk)
      (Supervisor.attempt engine config ⟨⟩ session chunk timeout now) := by
  have hslot := h.slot
  rw [Supervisor.attempt_of_never hfree]
  refine ⟨t.fresh chunk, .refl, ?_, fun _ hdone => by cases hdone⟩
  simp only [Slot.LockedAs, hfree] at hslot
  exact hslot

/-- A request that the supervisor answers is answered by a run alike, which leaves the same behind. -/
theorem Resting.exists_run_of_run (h : t.Resting session) (hengine : engine.Steady) {chunk : String}
    {timeout : UInt32} {now : Instant} {r : Supervisor.Result Unit State}
    (hr : r = Supervisor.run engine config ⟨⟩ session chunk timeout now) {outcome : Outcome}
    (houtcome : r.outcome = some outcome) :
    ∃ moves u, Run engine config t moves u ∧ answers moves = [(t.arrivals, outcome)] ∧
      u.Resting r.session := by
  have hlimit : r.session.outputLimit = session.outputLimit :=
    hr ▸ (Supervisor.run_session _ _ _ _ _ _ _).2.2
  cases hfree : session.slot.freeAt with
  | none =>
      have hready : session.slot.ReadyBy now := by
        intro t ht
        cases hfree.symm.trans ht
      have hcomes : Worker.Comes engine _ _ _ := h.comes_of_never hfree config chunk timeout now
      generalize hw : Supervisor.attempt engine config ⟨⟩ session chunk timeout now = w at hcomes
      rw [Supervisor.run_of_ready hready, hw] at hr
      dsimp only at hr
      cases ha : Supervisor.answer config (Supervisor.deadlineAt config timeout now) w
          (session.pending ++ [chunk]) with
      | none =>
          rw [hr, ha] at houtcome
          cases houtcome
      | some a =>
          rw [ha] at hr
          subst hr
          cases houtcome
          exact h.exists_run_of_comes hcomes ha rfl rfl rfl
  | some freeAt =>
      have hslot := h.slot
      simp only [Slot.LockedAs, hfree] at hslot
      obtain ⟨c, hc⟩ : ∃ c : Context, c =
        { output := .empty session.outputLimit, clock := max now freeAt,
          cancelAt := Supervisor.deadlineAt config timeout now } := ⟨_, rfl⟩
      obtain ⟨w, hw⟩ : ∃ w, w = Supervisor.work engine
        (Session.joinChunks (session.pending ++ [chunk])) ⟨⟩ session.slot c := ⟨_, rfl⟩
      have hat : c.cancelAt = Supervisor.deadlineAt config timeout now := by rw [hc]
      obtain ⟨houtcome', hpending, hslot'⟩ :=
        Supervisor.run_of_free hfree chunk timeout now hc hw rfl
      rw [← hr] at houtcome' hpending hslot'
      rw [hat] at houtcome' hpending
      rw [houtcome] at houtcome'
      obtain ⟨a, ha, rfl⟩ := Option.map_eq_some_iff.mp houtcome'.symm
      rw [ha] at hpending
      cases hcancelled : c.cancelled with
      | false =>
          have hcomes := Worker.comes_work hengine t.arrivals
            (Session.joinChunks (session.pending ++ [chunk])) session.slot hcancelled
            (show c.output = .empty session.outputLimit by rw [hc])
          rw [← hw, ← hslot, ← h.pending, ← h.outputLimit] at hcomes
          exact h.exists_run_of_comes hcomes ha hpending hlimit hslot'
      | true =>
          rw [Supervisor.work, if_pos hcancelled] at hw
          exact h.exists_run_of_cancelled hat hcancelled hslot hw ha hpending hlimit hslot'

theorem Resting.touch (h : t.Resting session) (used : Instant) : t.Resting (session.touch used) :=
  ⟨h.turn, h.queue, h.pending, h.outputLimit, h.slot⟩

/-- The supervisor has answered requests to a session one after the other, at whatever times. -/
inductive Answered (engine : Engine Unit State) (config : SupervisorConfig)
    (session : Session State) : List Outcome → Session State → Prop
  | nil : Answered engine config session [] session
  | snoc {outcomes : List Outcome} {s : Session State} {outcome : Outcome}
      (before : Answered engine config session outcomes s) (used : Instant) (chunk : String)
      (timeout : UInt32) (now : Instant)
      (answer : (Supervisor.run engine config ⟨⟩ (s.touch used) chunk timeout now).outcome =
        some outcome) :
      Answered engine config session (outcomes ++ [outcome])
        (Supervisor.run engine config ⟨⟩ (s.touch used) chunk timeout now).session

/-- Whatever the supervisor answers to requests one after the other is answered by a run of the session,
which leaves the same behind. -/
theorem exists_run_of_answered (hengine : engine.Steady)
    (hfree : session.slot.freeAt.isSome = true) {outcomes : List Outcome} {session' : Session State}
    (h : Answered engine config session outcomes session') :
    ∃ moves t, Run engine config (ofSession session) moves t ∧
      (answers moves).map Prod.snd = outcomes ∧ t.Resting session' := by
  induction h with
  | nil => exact ⟨[], _, .nil, rfl, resting_ofSession hfree⟩
  | snoc _ used chunk timeout now hanswer ih =>
      obtain ⟨moves, t, hrun, hanswers, hrest⟩ := ih
      obtain ⟨moves', u, hrun', hanswers', hrest'⟩ :=
        (hrest.touch used).exists_run_of_run hengine rfl hanswer
      refine ⟨moves ++ moves', u, hrun.trans hrun', ?_, hrest'⟩
      rw [answers_append, List.map_append, hanswers, hanswers']
      rfl

end Traffic

end ReplDaemon
