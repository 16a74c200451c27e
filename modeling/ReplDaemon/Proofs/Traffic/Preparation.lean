import ReplDaemon.Engine.Rehearsed
import ReplDaemon.Proofs.Supervisor.Preparation
import ReplDaemon.Proofs.Traffic.Invariants

/-!
# The prelude in the traffic

Workers that were left behind and later ones share the slot, and with it the mark that the prelude has
come to an end. Whoever of them gets the slot, in whatever order, and however its evaluations end: the
session begins with attempts at the prelude, one after the other, and goes on with sources only when one
of them has settled.
-/

namespace ReplDaemon

variable {Shared State : Type} {engine : Engine Shared State} {config : SupervisorConfig}

/-- The episode has come to its end, if it is one of that request and not over yet. -/
def Episode.ended (number : Nat) (progress : Progress) (e : Episode) : Episode :=
  if e.number = number ∧ e.progress = .running then { e with progress } else e

/-- What a move adds to the episodes: a call begins one, and it ends when the worker is prepared or
finished. -/
def noted (episodes : List Episode) : Move → List Episode
  | .worked number (.called _ text) => episodes ++ [⟨number, text, .running⟩]
  | .worked number .prepared => episodes.map (.ended number .settled)
  | .worked number (.finished ending) => episodes.map (.ended number ending.progress)
  | _ => episodes

/-- The episodes of a session, in the order in which they have begun. -/
def episodes (moves : List Move) : List Episode :=
  moves.foldl noted []

namespace Episode

variable {number : Nat} {progress : Progress} {sourceOf : Nat → Option String} {failed : List Nat}
  {episodes : List Episode}

theorem ended_number (e : Episode) : (e.ended number progress).number = e.number := by
  unfold ended
  split <;> rfl

theorem ended_text (e : Episode) : (e.ended number progress).text = e.text := by
  unfold ended
  split <;> rfl

theorem ended_of_over {e : Episode} (h : e.progress ≠ .running) : e.ended number progress = e :=
  if_neg fun hrunning => h hrunning.2

theorem ended_of_ne {e : Episode} (h : e.number ≠ number) : e.ended number progress = e :=
  if_neg fun hnumber => h hnumber.1

theorem ended_running (text : String) : (⟨number, text, .running⟩ : Episode).ended number progress =
    ⟨number, text, progress⟩ :=
  if_pos ⟨rfl, rfl⟩

/-- Attempts that have failed are over. -/
theorem map_ended_failures (text : String) (failed : List Nat) :
    (failures text failed).map (.ended number progress) = failures text failed := by
  rw [failures, List.map_map]
  exact List.map_congr_left fun _ _ => ended_of_over nofun

theorem map_number_map_ended (number : Nat) (progress : Progress) (episodes : List Episode) :
    (episodes.map (ended number progress)).map (·.number) = episodes.map (·.number) := by
  rw [List.map_map]
  exact List.map_congr_left fun e _ => e.ended_number

end Episode

/-- Episodes stay what they are of when they come to their ends. -/
theorem OwnSources.map_ended {sourceOf : Nat → Option String} {failed : List Nat}
    {episodes : List Episode} (h : OwnSources sourceOf failed episodes) (number : Nat)
    (progress : Progress) : OwnSources sourceOf failed (episodes.map (.ended number progress)) := by
  refine ⟨fun e he => ?_, by rw [Episode.map_number_map_ended]; exact h.once⟩
  obtain ⟨d, hd, rfl⟩ := List.mem_map.mp he
  rw [d.ended_number, d.ended_text]
  exact h.own d hd

/-- Whether a worker in this phase has begun its last evaluation or will not begin any more. -/
def Phase.isLast : Phase → Bool
  | evaluating .source | done _ => true
  | waiting | holding | admitted | evaluating .prelude => false

namespace Traffic

variable {session : Session State} {moves : List Move} {move : Move} {s t : Traffic State}

/-- The source of a request, once its worker has been started. -/
def sourceOf (s : Traffic State) (number : Nat) : Option String :=
  (s.workers number).map (·.source)

/-- The request's worker evaluates the prelude. -/
def Prepares (s : Traffic State) (number : Nat) : Prop :=
  ∃ w, s.workers number = some w ∧ w.phase = .evaluating .prelude

/-- The request's worker will not begin another evaluation. -/
def Spent (s : Traffic State) (number : Nat) : Prop :=
  ∃ w, s.workers number = some w ∧ w.phase.isLast = true

/-- A later state, in which the same worker evaluates the prelude, if any. -/
structure Continues (s t : Traffic State) : Prop where
  prepares : ∀ number, t.Prepares number ↔ s.Prepares number
  spent : ∀ number, s.Spent number → t.Spent number
  sourceOf : ∀ number text, s.sourceOf number = some text → t.sourceOf number = some text

theorem Continues.of_workers_eq (h : t.workers = s.workers) : s.Continues t := by
  constructor <;> simp [Prepares, Spent, Traffic.sourceOf, h]

theorem Continues.trans {u : Traffic State} (h : s.Continues t) (h' : t.Continues u) : s.Continues u where
  prepares number := (h'.prepares number).trans (h.prepares number)
  spent number hspent := h'.spent number (h.spent number hspent)
  sourceOf number text hsource := h'.sourceOf number text (h.sourceOf number text hsource)

theorem spent_setWorker {number other : Nat} {w w' : Worker} (hw : s.workers number = some w)
    (hlast : w.phase.isLast = true → w'.phase.isLast = true) (h : s.Spent other) :
    (s.setWorker number w').Spent other := by
  obtain ⟨v, hv, hphase⟩ := h
  by_cases he : other = number
  · subst he
    cases hw.symm.trans hv
    exact ⟨w', setWorker_self s other w', hlast hphase⟩
  · exact ⟨v, (setWorker_ne s he w').trans hv, hphase⟩

theorem sourceOf_setWorker {number other : Nat} {w w' : Worker} (hw : s.workers number = some w)
    (hsource : w'.source = w.source) : (s.setWorker number w').sourceOf other = s.sourceOf other := by
  unfold sourceOf
  by_cases he : other = number
  · subst he
    rw [setWorker_self, hw, Option.map_some, Option.map_some, hsource]
  · rw [setWorker_ne s he]

theorem prepares_setWorker_ne {number other : Nat} (he : other ≠ number) (w : Worker) :
    (s.setWorker number w).Prepares other ↔ s.Prepares other := by
  unfold Prepares
  rw [setWorker_ne s he]

theorem prepares_setWorker_self {number : Nat} {w : Worker} :
    (s.setWorker number w).Prepares number ↔ w.phase = .evaluating .prelude := by
  unfold Prepares
  rw [setWorker_self]
  simp

/-- A worker that goes on without beginning or ending an evaluation of the prelude. -/
theorem Continues.of_setWorker {number : Nat} {w w' : Worker}
    (ht : t.workers = (s.setWorker number w').workers) (hw : s.workers number = some w)
    (hsource : w'.source = w.source) (hlast : w.phase.isLast = true → w'.phase.isLast = true)
    (hprepares : w'.phase = .evaluating .prelude ↔ w.phase = .evaluating .prelude) :
    s.Continues t := by
  refine .trans ⟨fun other => ?_, fun _ h => spent_setWorker hw hlast h,
    fun _ _ h => (sourceOf_setWorker hw hsource).trans h⟩ (.of_workers_eq ht)
  by_cases he : other = number
  · subst he
    rw [prepares_setWorker_self, hprepares, Prepares, hw]
    simp
  · exact prepares_setWorker_ne he w'

/-- A new worker waits. -/
theorem Continues.of_new {number : Nat} {source : String} {limit : Nat}
    (ht : t.workers = (s.setWorker number (.new source limit)).workers)
    (hnone : s.workers number = none) : s.Continues t := by
  refine .trans ⟨fun other => ?_, ?_, fun other text h => ?_⟩ (.of_workers_eq ht)
  · by_cases he : other = number
    · subst he
      rw [prepares_setWorker_self, Prepares, hnone]
      simp [Worker.new]
    · exact prepares_setWorker_ne he _
  · rintro other ⟨w, hw, hlast⟩
    refine ⟨w, (setWorker_ne s ?_ _).trans hw, hlast⟩
    rintro rfl
    cases hnone.symm.trans hw
  · have hne : other ≠ number := by
      rintro rfl
      rw [Traffic.sourceOf, hnone] at h
      cases h
    rwa [Traffic.sourceOf, setWorker_ne s hne]

/-- The episodes are of sources, and they are the last ones of their requests. -/
structure Last (s : Traffic State) (failed : List Nat) (episodes : List Episode) : Prop where
  own : OwnSources s.sourceOf failed episodes
  spent : ∀ number ∈ failed ++ episodes.map (·.number), s.Spent number

/-- The episodes so far, and what the slot and the workers show of them. -/
inductive Prepared (prelude : Option String) (s : Traffic State) : List Episode → Prop
  | without {episodes : List Episode} (prelude_eq : prelude = none)
      (idle : ∀ number, ¬ s.Prepares number) (last : s.Last [] episodes) :
      Prepared prelude s episodes
  | missing {text : String} {failed : List Nat} (prelude_eq : prelude = some text)
      (unapplied : s.slot.preludeApplied = false) (idle : ∀ number, ¬ s.Prepares number)
      (last : s.Last failed []) : Prepared prelude s (failures text failed)
  | running {text : String} {failed : List Nat} {number : Nat} (prelude_eq : prelude = some text)
      (unapplied : s.slot.preludeApplied = false) (prepares : s.Prepares number)
      (last : s.Last failed []) :
      Prepared prelude s (failures text failed ++ [⟨number, text, .running⟩])
  | applied {text : String} {failed : List Nat} {number : Nat} {episodes : List Episode}
      (prelude_eq : prelude = some text) (applied : s.slot.preludeApplied = true)
      (idle : ∀ number, ¬ s.Prepares number) (last : s.Last failed episodes) :
      Prepared prelude s (failures text failed ++ ⟨number, text, .settled⟩ :: episodes)

variable {prelude : Option String} {number : Nat} {w w' : Worker} {slot : LockedSlot State}
  {log : List Episode}

namespace Last

variable {failed : List Nat} {episodes : List Episode}

theorem carry (h : s.Last failed episodes) (hst : s.Continues t) : t.Last failed episodes :=
  ⟨h.own.mono hst.sourceOf, fun n hn => hst.spent n (h.spent n hn)⟩

theorem ended (h : s.Last failed episodes) (number : Nat) (progress : Progress) :
    s.Last failed (episodes.map (.ended number progress)) :=
  ⟨h.own.map_ended _ _, by rw [Episode.map_number_map_ended]; exact h.spent⟩

/-- The source of a request that had something left to evaluate. -/
theorem concat (h : s.Last failed episodes) (hst : s.Continues t) (unspent : ¬ s.Spent number)
    {text : String} (source : t.sourceOf number = some text) (spent : t.Spent number)
    (progress : Progress) : t.Last failed (episodes ++ [⟨number, text, progress⟩]) := by
  have hlast := h.carry hst
  refine ⟨hlast.own.concat source fun hmem => unspent (h.spent _ hmem), fun n hn => ?_⟩
  rw [List.map_append, ← List.append_assoc] at hn
  rcases List.mem_append.mp hn with hn | hn
  · exact hlast.spent n hn
  · rwa [List.mem_singleton.mp hn]

/-- Without sources only the failed requests count. -/
theorem nil_iff : s.Last failed [] ↔ failed.Nodup ∧ ∀ n ∈ failed, s.Spent n := by
  constructor
  · exact fun h => ⟨by simpa using h.own.once, by simpa using h.spent⟩
  · exact fun h => ⟨.nil h.1, by simpa using h.2⟩

/-- The attempt at the prelude was the request's last evaluation. -/
theorem fail (h : s.Last failed []) (unspent : ¬ s.Spent number)
    (hspent : ∀ n, s.Spent n → t.Spent n) (spent : t.Spent number) :
    t.Last (failed ++ [number]) [] := by
  obtain ⟨honce, hfailed⟩ := nil_iff.mp h
  refine nil_iff.mpr ⟨?_, fun n hn => ?_⟩
  · exact honce.append (List.nodup_singleton _) (by simpa using fun hn => unspent (hfailed _ hn))
  · rcases List.mem_append.mp hn with hn | hn
    · exact hspent n (hfailed n hn)
    · rwa [List.mem_singleton.mp hn]

end Last

theorem Prepared.preludeFirst (h : Prepared prelude s log) :
    PreludeFirst prelude s.sourceOf log := by
  cases h with
  | without prelude_eq _ last => exact .without prelude_eq last.own
  | missing prelude_eq => exact .missing prelude_eq _
  | running prelude_eq => exact .running prelude_eq _ _
  | applied prelude_eq _ _ last => exact .applied prelude_eq _ _ last.own

/-- What is noted stays true as long as the prelude is neither begun nor ended. -/
theorem Prepared.carry (h : Prepared prelude s log) (hst : s.Continues t)
    (happlied : t.slot.preludeApplied = s.slot.preludeApplied) : Prepared prelude t log := by
  have hidle (idle : ∀ n, ¬ s.Prepares n) (n : Nat) : ¬ t.Prepares n :=
    fun hn => idle n ((hst.prepares n).mp hn)
  cases h with
  | without prelude_eq idle last => exact .without prelude_eq (hidle idle) (last.carry hst)
  | missing prelude_eq unapplied idle last =>
      exact .missing prelude_eq (happlied.trans unapplied) (hidle idle) (last.carry hst)
  | running prelude_eq unapplied prepares last =>
      exact .running prelude_eq (happlied.trans unapplied) ((hst.prepares _).mpr prepares)
        (last.carry hst)
  | applied prelude_eq applied idle last =>
      exact .applied prelude_eq (happlied.trans applied) (hidle idle) (last.carry hst)

/-- What is noted stays true when an evaluation ends that is not of the prelude. -/
theorem Prepared.ended (h : Prepared prelude s log) (hidle : ¬ s.Prepares number)
    (progress : Progress) : Prepared prelude s (log.map (.ended number progress)) := by
  cases h with
  | without prelude_eq idle last => exact .without prelude_eq idle (last.ended _ _)
  | missing prelude_eq unapplied idle last =>
      rw [Episode.map_ended_failures]
      exact .missing prelude_eq unapplied idle last
  | @running text failed other prelude_eq unapplied prepares last =>
      have hne : other ≠ number := by
        rintro rfl
        exact hidle prepares
      rw [List.map_append, Episode.map_ended_failures, List.map_singleton, Episode.ended_of_ne hne]
      exact .running prelude_eq unapplied prepares last
  | @applied text _ other _ prelude_eq applied idle last =>
      have hover : (⟨other, text, .settled⟩ : Episode).ended number progress =
          ⟨other, text, .settled⟩ := Episode.ended_of_over nofun
      rw [List.map_append, Episode.map_ended_failures, List.map_cons, hover]
      exact .applied prelude_eq applied idle (last.ended _ _)

theorem not_prepares (hw : s.workers number = some w) (hphase : w.phase ≠ .evaluating .prelude) :
    ¬ s.Prepares number := by
  rintro ⟨v, hv, hprelude⟩
  cases hw.symm.trans hv
  exact hphase hprelude

theorem not_spent (hw : s.workers number = some w) (hphase : w.phase.isLast = false) :
    ¬ s.Spent number := by
  rintro ⟨v, hv, hlast⟩
  cases hw.symm.trans hv
  cases hphase.symm.trans hlast

/-- The worker that evaluates the prelude has the slot, and no other does. -/
theorem SlotHeld.prepares_unique (h : s.SlotHeld) {other : Nat} (hprepares : s.Prepares other)
    (hw : s.workers number = some w) (hslot : w.phase.hasSlot = true) : other = number := by
  obtain ⟨v, hv, hphase⟩ := hprepares
  have hholder := (h.hasSlot_iff hv).mp (by rw [hphase, Phase.hasSlot])
  exact Option.some.inj (hholder.symm.trans ((h.hasSlot_iff hw).mp hslot))

/-- After its attempt at the prelude, nobody else's is under way. -/
theorem SlotHeld.idle_of_prepared (h : s.SlotHeld) (hw : s.workers number = some w)
    (hphase : w.phase = .evaluating .prelude) (hphase' : w'.phase ≠ .evaluating .prelude) (n : Nat) :
    ¬ (s.setWorker number w').Prepares n := by
  intro hprepares
  by_cases he : n = number
  · subst he
    exact hphase' (prepares_setWorker_self.mp hprepares)
  · rw [prepares_setWorker_ne he] at hprepares
    exact he (h.prepares_unique hprepares hw (by rw [hphase, Phase.hasSlot]))

/-- An admitted worker begins an attempt at the prelude. -/
theorem Prepared.callPrelude (h : Prepared prelude s log) (hs : s.SlotHeld) {text : String}
    (hw : s.workers number = some w) (hphase : w.phase = .admitted)
    (hmissing : s.slot.preludeApplied = false) (hprelude : prelude = some text) :
    Prepared prelude (s.setWorker number { w with phase := .evaluating .prelude })
      (log ++ [⟨number, text, .running⟩]) := by
  cases h with
  | without prelude_eq => cases prelude_eq.symm.trans hprelude
  | missing prelude_eq unapplied _ last =>
      cases prelude_eq.symm.trans hprelude
      obtain ⟨honce, hspent⟩ := Last.nil_iff.mp last
      refine .running prelude_eq unapplied (prepares_setWorker_self.mpr rfl)
        (Last.nil_iff.mpr ⟨honce, fun n hn => ?_⟩)
      exact spent_setWorker hw (fun hlast => by rw [hphase] at hlast; cases hlast) (hspent n hn)
  | running _ _ prepares =>
      -- The worker inside the prelude has the slot, so no other one is admitted.
      cases hs.prepares_unique prepares hw (by rw [hphase, Phase.hasSlot])
      exact absurd prepares (not_prepares hw (by simp [hphase]))
  | applied _ applied => cases applied.symm.trans hmissing

/-- An admitted worker whose session is prepared begins the evaluation of its source. -/
theorem Prepared.callSource (h : Prepared prelude s log) (hw : s.workers number = some w)
    (hphase : w.phase = .admitted) (hready : s.slot.preludeApplied = true ∨ prelude = none) :
    Prepared prelude
      { s.setWorker number { w with phase := .evaluating .source } with
        slot := { s.slot with preludeApplied := true } }
      (log ++ [⟨number, w.source, .running⟩]) := by
  generalize hw' : ({ w with phase := .evaluating .source } : Worker) = w'
  generalize ht : ({ s.setWorker number w' with
    slot := { s.slot with preludeApplied := true } } : Traffic State) = t
  have hworkers : t.workers number = some w' := ht ▸ setWorker_self s number w'
  have hst : s.Continues t := by
    rw [← ht]
    exact .of_setWorker rfl hw (by rw [← hw']) (fun _ => by rw [← hw', Phase.isLast])
      (by rw [← hw', hphase]; simp)
  have hidle (idle : ∀ n, ¬ s.Prepares n) (n : Nat) : ¬ t.Prepares n :=
    fun hn => idle n ((hst.prepares n).mp hn)
  have hsource : t.sourceOf number = some w.source := by
    rw [sourceOf, hworkers, Option.map_some, ← hw']
  have hspent : t.Spent number := ⟨w', hworkers, by rw [← hw', Phase.isLast]⟩
  have hunspent : ¬ s.Spent number := not_spent hw (by rw [hphase, Phase.isLast])
  cases h with
  | without prelude_eq idle last =>
      exact .without prelude_eq (hidle idle) (last.concat hst hunspent hsource hspent _)
  | missing prelude_eq unapplied | running prelude_eq unapplied =>
      rcases hready with happlied | hnone
      · cases unapplied.symm.trans happlied
      · cases hnone.symm.trans prelude_eq
  | applied prelude_eq _ idle last =>
      rw [List.append_assoc, List.cons_append]
      exact .applied prelude_eq (by rw [← ht]) (hidle idle)
        (last.concat hst hunspent hsource hspent _)

/-- While a worker evaluates the prelude, all attempts before this one have failed. -/
theorem Prepared.exists_failed (h : Prepared prelude s log) (hs : s.SlotHeld)
    (hw : s.workers number = some w) (hphase : w.phase = .evaluating .prelude) :
    ∃ (text : String) (failed : List Nat), prelude = some text ∧
      log = failures text failed ++ [⟨number, text, .running⟩] ∧
      s.slot.preludeApplied = false ∧ s.Last failed [] := by
  have hprepares : s.Prepares number := ⟨w, hw, hphase⟩
  cases h with
  | without _ idle | missing _ _ idle | applied _ _ idle => exact absurd hprepares (idle number)
  | running prelude_eq unapplied prepares last =>
      cases hs.prepares_unique prepares hw (by rw [hphase, Phase.hasSlot])
      exact ⟨_, _, prelude_eq, rfl, unapplied, last⟩

/-- The attempt at the prelude fails. -/
theorem Prepared.fail (h : Prepared prelude s log) (hs : s.SlotHeld)
    (hw : s.workers number = some w) (hphase : w.phase = .evaluating .prelude) {ending : Ending}
    (hends : ending ≠ .endless) (hfails : ending.settles = false)
    (happlied : slot.preludeApplied = s.slot.preludeApplied) :
    Prepared prelude { s.setWorker number { w with phase := .done ending } with slot }
      (log.map (.ended number ending.progress)) := by
  obtain ⟨text, failed, hprelude, rfl, hunapplied, hlast⟩ := h.exists_failed hs hw hphase
  rw [List.map_append, Episode.map_ended_failures, List.map_singleton, Episode.ended_running,
    Ending.progress_of_not_settles hfails hends, ← failures_concat]
  exact .missing hprelude (happlied.trans hunapplied) (hs.idle_of_prepared hw hphase nofun)
    (hlast.fail (not_spent hw (by rw [hphase, Phase.isLast]))
      (fun _ => spent_setWorker hw fun _ => rfl) ⟨_, setWorker_self .., rfl⟩)

/-- The attempt at the prelude settles. -/
theorem Prepared.settle (h : Prepared prelude s log) (hs : s.SlotHeld)
    (hw : s.workers number = some w) (hphase : w.phase = .evaluating .prelude)
    (hphase' : w'.phase = .admitted) (happlied : slot.preludeApplied = true) :
    Prepared prelude { s.setWorker number w' with slot } (log.map (.ended number .settled)) := by
  obtain ⟨text, failed, hprelude, rfl, -, hlast⟩ := h.exists_failed hs hw hphase
  rw [List.map_append, Episode.map_ended_failures, List.map_singleton, Episode.ended_running]
  obtain ⟨honce, hspent⟩ := Last.nil_iff.mp hlast
  refine .applied hprelude happlied (hs.idle_of_prepared hw hphase (by simp [hphase']))
    (Last.nil_iff.mpr ⟨honce, fun n hn => ?_⟩)
  exact spent_setWorker hw (fun hlast' => by rw [hphase] at hlast'; cases hlast') (hspent n hn)

/-- What a worker does keeps the prelude in front of the sources. -/
theorem Prepared.work (h : Prepared engine.prelude s log) (hs : s.SlotHeld) {act : Act}
    (hw : s.workers number = some w) (hstep : Worker.Step engine number s.slot w act slot w') :
    Prepared engine.prelude { s.setWorker number w' with slot } (noted log (.worked number act)) := by
  cases hstep with
  | acquire _ hphase | pass hphase =>
      exact h.carry (.of_setWorker rfl hw rfl (by simp [hphase, Phase.isLast]) (by simp [hphase])) rfl
  | skip hphase =>
      have hidle : ¬ s.Prepares number := not_prepares hw (by simp [hphase])
      exact (h.ended hidle _).carry (.of_setWorker rfl hw rfl (fun _ => rfl) (by simp [hphase])) rfl
  | callPrelude hphase hmissing hprelude => exact h.callPrelude hs hw hphase hmissing hprelude
  | callSource hphase hready => exact h.callSource hw hphase hready
  | write => exact h.carry (.of_setWorker rfl hw rfl id .rfl) rfl
  | prepare hphase => exact h.settle hs hw hphase rfl rfl
  | finish part hphase ending hends hfails =>
      cases part with
      | prelude => exact h.fail hs hw hphase hends (hfails rfl) rfl
      | source =>
          have hidle : ¬ s.Prepares number := not_prepares hw (by simp [hphase])
          exact (h.ended hidle _).carry
            (.of_setWorker rfl hw rfl (fun _ => rfl) (by simp [hphase])) rfl

/-- Whatever happens in the session keeps the prelude in front of the sources. -/
theorem Prepared.step (h : Prepared engine.prelude s log) (hnumbered : s.Numbered) (hs : s.SlotHeld)
    (hstep : Step engine config s move t) : Prepared engine.prelude t (noted log move) := by
  cases hstep with
  | arrive | answer | stop | abandon => exact h.carry (.of_workers_eq rfl) rfl
  | @serve first _ _ _ hqueue =>
      have hnone := hnumbered.workers_eq_none (r := first) (by simp [hqueue])
      exact h.carry (.of_new rfl hnone) rfl
  | work number hw hwork => exact h.work hs hw hwork
  | cancel _ _ _ hw => exact h.carry (.of_setWorker rfl hw rfl id .rfl) rfl

theorem episodes_concat (moves : List Move) (move : Move) :
    episodes (moves ++ [move]) = noted (episodes moves) move :=
  List.foldl_concat ..

theorem Run.prepared (hfresh : session.slot.preludeApplied = false)
    (h : Run engine config (.ofSession session) moves s) :
    Prepared engine.prelude s (episodes moves) := by
  induction h with
  | nil =>
      have hidle (number : Nat) : ¬ (ofSession session).Prepares number := by
        rintro ⟨w, hw, -⟩
        cases hw
      have hlast : (ofSession session).Last [] [] := Last.nil_iff.mpr ⟨.nil, fun _ h => nomatch h⟩
      cases hprelude : engine.prelude with
      | none => exact .without rfl hidle hlast
      | some text => exact @Prepared.missing State (some text) _ text [] rfl hfresh hidle hlast
  | snoc hrun hstep ih =>
      rw [episodes_concat]
      exact ih.step hrun.sound.numbered hrun.sound.slotHeld hstep

/-- The prelude comes to an end once, in front of all sources, whatever happens in the session: however
its workers take turns in the slot and end, and also where the supervisor serves one request after the
other. -/
theorem prelude_first (hfresh : session.slot.preludeApplied = false) :
    (∀ (moves : List Move) (s : Traffic State), Run engine config (.ofSession session) moves s →
      PreludeFirst engine.prelude s.sourceOf (episodes moves)) ∧
    ∀ (shared shared' : Shared) (session' : Session State) (sources : List String)
      (log : List Episode), Supervisor.Served engine config shared session sources log shared' session' →
      PreludeFirst engine.prelude (sources[·]?) log :=
  ⟨fun _ _ hrun => (hrun.prepared hfresh).preludeFirst,
    fun _ _ _ _ _ hserved => (hserved.prepared hfresh).preludeFirst⟩

/-- A worker is left behind inside the prelude, which is cancelled late, and the next request makes
another attempt. -/
def secondAttempt : List Move :=
  [.arrived 0, .served 0, .worked 0 .acquired, .worked 0 .admitted, .worked 0 (.called .prelude "p"),
    .cancelled 0, .answered 0 .probablyTimedOut, .arrived 1, .served 1,
    .worked 0 (.finished (.returned (.error .cancelled))), .worked 1 .acquired, .worked 1 .admitted,
    .worked 1 (.called .prelude "p"), .worked 1 .prepared, .worked 1 (.called .source "b")]

theorem prelude_first_secondAttempt :
    let engine := Rehearsed.engine (some "p") none
    let session : Session Unit := .new "k" 0 ⟨⟩ 100 0
    let course : Rehearsed.Course :=
      ⟨[⟨none, .panic none⟩, ⟨none, .answer (.ok .incomplete)⟩, ⟨none, .answer (.error .cancelled)⟩],
        []⟩
    (∃ s, Run engine {} (.ofSession session) secondAttempt s ∧
      PreludeFirst (some "p") s.sourceOf
        [⟨0, "p", .failed⟩, ⟨1, "p", .settled⟩, ⟨1, "b", .running⟩]) ∧
    ∃ shared' session',
      Supervisor.Served engine {} course session ["a", "b"]
        [⟨0, "p", .failed⟩, ⟨1, "p", .settled⟩, ⟨1, "b", .failed⟩] shared' session' ∧
      PreludeFirst (some "p") (["a", "b"][·]?)
        [⟨0, "p", .failed⟩, ⟨1, "p", .settled⟩, ⟨1, "b", .failed⟩] := by
  intro engine session course
  have hfirst := @prelude_first Rehearsed.Course Unit engine {} session rfl
  have hepisodes : episodes secondAttempt =
      [⟨0, "p", .failed⟩, ⟨1, "p", .settled⟩, ⟨1, "b", .running⟩] := by decide
  obtain ⟨s, hrun⟩ : ∃ s, Run engine {} (.ofSession session) secondAttempt s := by
    have hstart : Run engine {} (.ofSession session) [] _ := .nil
    have hleft := ((((((hstart.snoc (.arrive "a" 5)).snoc (.serve rfl rfl rfl)).snoc
      (.work 0 rfl (.acquire rfl rfl))).snoc (.work 0 rfl (.pass rfl rfl))).snoc
      (.work 0 rfl (.callPrelude rfl rfl rfl))).snoc (.cancel rfl rfl rfl rfl)).snoc (.abandon rfl rfl)
    have hfailed := ((hleft.snoc (.arrive "b" 5)).snoc (.serve rfl rfl rfl)).snoc
      (.work 0 rfl (.finish .prelude rfl (.returned (.error .cancelled)) nofun (fun _ => rfl) ⟨⟩))
    exact ⟨_, ((((hfailed.snoc (.work 1 rfl (.acquire rfl rfl))).snoc
      (.work 1 rfl (.pass rfl rfl))).snoc (.work 1 rfl (.callPrelude rfl rfl rfl))).snoc
      (.work 1 rfl (.prepare rfl (.returned (.ok (.completed none))) rfl ⟨⟩))).snoc
      (.work 1 rfl (.callSource rfl (.inl rfl)))⟩
  have hlaw := hfirst.1 secondAttempt s hrun
  rw [hepisodes] at hlaw
  refine ⟨⟨s, hrun, hlaw⟩, ?_⟩
  have hstart : Supervisor.Served engine {} course session [] [] _ _ := .nil
  have hserved := (hstart.concat "a" 0 1 rfl).concat "b" 0 2 rfl
  exact ⟨_, _, hserved, hfirst.2 _ _ _ _ _ hserved⟩

end Traffic

end ReplDaemon
