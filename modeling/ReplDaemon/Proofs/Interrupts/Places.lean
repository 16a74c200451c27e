import Mathlib.Data.List.Basic
import Mathlib.Data.List.Induction
import Mathlib.Data.List.Nodup
import ReplDaemon.Proofs.Interrupts.Basic

/-!
# Where hooks are

The interrupts are what the history of the threads tells: whether cancellation has been requested, and
which hooks wait. And every hook is in one place at most: it waits, it is ahead of one thread, or it has
been begun.
-/

namespace ReplDaemon.Interrupts

section Histories

variable {Thread : Type} {events front back front' back' : List (Event Thread)}
  {event event' : Event Thread} {hook : Nat}

theorem Event.requests_of_cancels (h : event.cancels = true) : event.requests = true := by
  cases event with
  | cancelled => rfl
  | registered | requested | began | ended | broke => cases h

theorem Event.exists_of_cancels (h : event.cancels = true) :
    ∃ thread taken, event = .cancelled thread taken := by
  cases event with
  | cancelled thread taken => exact ⟨thread, taken, rfl⟩
  | registered | requested | began | ended | broke => cases h

theorem asked_of_swept (h : swept events = true) : asked events = true := by
  obtain ⟨event, hmem, hcancels⟩ := List.any_eq_true.mp h
  exact List.any_eq_true.mpr ⟨event, hmem, event.requests_of_cancels hcancels⟩

@[simp] theorem asked_append : asked (front ++ back) = (asked front || asked back) :=
  List.any_append

@[simp] theorem swept_append : swept (front ++ back) = (swept front || swept back) :=
  List.any_append

@[simp] theorem registrations_append :
    registrations (front ++ back) = registrations front ++ registrations back :=
  List.filterMap_append

@[simp] theorem beginnings_append :
    beginnings (front ++ back) = beginnings front ++ beginnings back :=
  List.filterMap_append

@[simp] theorem asked_singleton (event : Event Thread) : asked [event] = event.requests :=
  Bool.or_false _

@[simp] theorem swept_singleton (event : Event Thread) : swept [event] = event.cancels :=
  Bool.or_false _

@[simp] theorem registrations_singleton (event : Event Thread) :
    registrations [event] = event.registration?.toList := by
  cases event <;> rfl

@[simp] theorem beginnings_singleton (event : Event Thread) :
    beginnings [event] = event.beginning?.toList := by
  cases event <;> rfl

@[simp] theorem early_singleton (event : Event Thread) :
    early [event] = event.registration?.toList := by
  cases event <;> rfl

/-- Once cancellation has been requested, no more hooks are early. -/
theorem early_append (front back : List (Event Thread)) :
    early (front ++ back) = early front ++ if asked front then [] else early back := by
  induction front with
  | nil => rfl
  | cons event front ih =>
      cases hrequests : event.requests with
      | true => simp [early, asked, hrequests]
      | false => simpa [early, asked, hrequests] using ih

theorem early_sublist (events : List (Event Thread)) : (early events).Sublist (registrations events) := by
  induction events with
  | nil => exact .slnil
  | cons event events ih =>
      have hcons : registrations (event :: events) =
          event.registration?.toList ++ registrations events := by
        cases h : event.registration? <;> simp [registrations, h]
      rw [early, hcons]
      split
      · exact List.nil_sublist _
      · exact (List.Sublist.refl _).append ih

theorem exists_first_cancel (h : swept events = true) :
    ∃ front thread taken back, events = front ++ .cancelled thread taken :: back ∧
      swept front = false := by
  induction events with
  | nil => cases h
  | cons event events ih =>
      cases hcancels : event.cancels with
      | true =>
          obtain ⟨thread, taken, rfl⟩ := Event.exists_of_cancels hcancels
          exact ⟨[], thread, taken, events, rfl, rfl⟩
      | false =>
          obtain ⟨front, thread, taken, back, rfl, hfront⟩ := ih (by simpa [swept, hcancels] using h)
          exact ⟨event :: front, thread, taken, back, rfl, by simpa [swept, hcancels] using hfront⟩

/-- There is but one first cancellation. -/
theorem eq_of_first_cancel (heq : front ++ event :: back = front' ++ event' :: back')
    (hfront : swept front = false) (hfront' : swept front' = false) (hcancels : event.cancels = true)
    (hcancels' : event'.cancels = true) : front = front' := by
  rcases List.append_eq_append_iff.mp heq with ⟨between, hbetween, hrest⟩ | ⟨between, hbetween, hrest⟩
  · cases between with
    | nil => rw [hbetween, List.append_nil]
    | cons first between =>
        cases (List.cons.inj hrest).1
        simp [hbetween, swept, hcancels] at hfront'
  · cases between with
    | nil => rw [hbetween, List.append_nil]
    | cons first between =>
        cases (List.cons.inj hrest).1
        simp [hbetween, swept, hcancels'] at hfront

theorem register_of_requested {i : Interrupts Nat} (h : i.requested = true) (hook : Nat) :
    i.register hook = ([hook], i) :=
  if_pos h

theorem register_of_not_requested {i : Interrupts Nat} (h : i.requested = false) (hook : Nat) :
    i.register hook = ([], { i with waiting := i.waiting ++ [hook] }) :=
  if_neg (Bool.eq_false_iff.mp h)

end Histories

namespace Shared

variable {Thread : Type} [DecidableEq Thread] {events front back : List (Event Thread)}
  {event : Event Thread} {s t : Shared Thread} {thread other : Thread} {hook : Nat}

section Steps

@[simp] theorem flatMap_within (hooks : List Nat) (calls : List Call) :
    (Call.within hooks calls).flatMap Call.ahead = hooks ++ calls.flatMap Call.ahead := by
  cases hooks <;> rfl

theorem ahead_setCalls (s : Shared Thread) (thread : Thread) (calls : List Call) :
    (s.setCalls thread calls).ahead = Function.update s.ahead thread (calls.flatMap Call.ahead) := by
  funext other
  by_cases h : other = thread
  · subst h
    simp [ahead, setCalls]
  · simp [ahead, setCalls, h]

theorem ahead_enter (s : Shared Thread) (thread : Thread) (outcome : List Nat × Interrupts Nat) :
    (s.enter thread outcome).ahead =
      Function.update s.ahead thread (outcome.1 ++ s.ahead thread) := by
  rw [ahead, ← flatMap_within, ← ahead_setCalls]
  rfl

/-- A thread that has to run hooks goes on with the first of them. -/
theorem Step.eq_began {left : List Nat} {outer : List Call} (h : Step s event t)
    (hcalls : s.calls thread = ⟨false, hook :: left⟩ :: outer) (hthread : event.thread? = some thread) :
    event = .began thread hook := by
  cases h with
  | register _ able | cancel _ able =>
      cases hthread
      have hrunning : false = true := able ⟨false, hook :: left⟩ (by rw [hcalls]; rfl)
      cases hrunning
  | request => cases hthread
  | begin _ calls =>
      cases hthread
      cases hcalls.symm.trans calls
      rfl
  | finish _ calls | fail _ calls =>
      cases hthread
      cases hcalls.symm.trans calls

/-- What the others do changes nothing about the calls of a thread. -/
theorem Step.calls_eq (h : Step s event t) (hthread : event.thread? ≠ some thread) :
    t.calls thread = s.calls thread := by
  have hset {other : Thread} (calls : List Call) (hother : some other ≠ some thread) :
      (s.setCalls other calls).calls thread = s.calls thread :=
    Function.update_of_ne (fun heq => hother (congrArg some heq.symm)) _ _
  cases h with
  | request => rfl
  | register | cancel | begin | finish | fail => exact hset _ hthread

theorem Run.exists_last (h : Run (events ++ [event]) s) : ∃ u, Run events u ∧ Step u event s := by
  generalize hevents : events ++ [event] = all at h
  cases h with
  | nil => simp at hevents
  | snoc hrun hstep =>
      obtain ⟨rfl, hlast⟩ := List.append_inj' hevents rfl
      cases hlast
      exact ⟨_, hrun, hstep⟩

theorem Run.exists_step (h : Run (front ++ event :: back) s) :
    ∃ u v, Run front u ∧ Step u event v := by
  induction back using List.reverseRecOn generalizing s with
  | nil =>
      obtain ⟨u, hrun, hstep⟩ := h.exists_last
      exact ⟨u, s, hrun, hstep⟩
  | append_singleton back last ih =>
      rw [← List.cons_append, ← List.append_assoc] at h
      obtain ⟨u, hrun, -⟩ := h.exists_last
      exact ih hrun

end Steps

/-- The interrupts are what the history tells: cancellation is requested or not, and the hooks that wait
are the early ones until the first cancellation takes them. -/
structure Recorded (events : List (Event Thread)) (s : Shared Thread) : Prop where
  requested : s.interrupts.requested = asked events
  waiting : s.interrupts.waiting = if swept events then [] else early events
  numbered : registrations events = List.range s.count

omit [DecidableEq Thread] in
theorem Recorded.calm (h : Recorded events s) (hcalm : s.interrupts.requested = false) :
    swept events = false :=
  Bool.eq_false_iff.mpr fun hswept => by simp [h.requested, asked_of_swept hswept] at hcalm

theorem Recorded.step (h : Recorded events s) (hstep : Step s event t) :
    Recorded (events ++ [event]) t := by
  have hrequested := h.requested
  have hwaiting := h.waiting
  have hnumbered := h.numbered
  cases hstep with
  | register thread able =>
      refine ⟨?_, ?_, by simp [hnumbered, Event.registration?, List.range_succ]⟩
      all_goals cases hasked : s.interrupts.requested
      · simp [enter, register_of_not_requested hasked, ← hrequested, hasked, Event.requests]
      · simp [enter, register_of_requested hasked, ← hrequested, hasked]
      · simp [enter, register_of_not_requested hasked, hwaiting, h.calm hasked, early_append,
          ← hrequested, hasked, Event.cancels, Event.registration?]
      · simp [enter, register_of_requested hasked, hwaiting, early_append, ← hrequested, hasked,
          Event.cancels]
  | request =>
      exact ⟨by simp [request, Event.requests], by
        simp [request, hwaiting, early_append, Event.cancels, Event.registration?], by
        simp [hnumbered, Event.registration?]⟩
  | cancel thread able =>
      exact ⟨by simp [enter, cancel, Event.requests], by simp [enter, cancel, Event.cancels], by
        simp [enter, setCalls, hnumbered, Event.registration?]⟩
  | begin thread calls | finish thread calls | fail thread calls =>
      exact ⟨by simp [setCalls, hrequested, Event.requests], by
        simp [setCalls, hwaiting, early_append, Event.cancels, Event.registration?], by
        simp [setCalls, hnumbered, Event.registration?]⟩

theorem Run.recorded (h : Run events s) : Recorded events s := by
  induction h with
  | nil => exact ⟨rfl, rfl, rfl⟩
  | snoc _ hstep ih => exact ih.step hstep

/-- Every hook has one place: it has been begun, it waits, or it is ahead of one thread. Only those that
were ahead when another one has broken down are nowhere. -/
structure Placed (broken : Bool) (begun waiting : List Nat) (ahead : Thread → List Nat)
    (count : Nat) : Prop where
  begun_nodup : begun.Nodup
  waiting_nodup : waiting.Nodup
  ahead_nodup : ∀ thread, (ahead thread).Nodup
  waiting_unbegun : ∀ hook ∈ waiting, hook ∉ begun
  ahead_unbegun : ∀ thread, ∀ hook ∈ ahead thread, hook ∉ begun
  ahead_taken : ∀ thread, ∀ hook ∈ ahead thread, hook ∉ waiting
  alone : ∀ thread other, ∀ hook ∈ ahead thread, hook ∈ ahead other → thread = other
  begun_lt : ∀ hook ∈ begun, hook < count
  waiting_lt : ∀ hook ∈ waiting, hook < count
  ahead_lt : ∀ thread, ∀ hook ∈ ahead thread, hook < count
  kept : broken = false → ∀ hook < count, hook ∈ begun ∨ hook ∈ waiting ∨ ∃ thread, hook ∈ ahead thread

namespace Placed

variable {broken : Bool} {begun waiting rest : List Nat} {ahead : Thread → List Nat} {count : Nat}

theorem exists_mem_update (ahead : Thread → List Nat) (thread : Thread) (hooks : List Nat) (hook : Nat) :
    (∃ other, hook ∈ Function.update ahead thread hooks other) ↔
      hook ∈ hooks ∨ ∃ other, other ≠ thread ∧ hook ∈ ahead other := by
  constructor
  · grind [Function.update_apply]
  · rintro (hmem | ⟨other, hother, hmem⟩)
    · exact ⟨thread, by rwa [Function.update_self]⟩
    · exact ⟨other, by rwa [Function.update_of_ne hother]⟩

omit [DecidableEq Thread] in
theorem wait (h : Placed broken begun waiting ahead count) :
    Placed broken begun (waiting ++ [count]) ahead (count + 1) := by
  cases h
  constructor <;> grind

theorem late (h : Placed broken begun waiting ahead count) (thread : Thread) :
    Placed broken begun waiting (Function.update ahead thread (count :: ahead thread)) (count + 1) := by
  cases h
  constructor
  case kept => simp only [exists_mem_update]; grind
  all_goals grind [Function.update_apply]

theorem take (h : Placed broken begun waiting ahead count) (thread : Thread) :
    Placed broken begun [] (Function.update ahead thread (waiting ++ ahead thread)) count := by
  cases h
  constructor
  case kept => simp only [exists_mem_update]; grind
  all_goals grind [Function.update_apply]

theorem begin (h : Placed broken begun waiting ahead count) (hahead : ahead thread = hook :: rest) :
    Placed broken (begun ++ [hook]) waiting (Function.update ahead thread rest) count := by
  cases h
  constructor
  case kept => simp only [exists_mem_update]; grind
  all_goals grind [Function.update_apply]

theorem fail (h : Placed broken begun waiting ahead count) (hrest : rest.Sublist (ahead thread)) :
    Placed true begun waiting (Function.update ahead thread rest) count := by
  have hnodup := hrest.nodup (h.ahead_nodup thread)
  have hmem := hrest.subset
  cases h
  constructor <;> grind [Function.update_apply]

end Placed

/-- Each step moves hooks from one place to the next. -/
theorem Step.placed (hstep : Step s event t)
    (h : Placed (events.any Event.breaks) (beginnings events) s.interrupts.waiting s.ahead s.count) :
    Placed ((events ++ [event]).any Event.breaks) (beginnings (events ++ [event]))
      t.interrupts.waiting t.ahead t.count := by
  have hbreaks : (events ++ [event]).any Event.breaks = (events.any Event.breaks || event.breaks) := by
    simp
  rw [hbreaks, beginnings_append, beginnings_singleton]
  cases hstep with
  | @register thread able =>
      simp only [Event.breaks, Event.beginning?, Bool.or_false, Option.toList_none, List.append_nil]
      change Placed _ _ _ (s.enter thread (s.interrupts.register s.count)).ahead _
      rw [ahead_enter]
      cases hasked : s.interrupts.requested with
      | false =>
          rw [register_of_not_requested hasked, List.nil_append, Function.update_eq_self]
          exact h.wait
      | true =>
          rw [register_of_requested hasked]
          exact h.late thread
  | request =>
      simp only [Event.breaks, Event.beginning?, Bool.or_false, Option.toList_none, List.append_nil]
      exact h
  | @cancel thread able =>
      simp only [Event.breaks, Event.beginning?, Bool.or_false, Option.toList_none, List.append_nil]
      rw [ahead_enter]
      exact h.take thread
  | @begin thread hook left outer calls =>
      simp only [Event.breaks, Event.beginning?, Bool.or_false, Option.toList_some]
      have hleft : s.ahead thread = hook :: (left ++ outer.flatMap Call.ahead) := by
        rw [ahead, calls]
        rfl
      rw [ahead_setCalls]
      exact h.begin hleft
  | @finish thread left outer calls =>
      simp only [Event.breaks, Event.beginning?, Bool.or_false, Option.toList_none, List.append_nil]
      have hleft : (Call.within left outer).flatMap Call.ahead = s.ahead thread := by
        rw [flatMap_within, ahead, calls]
        rfl
      rw [ahead_setCalls, hleft, Function.update_eq_self]
      exact h
  | @fail thread left outer calls =>
      simp only [Event.breaks, Event.beginning?, Bool.or_true, Option.toList_none, List.append_nil]
      have hleft : (outer.flatMap Call.ahead).Sublist (s.ahead thread) := by
        rw [ahead, calls]
        exact List.sublist_append_right _ _
      rw [ahead_setCalls]
      exact h.fail hleft

theorem Run.placed (h : Run events s) :
    Placed (events.any Event.breaks) (beginnings events) s.interrupts.waiting s.ahead s.count := by
  induction h with
  | nil => constructor <;> simp [start, Interrupts.start, ahead, beginnings]
  | snoc _ hstep ih => exact hstep.placed ih

/-- As long as cancellation has not been requested, no thread has hooks to run and none has been begun. -/
theorem Run.calm (h : Run events s) (hcalm : asked events = false) :
    beginnings events = [] ∧ ∀ thread, s.calls thread = [] := by
  induction h with
  | nil => exact ⟨rfl, fun _ => rfl⟩
  | @snoc events event s t hrun hstep ih =>
      rw [asked_append, Bool.or_eq_false_iff] at hcalm
      obtain ⟨hbegun, hcalls⟩ := ih hcalm.1
      have hrequested : s.interrupts.requested = false := hrun.recorded.requested.trans hcalm.1
      cases hstep with
      | @register thread able =>
          refine ⟨by simp [hbegun, Event.beginning?], fun other => ?_⟩
          have hcalls' : Function.update s.calls thread (s.calls thread) other = [] := by
            rw [Function.update_eq_self, hcalls]
          simpa [enter, setCalls, register_of_not_requested hrequested, Call.within] using hcalls'
      | request | cancel => simp [Event.requests] at hcalm
      | begin _ calls | finish _ calls | fail _ calls => simp [hcalls] at calls

end Shared

end ReplDaemon.Interrupts
