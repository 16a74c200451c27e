import ReplDaemon.Proofs.Interrupts.Places

/-!
# What becomes of hooks

A hook is begun once at most, and not before cancellation was requested. One that comes too late is what
its thread goes on with; any other waits, and the next cancellation takes it, in the order in which hooks
were registered.
-/

namespace ReplDaemon.Interrupts

/-- There is a cancellation, after some events, that takes a hook. -/
def TakenAfter {Thread : Type} (events : List (Event Thread)) (hook : Nat)
    (front : List (Event Thread)) : Prop :=
  ∃ thread taken back, events = front ++ .cancelled thread taken :: back ∧ hook ∈ taken

section Fates

variable {Thread : Type} [DecidableEq Thread] {events front back : List (Event Thread)}
  {s : Shared Thread} {thread : Thread} {taken : List Nat} {hook : Nat}

omit [DecidableEq Thread] in
theorem mem_early_of_registered (hevents : events = front ++ .registered thread hook :: back)
    (hcalm : asked front = false) : hook ∈ early events := by
  rw [hevents, early_append, hcalm]
  simp [early, Event.requests, Event.registration?]

theorem Shared.Run.not_mem_early (h : Run events s)
    (hevents : events = front ++ .registered thread hook :: back) (hasked : asked front = true) :
    hook ∉ early events := by
  have hnodup : (registrations events).Nodup := h.recorded.numbered ▸ List.nodup_range
  rw [hevents, early_append, hasked, if_pos rfl, List.append_nil]
  rw [hevents, ← List.singleton_append, registrations_append, registrations_append,
    registrations_singleton] at hnodup
  intro hmem
  exact (List.nodup_append.mp hnodup).2.2 hook ((early_sublist front).subset hmem) hook
    (by simp [Event.registration?]) rfl

/-- The first cancellation takes all early hooks, and the others find none. -/
theorem Shared.Run.taken_eq (h : Run (front ++ .cancelled thread taken :: back) s) :
    taken = if swept front then [] else early front := by
  obtain ⟨u, v, hrun, hstep⟩ := h.exists_step
  cases hstep
  exact hrun.recorded.waiting

theorem Shared.Run.pairwise_early (h : Run events s) : (early events).Pairwise (· < ·) := by
  have hnumbered := h.recorded.numbered
  exact (List.pairwise_lt_range (n := s.count)).sublist (hnumbered ▸ early_sublist events)

theorem Shared.Run.takenAfter_iff (h : Run events s) (hswept : swept events = true) :
    ∃ front, ∀ hook before, TakenAfter events hook before ↔ before = front ∧ hook ∈ early events := by
  obtain ⟨front, thread, taken, back, hevents, hfront⟩ := exists_first_cancel hswept
  have hearly : early events = taken := by
    subst hevents
    rw [h.taken_eq, hfront, if_neg Bool.false_ne_true, early_append]
    simp [early, Event.requests]
  refine ⟨front, fun hook before => ⟨?_, ?_⟩⟩
  · rintro ⟨thread', taken', back', hevents', hmem⟩
    have hnone : swept before = false := by
      subst hevents'
      rw [h.taken_eq] at hmem
      cases hbefore : swept before <;> simp_all
    cases eq_of_first_cancel (hevents'.symm.trans hevents) hnone hfront rfl rfl
    rw [hevents] at hevents'
    cases List.append_cancel_left hevents'
    exact ⟨rfl, hearly ▸ hmem⟩
  · rintro ⟨rfl, hmem⟩
    exact ⟨thread, taken, back, hevents, hearly ▸ hmem⟩

/-- A hook that comes too late is ahead of its thread until this does something. -/
theorem Shared.Run.calls_of_late (h : Run (front ++ .registered thread hook :: back) s)
    (hasked : asked front = true) (hback : ∀ event ∈ back, event.thread? ≠ some thread) :
    ∃ outer, s.calls thread = ⟨false, [hook]⟩ :: outer := by
  induction back using List.reverseRecOn generalizing s with
  | nil =>
      obtain ⟨u, hrun, hstep⟩ := h.exists_last
      have hrequested : u.interrupts.requested = true := hrun.recorded.requested.trans hasked
      cases hstep
      refine ⟨u.calls thread, ?_⟩
      simp [enter, setCalls, register_of_requested hrequested, Call.within]
  | append_singleton back last ih =>
      rw [← List.cons_append, ← List.append_assoc] at h
      obtain ⟨u, hrun, hstep⟩ := h.exists_last
      obtain ⟨outer, hcalls⟩ := ih hrun fun event hevent =>
        hback event (List.mem_append_left _ hevent)
      exact ⟨outer, (hstep.calls_eq (hback last (by simp))).trans hcalls⟩

/-- The first thing that its thread does is to run it. -/
theorem Shared.Run.eq_began_of_late {event : Event Thread}
    (h : Run (front ++ .registered thread hook :: back) s) (hasked : asked front = true)
    (hnext : back.find? (·.thread? = some thread) = some event) : event = .began thread hook := by
  obtain ⟨hthread, before, after, rfl, hbefore⟩ := List.find?_eq_some_iff_append.mp hnext
  rw [← List.cons_append, ← List.append_assoc] at h
  obtain ⟨u, v, hrun, hstep⟩ := h.exists_step
  obtain ⟨outer, hcalls⟩ := hrun.calls_of_late hasked fun e he => by simpa using hbefore e he
  exact hstep.eq_began hcalls (by simpa using hthread)

end Fates

/-- What becomes of the hooks. -/
structure HooksKept {Thread : Type} [DecidableEq Thread] (events : List (Event Thread))
    (s : Shared Thread) : Prop where
  once : (beginnings events).Nodup
  requested : ∀ front thread hook back, events = front ++ .began thread hook :: back →
    asked front = true
  /-- A hook that comes too late to wait is what its thread goes on with, and no cancellation takes it. -/
  late : ∀ front thread hook back, events = front ++ .registered thread hook :: back →
    asked front = true →
      (∀ event ∈ back.find? (·.thread? = some thread), event = .began thread hook) ∧
      ((∀ event ∈ back, event.thread? ≠ some thread) → ∃ t, Shared.Step s (.began thread hook) t) ∧
      ∀ before, ¬ TakenAfter events hook before
  /-- Any other hook waits, whether cancellation is requested past the hooks or not, until there is a
  cancellation; and just one takes it. -/
  early : ∀ front thread hook back, events = front ++ .registered thread hook :: back →
    asked front = false →
      if swept back then ∃! before, TakenAfter events hook before
      else hook ∈ s.interrupts.waiting ∧ hook ∉ beginnings events
  inOrder : registrations events = List.range s.count ∧
    ∀ front thread taken back, events = front ++ .cancelled thread taken :: back →
      taken.Pairwise (· < ·)
  /-- Where no hook has broken down and every thread is out of its calls, none has been lost. -/
  kept : events.any Event.breaks = false → (∀ thread, s.calls thread = []) →
    ∀ hook ∈ registrations events, hook ∈ beginnings events ∨ hook ∈ s.interrupts.waiting

/-- Whatever the threads do, hooks are kept. -/
theorem hooksKept {Thread : Type} [DecidableEq Thread] {events : List (Event Thread)}
    {s : Shared Thread} (h : Shared.Run events s) : HooksKept events s where
  once := h.placed.begun_nodup
  requested front thread hook back hevents := by
    subst hevents
    obtain ⟨u, v, hrun, hstep⟩ := h.exists_step
    by_contra hcalm
    have hcalls := (hrun.calm (Bool.eq_false_iff.mpr hcalm)).2 thread
    cases hstep with
    | begin _ calls => simp [hcalls] at calls
  late front thread hook back hevents hasked := by
    refine ⟨fun event hnext => ?_, fun hback => ?_, fun before htaken => ?_⟩
    · exact (hevents ▸ h).eq_began_of_late hasked hnext
    · obtain ⟨outer, hcalls⟩ := (hevents ▸ h).calls_of_late hasked hback
      exact ⟨_, .begin thread hcalls⟩
    · have hswept : swept events = true := by
        obtain ⟨thread', taken, back', heq, -⟩ := htaken
        simp [heq, swept, Event.cancels]
      obtain ⟨first, hfirst⟩ := h.takenAfter_iff hswept
      exact h.not_mem_early hevents hasked ((hfirst hook before).mp htaken).2
  early front thread hook back hevents hcalm := by
    have hmem := mem_early_of_registered hevents hcalm
    have hfront : swept front = false := Bool.eq_false_iff.mpr fun hswept => by
      simp [asked_of_swept hswept] at hcalm
    have hswept : swept events = swept back := by
      rw [hevents, ← List.singleton_append, swept_append, swept_append, hfront, swept_singleton]
      rfl
    split
    · next hback =>
        obtain ⟨first, hfirst⟩ := h.takenAfter_iff (hswept.trans hback)
        exact ⟨first, (hfirst hook first).mpr ⟨rfl, hmem⟩, fun before htaken =>
          ((hfirst hook before).mp htaken).1⟩
    · next hback =>
        have hwaiting : hook ∈ s.interrupts.waiting := by
          rw [h.recorded.waiting, hswept, if_neg hback]
          exact hmem
        exact ⟨hwaiting, h.placed.waiting_unbegun hook hwaiting⟩
  inOrder := by
    refine ⟨h.recorded.numbered, fun front thread taken back hevents => ?_⟩
    subst hevents
    obtain ⟨u, v, hrun, hstep⟩ := h.exists_step
    rw [h.taken_eq]
    split
    · exact .nil
    · exact hrun.pairwise_early
  kept hunbroken hcalls hook hmem := by
    rw [h.recorded.numbered, List.mem_range] at hmem
    rcases h.placed.kept hunbroken hook hmem with hbegun | hwaiting | ⟨thread, hahead⟩
    · exact .inl hbegun
    · exact .inr hwaiting
    · simp [Shared.ahead, hcalls] at hahead

/-- Two threads register a hook each, and cancellation is requested past these. One registers another hook,
which is too late, while the other one cancels; the first hook taken registers one more. -/
def twoThreads : List (Event Nat) :=
  [.registered 0 0, .registered 1 1, .requested, .registered 1 2, .cancelled 0 [0, 1], .began 0 0,
    .registered 0 3, .began 1 2, .began 0 3, .ended 0, .ended 0, .cancelled 1 [], .began 0 1, .ended 1,
    .ended 0]

theorem hooksKept_twoThreads :
    ∃ s, Shared.Run twoThreads s ∧ HooksKept twoThreads s ∧ beginnings twoThreads = [0, 2, 3, 1] := by
  have hstart : Shared.Run ([] : List (Event Nat)) _ := .nil
  have hwaiting := (hstart.snoc (.register 0 nofun)).snoc (.register 1 nofun)
  have htaken := ((hwaiting.snoc .request).snoc (.register 1 nofun)).snoc
    (.cancel 0 nofun)
  have hnested := (htaken.snoc (.begin 0 rfl)).snoc
    (.register 0 (by rintro _ ⟨⟩; rfl))
  have hbegun := (hnested.snoc (.begin 1 rfl)).snoc (.begin 0 rfl)
  have hended := (hbegun.snoc (.finish 0 rfl)).snoc (.finish 0 rfl)
  have hlast := (hended.snoc (.cancel 1 (by rintro _ ⟨⟩; rfl))).snoc
    (.begin 0 rfl)
  have hrun := (hlast.snoc (.finish 1 rfl)).snoc (.finish 0 rfl)
  exact ⟨_, hrun, hooksKept hrun, rfl⟩

end ReplDaemon.Interrupts
