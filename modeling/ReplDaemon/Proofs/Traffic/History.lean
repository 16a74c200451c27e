import ReplDaemon.Proofs.Traffic.Invariants

/-!
# What is known about a worker

A worker is changed by its own steps and by its cancellation, and by nothing else. So a property that
relates a worker to what has happened so far only has to be kept by these two.
-/

namespace ReplDaemon

variable {Shared State : Type} {engine : Engine Shared State} {config : SupervisorConfig}

namespace Worker

variable {number : Nat} {slot slot' : LockedSlot State} {w w' : Worker} {act : Act}

/-- A worker in front of the checkpoint has done nothing but get the slot. -/
theorem Step.of_isEarly (h : Step engine number slot w act slot' w')
    (hearly : w'.phase.isEarly = true) : w.phase.isEarly = true ∧ act = .acquired := by
  cases h with
  | acquire _ hphase => exact ⟨by rw [hphase, Phase.isEarly], rfl⟩
  | write hphase =>
      have hphase' : w.phase.isEarly = true := hearly
      rw [hphase] at hphase'
      cases hphase'
  | skip | pass | callPrelude | callSource | prepare | finish => cases hearly

/-- A worker that is cancelled in front of the checkpoint does not pass it. -/
theorem Step.stays (h : Step engine number slot w act slot' w') (hearly : w.phase.isEarly = true)
    (hcancelled : w.cancelled = true) :
    (w'.phase.isEarly = true ∨ ∃ ending, w'.phase = .done ending) ∧
      ∀ (part : Part) (text : String), act ≠ .called part text := by
  cases h with
  | acquire => exact ⟨.inl rfl, fun _ _ h => nomatch h⟩
  | skip => exact ⟨.inr ⟨_, rfl⟩, fun _ _ h => nomatch h⟩
  | pass _ hcalm => cases hcalm.symm.trans hcancelled
  | callPrelude hphase | callSource hphase | write hphase | prepare hphase | finish _ hphase =>
      rw [hphase] at hearly
      cases hearly

end Worker

/-- The request whose worker a move changes. -/
def Move.worker? : Move → Option Nat
  | .worked number _ | .cancelled number => some number
  | .arrived _ | .served _ | .answered _ _ => none

namespace Traffic

variable {session : Session State} {moves : List Move} {move : Move} {s t : Traffic State}
  {number : Nat} {w : Worker}

/-- A property of a worker that its steps and its cancellation keep. -/
structure Kept (engine : Engine Shared State) (number outputLimit : Nat)
    (P : List Move → Worker → Prop) : Prop where
  new : ∀ (moves : List Move) (source : String), (∀ m ∈ moves, m.worker? ≠ some number) →
    P moves (.new source outputLimit)
  aside : ∀ (moves : List Move) (move : Move) (w : Worker), move.worker? ≠ some number → P moves w →
    P (moves ++ [move]) w
  work : ∀ (moves : List Move) (slot slot' : LockedSlot State) (w w' : Worker) (act : Act),
    Worker.Step engine number slot w act slot' w' → P moves w →
    P (moves ++ [.worked number act]) w'
  cancel : ∀ (moves : List Move) (w : Worker), P moves w →
    P (moves ++ [.cancelled number]) { w with cancelled := true }

theorem Step.outputLimit_eq (h : Step engine config s move t) : t.outputLimit = s.outputLimit := by
  cases h <;> rfl

theorem Run.outputLimit_eq (h : Run engine config (.ofSession session) moves s) :
    s.outputLimit = session.outputLimit := by
  induction h with
  | nil => rfl
  | snoc _ hstep ih => exact hstep.outputLimit_eq.trans ih

/-- A worker that is missing after a step was missing before, and the step was not its own. -/
theorem Step.workers_eq_none (h : Step engine config s move t) (hnone : t.workers number = none) :
    s.workers number = none ∧ move.worker? ≠ some number := by
  have hset (other : Nat) (w : Worker) (h : (s.setWorker other w).workers number = none) :
      s.workers number = none ∧ some other ≠ some number := by
    by_cases he : number = other
    · rw [he, setWorker_self] at h
      cases h
    · exact ⟨(setWorker_ne s he w).symm.trans h, by simpa using Ne.symm he⟩
  cases h with
  | arrive | answer | stop | abandon => exact ⟨hnone, fun h => nomatch h⟩
  | serve => exact ⟨(hset _ _ hnone).1, fun h => nomatch h⟩
  | work | cancel => exact hset _ _ hnone

/-- A request without a worker has none that has done anything. -/
theorem Run.worker?_ne (h : Run engine config (.ofSession session) moves s) (hnone : s.workers number = none) :
    ∀ m ∈ moves, m.worker? ≠ some number := by
  induction h with
  | nil => simp
  | snoc _ hstep ih =>
      obtain ⟨hbefore, hmove⟩ := hstep.workers_eq_none hnone
      intro m hm
      rcases List.mem_append.mp hm with hm | hm
      · exact ih hbefore m hm
      · rwa [List.mem_singleton.mp hm]

/-- What is kept holds of every worker. -/
theorem Run.kept {P : List Move → Worker → Prop} (h : Run engine config (.ofSession session) moves s)
    (hP : Kept engine number session.outputLimit P) (hw : s.workers number = some w) :
    P moves w := by
  induction h generalizing w with
  | nil => cases hw
  | @snoc moves _ s _ hrun hstep ih =>
      cases hstep with
      | arrive | answer | stop | abandon => exact hP.aside _ _ _ (fun h => nomatch h) (ih hw)
      | @serve first _ _ _ hqueue =>
          refine hP.aside _ _ _ (fun h => nomatch h) ?_
          rcases setWorker_cases hw with ⟨rfl, rfl⟩ | ⟨-, hw⟩
          · have hnone := hrun.sound.numbered.workers_eq_none (r := first) (by simp [hqueue])
            rw [hrun.outputLimit_eq]
            exact hP.new _ _ (hrun.worker?_ne hnone)
          · exact ih hw
      | work _ hworker hwork =>
          rcases setWorker_cases hw with ⟨rfl, rfl⟩ | ⟨hne, hw⟩
          · exact hP.work _ _ _ _ _ _ hwork (ih hworker)
          · exact hP.aside _ _ _ (by simpa [Move.worker?] using hne.symm) (ih hw)
      | cancel _ _ _ hworker =>
          rcases setWorker_cases hw with ⟨rfl, rfl⟩ | ⟨hne, hw⟩
          · exact hP.cancel _ _ (ih hworker)
          · exact hP.aside _ _ _ (by simpa [Move.worker?] using hne.symm) (ih hw)

/-- A worker that is done has finished. -/
theorem kept_finished (engine : Engine Shared State) (number outputLimit : Nat) :
    Kept engine number outputLimit fun moves w =>
      ∀ ending, w.phase = .done ending → .worked number (.finished ending) ∈ moves where
  new _ _ _ _ hdone := nomatch hdone
  aside _ _ _ _ h ending hdone := List.mem_append_left _ (h ending hdone)
  work moves slot slot' w w' act hstep _ ending hdone := by
    cases hstep with
    | skip | finish =>
        cases hdone
        exact List.mem_append_right _ (List.mem_singleton_self _)
    | write hphase => cases hphase.symm.trans hdone
    | acquire | pass | callPrelude | callSource | prepare => cases hdone
  cancel _ _ h ending hdone := List.mem_append_left _ (h ending hdone)

theorem written_snoc (moves : List Move) (move : Move) :
    written number (moves ++ [move]) = written number moves ++ written number [move] :=
  List.filterMap_append

theorem written_of_ne {move : Move} (h : move.worker? ≠ some number) :
    written number [move] = [] := by
  rcases move with _ | _ | ⟨other, _ | _ | _ | text | _ | _⟩ | _ | _
  case worked.wrote =>
    have hother : other ≠ number := by simpa [Move.worker?] using h
    simp [written, hother]
  all_goals rfl

/-- The output of a worker is what it wrote last. -/
theorem kept_output (engine : Engine Shared State) (number outputLimit : Nat) :
    Kept engine number outputLimit fun moves w =>
      ∃ texts, texts <:+ written number moves ∧
        w.output = texts.foldl Capture.write (.empty outputLimit) where
  new _ _ _ := ⟨[], List.nil_suffix, rfl⟩
  aside moves move w hne h := by
    rwa [written_snoc, written_of_ne hne, List.append_nil]
  work moves slot slot' w w' act hstep h := by
    obtain ⟨texts, hsuffix, houtput⟩ := h
    rw [written_snoc]
    cases hstep with
    | write _ text =>
        have htext : written number [.worked number (.wrote text)] = [text] := by simp [written]
        obtain ⟨before, hbefore⟩ := hsuffix
        refine ⟨texts ++ [text], ⟨before, ?_⟩, ?_⟩
        · rw [htext, ← hbefore, List.append_assoc]
        · rw [List.foldl_append, ← houtput]
          rfl
    | prepare =>
        refine ⟨[], List.nil_suffix, ?_⟩
        change Capture.empty w.output.limit = Capture.empty outputLimit
        rw [houtput, Capture.limit_foldl_write]
        rfl
    | acquire | skip | pass | callPrelude | callSource | finish =>
        refine ⟨texts, ?_, houtput⟩
        rwa [show written number [Move.worked number _] = [] from rfl, List.append_nil]
  cancel moves w h := by
    rw [written_snoc]
    simpa [written] using h

/-- The worker has been cancelled by the time it got the slot. -/
def Late (number : Nat) (moves : List Move) : Prop :=
  ∃ before after, moves = before ++ .worked number .acquired :: after ∧ .cancelled number ∈ before

theorem Late.of_snoc (h : Late number (moves ++ [move])) :
    Late number moves ∨ move = .worked number .acquired ∧ .cancelled number ∈ moves := by
  obtain ⟨before, after, hmoves, hcancelled⟩ := h
  rcases List.eq_nil_or_concat after with rfl | ⟨after, last, rfl⟩
  · obtain ⟨rfl, hlast⟩ := List.append_inj' hmoves rfl
    exact .inr ⟨(List.cons.inj hlast).1, hcancelled⟩
  · rw [List.concat_eq_append, ← List.cons_append, ← List.append_assoc] at hmoves
    exact .inl ⟨before, after, (List.append_inj' hmoves rfl).1, hcancelled⟩

/-- What a worker remembers of its cancellation, of the slot and of its calls. -/
structure Obeys (number : Nat) (moves : List Move) (w : Worker) : Prop where
  cancelled : .cancelled number ∈ moves → w.cancelled = true
  early : w.phase.isEarly = true →
    ∀ (part : Part) (text : String), .worked number (.called part text) ∉ moves
  late : Late number moves → w.cancelled = true ∧
    (w.phase.isEarly = true ∨ ∃ ending, w.phase = .done ending) ∧
    ∀ (part : Part) (text : String), .worked number (.called part text) ∉ moves

theorem mem_snoc_of_ne {other : Move} (hne : other ≠ move) (h : other ∈ moves ++ [move]) :
    other ∈ moves := by
  rcases List.mem_append.mp h with h | h
  · exact h
  · exact absurd (List.mem_singleton.mp h) hne

/-- A worker calls nothing in front of the checkpoint, and once it is cancelled there it does not pass
it. -/
theorem kept_obeys (engine : Engine Shared State) (number outputLimit : Nat) :
    Kept engine number outputLimit (Obeys number) where
  new moves source hnone := by
    have hcalled (part : Part) (text : String) : .worked number (.called part text) ∉ moves :=
      fun hm => hnone _ hm rfl
    refine ⟨fun hm => absurd rfl (hnone _ hm), fun _ => hcalled, ?_⟩
    rintro ⟨before, after, rfl, hcancelled⟩
    exact absurd rfl (hnone _ (List.mem_append_left _ hcancelled))
  aside moves move w hne h := by
    have hcancelled : Move.cancelled number ≠ move := by
      rintro rfl
      exact hne rfl
    have hcalled (part : Part) (text : String) : Move.worked number (.called part text) ≠ move := by
      rintro rfl
      exact hne rfl
    refine ⟨fun hm => h.cancelled (mem_snoc_of_ne hcancelled hm),
      fun hearly part text hm => h.early hearly part text (mem_snoc_of_ne (hcalled part text) hm),
      fun hlate => ?_⟩
    rcases hlate.of_snoc with hlate | ⟨rfl, -⟩
    · obtain ⟨hw, hphase, hcalls⟩ := h.late hlate
      exact ⟨hw, hphase, fun part text hm => hcalls part text (mem_snoc_of_ne (hcalled part text) hm)⟩
    · exact absurd rfl hne
  work moves slot slot' w w' act hstep h := by
    have hne : Move.cancelled number ≠ .worked number act := fun h => nomatch h
    refine ⟨fun hm => hstep.cancelled_eq.trans (h.cancelled (mem_snoc_of_ne hne hm)),
      fun hearly' part text hm => ?_, fun hlate => ?_⟩
    · obtain ⟨hearly, rfl⟩ := hstep.of_isEarly hearly'
      have hne' : Move.worked number (.called part text) ≠ .worked number .acquired :=
        fun h => nomatch h
      exact h.early hearly part text (mem_snoc_of_ne hne' hm)
    · obtain ⟨hwas, hearly, hcalls⟩ : w.cancelled = true ∧ w.phase.isEarly = true ∧
          ∀ (part : Part) (text : String), .worked number (.called part text) ∉ moves := by
        rcases hlate.of_snoc with hlate | ⟨hact, hrequest⟩
        · obtain ⟨hwas, hearly | ⟨ending, hdone⟩, hcalls⟩ := h.late hlate
          · exact ⟨hwas, hearly, hcalls⟩
          · exact absurd hdone (hstep.phase_ne_done ending)
        · cases hact
          have hearly : w.phase.isEarly = true := by
            cases hstep with
            | acquire _ hphase => rw [hphase, Phase.isEarly]
          exact ⟨h.cancelled hrequest, hearly, h.early hearly⟩
      obtain ⟨hphase, hact⟩ := hstep.stays hearly hwas
      refine ⟨hstep.cancelled_eq.trans hwas, hphase, fun part text hm => ?_⟩
      refine hcalls part text (mem_snoc_of_ne ?_ hm)
      rintro ⟨⟩
      exact hact part text rfl
  cancel moves w h := by
    have hcalled (part : Part) (text : String) :
        Move.worked number (.called part text) ≠ .cancelled number := fun h => nomatch h
    refine ⟨fun _ => rfl,
      fun hearly part text hm => h.early hearly part text (mem_snoc_of_ne (hcalled part text) hm),
      fun hlate => ?_⟩
    rcases hlate.of_snoc with hlate | ⟨hacquired, -⟩
    · obtain ⟨-, hphase, hcalls⟩ := h.late hlate
      exact ⟨rfl, hphase, fun part text hm => hcalls part text (mem_snoc_of_ne (hcalled part text) hm)⟩
    · cases hacquired

end Traffic

end ReplDaemon
