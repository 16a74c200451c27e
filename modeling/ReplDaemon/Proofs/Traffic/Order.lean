import Mathlib.Data.List.Sort
import ReplDaemon.Engine.Script
import ReplDaemon.Proofs.Supervisor.Run
import ReplDaemon.Proofs.Traffic.History

/-!
# The order of evaluations

The evaluations of one session neither overlap nor change their order, and no response shows the output
of another request, although workers may be left behind and the slot has no queue: a worker that comes
to the slot out of turn has been cancelled before and evaluates nothing.
-/

namespace ReplDaemon

variable {Shared State : Type} {engine : Engine Shared State} {config : SupervisorConfig}

namespace Worker

variable {number : Nat} {slot slot' : LockedSlot State} {w w' : Worker} {act : Act}

/-- The checkpoint lets a worker pass only if it is not cancelled. -/
theorem Step.mayStart (h : Step engine number slot w act slot' w')
    (hmay : w'.phase.mayStart = true) :
    w.phase.mayStart = true ∨ w.phase = .holding ∧ w.cancelled = false := by
  cases h with
  | pass hphase hcalm => exact .inr ⟨hphase, hcalm⟩
  | callPrelude hphase | prepare hphase => exact .inl (by rw [hphase, Phase.mayStart])
  | write => exact .inl hmay
  | acquire | skip | callSource | finish => cases hmay

end Worker

namespace Traffic

variable {session : Session State} {moves : List Move} {move : Move} {s t : Traffic State}
  {number : Nat} {w : Worker}

theorem starts_snoc (moves : List Move) (move : Move) :
    starts (moves ++ [move]) = starts moves ++ starts [move] :=
  List.filterMap_append

/-- A request whose source has come to be evaluated has called for that. -/
theorem exists_called_of_mem_starts (h : number ∈ starts moves) :
    ∃ text, .worked number (.called .source text) ∈ moves := by
  obtain ⟨m, hm, hstart⟩ := List.mem_filterMap.mp h
  rcases m with _ | _ | ⟨other, _ | _ | ⟨_ | _, text⟩ | _ | _ | _⟩ | _ | _
  case worked.called.source =>
    cases hstart
    exact ⟨text, hm⟩
  all_goals cases hstart

/-- A move starts a source only if it is the step of an admitted worker. -/
theorem starts_worked {slot slot' : LockedSlot State} {w' : Worker} {act : Act}
    (h : Worker.Step engine number slot w act slot' w') :
    starts [.worked number act] = [] ∨
      starts [.worked number act] = [number] ∧ w.phase = .admitted ∧
        w'.phase = .evaluating .source := by
  cases h with
  | callSource hphase => exact .inr ⟨rfl, hphase, rfl⟩
  | acquire | skip | pass | callPrelude | write | prepare | finish => exact .inl rfl

/-- Sources are started in the order of the numbers, and a worker that may still start its own has a
number behind all those. -/
structure Started (moves : List Move) (s : Traffic State) : Prop where
  ordered : (starts moves).Pairwise (· < ·)
  behind : ∀ (i : Nat) (w : Worker), s.workers i = some w → w.phase.mayStart = true →
    ∀ k ∈ starts moves, k < i

/-- A worker that is in front of the checkpoint and not cancelled has a number behind those of all
requests whose source has been started. -/
theorem Run.lt_of_calm (h : Run engine config (.ofSession session) moves s) (hw : s.workers number = some w)
    (hphase : w.phase = .holding) (hcalm : w.cancelled = false) :
    ∀ k ∈ starts moves, k < number := by
  intro k hk
  obtain ⟨text, hcalled⟩ := exists_called_of_mem_starts hk
  obtain ⟨turn, hturn, rfl, -⟩ : ∃ turn, s.turn = some turn ∧ turn.number = number ∧
      turn.overdue = false := by
    rcases h.sound.calm _ _ hw hcalm with ⟨ending, hdone⟩ | hturn
    · cases hphase.symm.trans hdone
    · exact hturn
  cases hv : s.workers k with
  | none => exact absurd rfl (h.worker?_ne hv _ hcalled)
  | some v =>
      refine Nat.lt_of_le_of_ne (h.sound.numbered.worker_le_turn turn hturn k v hv) ?_
      rintro rfl
      have hearly : w.phase.isEarly = true := by rw [hphase, Phase.isEarly]
      exact (h.kept (kept_obeys engine _ _) hw).early hearly _ _ hcalled

/-- A move that starts no source may only let a worker come to start its own that has a number behind
those started. -/
theorem Started.aside (h : Started moves s) (hmove : starts [move] = [])
    (hworkers : ∀ (i : Nat) (w : Worker), t.workers i = some w → w.phase.mayStart = true →
      (∃ v, s.workers i = some v ∧ v.phase.mayStart = true) ∨ ∀ k ∈ starts moves, k < i) :
    Started (moves ++ [move]) t := by
  have hstarts : starts (moves ++ [move]) = starts moves := by
    rw [starts_snoc, hmove, List.append_nil]
  refine ⟨hstarts ▸ h.ordered, fun i w hw hmay => ?_⟩
  rw [hstarts]
  rcases hworkers i w hw hmay with ⟨v, hv, hmay'⟩ | hlt
  · exact h.behind i v hv hmay'
  · exact hlt

/-- The worker that starts its source is the only one that could have. -/
theorem Started.start (h : Started moves s) (hslot : s.SlotHeld) {w' : Worker}
    {slot : LockedSlot State} (hw : s.workers number = some w) (hphase : w.phase = .admitted)
    (hphase' : w'.phase = .evaluating .source) (hmove : starts [move] = [number]) :
    Started (moves ++ [move]) { s.setWorker number w' with slot } := by
  have hholds : s.slot.holder = some number := (hslot number).mpr ⟨w, hw, by rw [hphase, Phase.hasSlot]⟩
  have hlt : ∀ k ∈ starts moves, k < number :=
    h.behind number w hw (by rw [hphase, Phase.mayStart])
  constructor
  · rw [starts_snoc, hmove, List.pairwise_append]
    refine ⟨h.ordered, List.pairwise_singleton _ _, fun k hk j hj => ?_⟩
    rw [List.mem_singleton.mp hj]
    exact hlt k hk
  · intro i v hv hmay
    rcases setWorker_cases hv with ⟨-, rfl⟩ | ⟨hne, hv⟩
    · rw [hphase'] at hmay
      cases hmay
    · have hhas : v.phase.hasSlot = true := by
        rcases hv' : v.phase with _ | _ | _ | (_ | _) | _ <;> simp_all [Phase.hasSlot, Phase.mayStart]
      cases hholds.symm.trans ((hslot i).mpr ⟨v, hv, hhas⟩)
      exact absurd rfl hne

theorem Run.started (h : Run engine config (.ofSession session) moves s) : Started moves s := by
  induction h with
  | nil => exact ⟨.nil, fun _ _ h => nomatch h⟩
  | @snoc moves _ s _ hrun hstep ih =>
      cases hstep with
      | arrive | answer | stop | abandon => exact ih.aside rfl fun i w hw hmay => .inl ⟨w, hw, hmay⟩
      | serve =>
          refine ih.aside rfl fun i w hw hmay => ?_
          rcases setWorker_cases hw with ⟨-, rfl⟩ | ⟨-, hw⟩
          · cases hmay
          · exact .inl ⟨w, hw, hmay⟩
      | cancel _ _ _ hworker =>
          refine ih.aside rfl fun i w hw hmay => ?_
          rcases setWorker_cases hw with ⟨rfl, rfl⟩ | ⟨-, hw⟩
          · exact .inl ⟨_, hworker, hmay⟩
          · exact .inl ⟨w, hw, hmay⟩
      | work _ hworker hwork =>
          rcases starts_worked hwork with hmove | ⟨hmove, hphase, hphase'⟩
          · refine ih.aside hmove fun i w hw hmay => ?_
            rcases setWorker_cases hw with ⟨rfl, rfl⟩ | ⟨-, hw⟩
            · rcases hwork.mayStart hmay with hmay' | ⟨hholding, hcalm⟩
              · exact .inl ⟨_, hworker, hmay'⟩
              · exact .inr (hrun.lt_of_calm hworker hholding hcalm)
            · exact .inl ⟨w, hw, hmay⟩
          · exact ih.start hrun.sound.slotHeld hworker hphase hphase' hmove

/-- Requests are numbered as they arrive. -/
theorem Run.arrivals_eq (h : Run engine config (.ofSession session) moves s) :
    ReplDaemon.arrivals moves = List.range s.arrivals := by
  induction h with
  | nil => rfl
  | snoc _ hstep ih =>
      rw [ReplDaemon.arrivals, List.filterMap_append]
      cases hstep with
      | arrive =>
          rw [List.range_succ, ← ih]
          rfl
      | serve | work | cancel | answer | stop | abandon => exact (List.append_nil _).trans ih

/-- Sources are started in the order in which their requests have arrived, each at most once. -/
theorem Run.starts_sublist (h : Run engine config (.ofSession session) moves s) :
    (starts moves).Sublist (ReplDaemon.arrivals moves) := by
  have hordered := h.started.ordered
  have hsubset : starts moves ⊆ List.range s.arrivals := by
    intro k hk
    obtain ⟨text, hcalled⟩ := exists_called_of_mem_starts hk
    cases hw : s.workers k with
    | none => exact absurd rfl (h.worker?_ne hw _ hcalled)
    | some w => exact List.mem_range.mpr (h.sound.numbered.worker_lt k w hw)
  rw [h.arrivals_eq]
  exact List.sublist_of_subperm_of_pairwise (List.subperm_of_subset hordered.nodup hsubset)
    hordered List.pairwise_lt_range

/-- The outcome is one of the timeouts, or else it consists of how the request's own worker has ended and
of texts that this worker has written, the last ones. -/
def OwnOutcome (outputLimit number : Nat) (moves : List Move) (outcome : Outcome) : Prop :=
  outcome = .timedOut ∨ outcome = .probablyTimedOut ∨
    ∃ (ending : Ending) (texts : List String),
      .worked number (.finished ending) ∈ moves ∧ texts <:+ written number moves ∧
        (Supervisor.settle ending (texts.foldl Capture.write (.empty outputLimit)) []).map Prod.fst =
          some outcome

theorem Run.ownOutcome (h : Run engine config (.ofSession session) moves s) {outcome : Outcome}
    (hstep : Step engine config s (.answered number outcome) t) :
    OwnOutcome session.outputLimit number moves outcome := by
  cases hstep with
  | stop => exact .inl rfl
  | abandon => exact .inr (.inl rfl)
  | @answer turn w ending _ pending _ _ hworker hdone hsettled =>
      obtain ⟨texts, hsuffix, houtput⟩ := h.kept (kept_output engine _ _) hworker
      have hfinished := h.kept (kept_finished engine _ _) hworker ending hdone
      refine .inr (.inr ⟨ending, texts, hfinished, hsuffix, ?_⟩)
      rw [← houtput, Supervisor.settle_outcome ending w.output s.pending, hsettled]
      rfl

/-- The state in front of a move. -/
theorem Run.exists_step {before after : List Move}
    (h : Run engine config (.ofSession session) (before ++ move :: after) s) :
    ∃ u v : Traffic State, Run engine config (.ofSession session) before u ∧ Step engine config u move v := by
  induction after using List.reverseRecOn generalizing s with
  | nil =>
      generalize hmoves : before ++ [move] = moves at h
      cases h with
      | nil => simp at hmoves
      | snoc hrun hstep =>
          obtain ⟨rfl, hlast⟩ := List.append_inj' hmoves rfl
          cases hlast
          exact ⟨_, _, hrun, hstep⟩
  | append_singleton after last ih =>
      rw [← List.cons_append, ← List.append_assoc] at h
      generalize hmoves : before ++ move :: after ++ [last] = moves at h
      cases h with
      | nil => simp at hmoves
      | snoc hrun hstep =>
          obtain ⟨rfl, hlast⟩ := List.append_inj' hmoves rfl
          exact ih hrun

/-- The evaluations of one session are in order: in every state at most one worker is inside an
evaluation; sources are started in the order in which their requests have arrived, each at most once; a
worker that was cancelled before it got the slot never evaluates anything; and an answer shows only what
the request's own worker has written. -/
structure Orderly (outputLimit : Nat) (moves : List Move) (s : Traffic State) : Prop where
  alone : ∀ i j : Nat, s.Evaluates i → s.Evaluates j → i = j
  inOrder : (starts moves).Sublist (ReplDaemon.arrivals moves) ∧ (ReplDaemon.arrivals moves).Nodup
  late : ∀ (i : Nat) (before after : List Move), moves = before ++ .worked i .acquired :: after →
    .cancelled i ∈ before → ∀ (part : Part) (text : String), .worked i (.called part text) ∉ moves
  own : ∀ (i : Nat) (outcome : Outcome) (before after : List Move),
    moves = before ++ .answered i outcome :: after → OwnOutcome outputLimit i before outcome

/-- Whatever happens in a session, its evaluations are in order. -/
theorem orderly (h : Run engine config (.ofSession session) moves s) : Orderly session.outputLimit moves s where
  alone _ _ := h.sound.slotHeld.evaluates_unique
  inOrder := ⟨h.starts_sublist, h.arrivals_eq ▸ List.nodup_range⟩
  late i before after hmoves hcancelled part text hcalled := by
    cases hw : s.workers i with
    | none => exact h.worker?_ne hw _ hcalled rfl
    | some w =>
        have hlate : Late i moves := ⟨before, after, hmoves, hcancelled⟩
        exact ((h.kept (kept_obeys engine _ _) hw).late hlate).2.2 part text hcalled
  own i outcome before after hmoves := by
    rw [hmoves] at h
    obtain ⟨u, v, hrun, hstep⟩ := h.exists_step
    exact hrun.ownOutcome hstep

/-- A worker that is left behind inside its evaluation, one that is cancelled while it waits for it, and a
third one that is served. -/
def threeRequests : List Move :=
  [.arrived 0, .served 0, .worked 0 .acquired, .worked 0 .admitted, .worked 0 (.called .source "a"),
    .arrived 1, .cancelled 0, .answered 0 .probablyTimedOut, .served 1, .cancelled 1,
    .worked 0 (.wrote "late"), .worked 0 (.finished (.returned (.ok (.completed none)))),
    .worked 1 .acquired, .worked 1 (.finished (.returned (.error .cancelled))), .answered 1 .timedOut,
    .arrived 2, .served 2, .worked 2 .acquired, .worked 2 .admitted, .worked 2 (.called .source "c"),
    .worked 2 (.wrote "c"), .worked 2 (.finished (.returned (.ok (.completed none)))),
    .answered 2 (.output "c")]

theorem orderly_threeRequests :
    ∃ s, Run (Script.engine []) {} (.ofSession (.new "k" 0 .empty 100 0)) threeRequests s ∧
      Orderly 100 threeRequests s ∧ starts threeRequests = [0, 2] := by
  have hstart : Run (Script.engine []) {} (.ofSession (.new "k" 0 .empty 100 0)) [] _ := .nil
  have hfirst := hstart.snoc (.arrive "a" 5)
  have hcalled := (((hfirst.snoc (.serve rfl rfl rfl)).snoc (.work 0 rfl (.acquire rfl rfl))).snoc
    (.work 0 rfl (.pass rfl rfl))).snoc (.work 0 rfl (.callSource rfl (.inr rfl)))
  have hleft := ((hcalled.snoc (.arrive "b" 5)).snoc (.cancel rfl rfl rfl rfl)).snoc
    (.abandon rfl rfl)
  have hlate := (((hleft.snoc (.serve rfl rfl rfl)).snoc (.cancel rfl rfl rfl rfl)).snoc
    (.work 0 rfl (.write rfl "late"))).snoc
    (.work 0 rfl (.finish .source rfl (.returned (.ok (.completed none))) nofun nofun .empty))
  have hskipped := ((hlate.snoc (.work 1 rfl (.acquire rfl rfl))).snoc
    (.work 1 rfl (.skip rfl rfl))).snoc (.stop rfl rfl rfl rfl)
  have hlast := ((((hskipped.snoc (.arrive "c" 0)).snoc (.serve rfl rfl rfl)).snoc
    (.work 2 rfl (.acquire rfl rfl))).snoc (.work 2 rfl (.pass rfl rfl))).snoc
    (.work 2 rfl (.callSource rfl (.inr rfl)))
  have hrun := ((hlast.snoc (.work 2 rfl (.write rfl "c"))).snoc
    (.work 2 rfl (.finish .source rfl (.returned (.ok (.completed none))) nofun nofun .empty))).snoc
    (.answer rfl rfl rfl rfl rfl)
  exact ⟨_, hrun, orderly hrun, rfl⟩

end Traffic

end ReplDaemon
