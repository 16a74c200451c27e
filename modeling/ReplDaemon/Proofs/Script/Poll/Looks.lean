import ReplDaemon.Proofs.Script.Poll.Mirror
import ReplDaemon.Proofs.Script.Watch.Operation

/-!
# Where runs stop

A run is the one that is never cancelled, up to the first look that is told of a cancellation, and stops
there. What is told at an instant of the clock is what an evaluation sees that is cancelled then. And
whatever begins, begins directly behind a look.
-/

namespace ReplDaemon.Script

variable {α β : Type}

section Events

variable {answers : Answers} {number : Nat} {es fs : List Event}

theorem looksIn_append (es fs : List Event) : looksIn (es ++ fs) = looksIn es + looksIn fs := by
  induction es with
  | nil => rw [List.nil_append, looksIn, Nat.zero_add]
  | cons e es ih =>
      cases e with
      | look s =>
          rw [List.cons_append, looksIn, looksIn, ih]
          omega
      | statement | round => exact ih

/-- No look among events is told of a cancellation; there were some looks before. -/
def Silent (answers : Answers) (number : Nat) : List Event → Prop
  | [] => True
  | .look s :: es => answers number s.clock = false ∧ Silent answers (number + 1) es
  | .statement _ :: es | .round _ :: es => Silent answers number es

theorem silent_append_iff :
    Silent answers number (es ++ fs) ↔
      Silent answers number es ∧ Silent answers (number + looksIn es) fs := by
  induction es generalizing number with
  | nil => exact (and_iff_right trivial).symm
  | cons e es ih =>
      cases e with
      | look s =>
          rw [List.cons_append, Silent, Silent, looksIn, ih, and_assoc, Nat.add_assoc,
            Nat.add_comm 1]
      | statement | round => exact ih

theorem silent_start {e : Event} (he : e.isStart = true) : Silent answers number [e] := by
  cases e with
  | look s => cases he
  | statement | round => trivial

/-- Nothing begins but directly behind a look. -/
def Led (es : List Event) : Prop :=
  ∀ (before : List Event) (e : Event) (after : List Event), es = before ++ e :: after →
    e.isStart = true → ∃ (front : List Event) (s : Snapshot), before = front ++ [.look s]

theorem led_nil : Led [] := by
  intro before e after h
  simp at h

theorem led_look (s : Snapshot) : Led [.look s] := by
  intro before e after h he
  obtain ⟨rfl, hcons⟩ | ⟨rest, rfl, hrest⟩ := List.cons_eq_append_iff.mp h
  · cases hcons
    cases he
  · simp at hrest

theorem led_start (s : Snapshot) (e : Event) : Led [.look s, e] := by
  intro before e' after h he
  obtain ⟨rfl, hcons⟩ | ⟨rest, rfl, hrest⟩ := List.cons_eq_append_iff.mp h
  · cases hcons
    cases he
  · obtain ⟨rfl, -⟩ | ⟨rest', rfl, hrest'⟩ := List.cons_eq_append_iff.mp hrest
    · exact ⟨[], s, rfl⟩
    · simp at hrest'

theorem Led.append (hes : Led es) (hfs : Led fs) : Led (es ++ fs) := by
  intro before e after h he
  obtain ⟨rest, rfl, hrest⟩ | ⟨rest, rfl, hrest⟩ := List.append_eq_append_iff.mp h
  · obtain ⟨front, s, rfl⟩ := hfs rest e after hrest he
    exact ⟨es ++ front, s, (List.append_assoc _ _ _).symm⟩
  · obtain ⟨rfl, hcons⟩ | ⟨rest', rfl, -⟩ := List.cons_eq_append_iff.mp hrest
    · obtain ⟨front, s, hfront⟩ := hfs [] e after hcons he
      simp at hfront
    · exact hes before e rest' rfl he

end Events

namespace Poll

variable {p : Poll α} {f : α → Poll β} {answers : Answers} {s t : Snapshot} {log log' : List Event}

theorem bind_ok {x : α} (h : p answers (s, log) = (.ok x, t, log')) :
    (p >>= f) answers (s, log) = f x answers (t, log') :=
  bind_apply_ok (f := fun x => f x answers) h

theorem bind_error {e : Stop} (h : p answers (s, log) = (.error e, t, log')) :
    (p >>= f) answers (s, log) = (.error e, t, log') :=
  bind_apply_error (f := fun x => f x answers) h

theorem look_told (h : answers (looksIn log) s.clock = true) :
    look answers (s, log) = (.error .cancelled, s, log ++ [.look s]) :=
  if_pos h

theorem look_silent (h : answers (looksIn log) s.clock = false) :
    look answers (s, log) = (.ok (), s, log ++ [.look s]) :=
  if_neg (ne_true_of_eq_false h)

/-- What is done, compared with what is done where the evaluation is never cancelled. Either no look is
told of a cancellation, and it is the same; or it stops at the first look that is told of one. -/
inductive Heeds (answers : Answers) (log : List Event)
    (never told : Except Stop α × Snapshot × List Event) : Prop
  | silent (more : List Event) (hlog : never.2.2 = log ++ more)
      (hsilent : Silent answers (looksIn log) more) (hsame : told = never)
  | told (before : List Event) (s : Snapshot) (after : List Event)
      (hlog : never.2.2 = log ++ (before ++ .look s :: after))
      (hbefore : Silent answers (looksIn log) before)
      (htold : answers (looksIn log + looksIn before) s.clock = true)
      (hstop : told = (.error .cancelled, s, log ++ (before ++ [.look s])))

/-- Whatever looks are told, and whatever has been put down before, what is done heeds it. -/
def Heeding (p : Poll α) : Prop :=
  ∀ (answers : Answers) (s : Snapshot) (log : List Event),
    Heeds answers log (p .never (s, log)) (p answers (s, log))

namespace Heeding

theorem exists_log (h : p.Heeding) (s : Snapshot) (log : List Event) :
    ∃ more : List Event, (p .never (s, log)).2.2 = log ++ more := by
  cases h .never s log with
  | silent more hlog => exact ⟨more, hlog⟩
  | told before s after hlog => exact ⟨_, hlog⟩

theorem of (a : Action α) : Heeding (Poll.of a) :=
  fun _ _ log => .silent [] (List.append_nil log).symm trivial rfl

theorem wait (time : Nat) : Heeding (Poll.wait time) :=
  fun _ _ log => .silent [] (List.append_nil log).symm trivial rfl

theorem note {e : Event} (he : e.isStart = true) : Heeding (Poll.note e) :=
  fun _ _ _ => .silent [e] rfl (silent_start he) rfl

theorem look : Heeding Poll.look := by
  intro answers s log
  have hnever : Poll.look .never (s, log) = (.ok (), s, log ++ [.look s]) := look_silent rfl
  rw [hnever]
  cases htold : answers (looksIn log) s.clock with
  | true => exact .told [] s [] rfl trivial htold (look_told htold)
  | false => exact .silent [.look s] rfl ⟨htold, trivial⟩ (look_silent htold)

theorem bind (h : p.Heeding) (hf : ∀ x, (f x).Heeding) : (p >>= f).Heeding := by
  intro answers s log
  rcases hnever : p .never (s, log) with ⟨outcome, t, log'⟩
  have hhead := h answers s log
  rw [hnever] at hhead
  cases hhead with
  | silent more hlog hsilent hsame =>
      obtain rfl : log' = log ++ more := hlog
      cases outcome with
      | error e =>
          rw [bind_error hnever, bind_error hsame]
          exact .silent more rfl hsilent rfl
      | ok x =>
          rw [bind_ok hnever, bind_ok hsame]
          cases hf x answers t (log ++ more) with
          | silent more' hlog' hsilent' hsame' =>
              rw [looksIn_append] at hsilent'
              refine .silent (more ++ more') ?_ (silent_append_iff.mpr ⟨hsilent, hsilent'⟩) hsame'
              rw [hlog', List.append_assoc]
          | told before u after hlog' hbefore htold hstop =>
              rw [looksIn_append] at hbefore htold
              refine .told (more ++ before) u after ?_ (silent_append_iff.mpr ⟨hsilent, hbefore⟩) ?_ ?_
              · rw [hlog', List.append_assoc, List.append_assoc]
              · rw [looksIn_append, ← Nat.add_assoc]
                exact htold
              · rw [hstop, List.append_assoc, List.append_assoc]
  | told before u after hlog hbefore htold hstop =>
      obtain rfl : log' = log ++ (before ++ .look u :: after) := hlog
      rw [bind_error hstop]
      cases outcome with
      | error e =>
          rw [bind_error hnever]
          exact .told before u after rfl hbefore htold rfl
      | ok x =>
          -- what would have followed is put down behind the look, and not done
          obtain ⟨more, hmore⟩ := (hf x).exists_log t (log ++ (before ++ .look u :: after))
          rw [bind_ok hnever]
          refine .told before u (after ++ more) ?_ hbefore htold rfl
          rw [hmore]
          simp only [List.append_assoc, List.cons_append]

theorem nap (left : Nat) : Heeding (Poll.nap left) := by
  induction left using Nat.strong_induction_on with
  | h left ih =>
      rw [Poll.nap]
      refine look.bind fun _ => ?_
      split
      · exact of (pure ())
      · have hslice : 0 < Context.sleepSlice := by decide
        exact (wait _).bind fun _ => ih _ (by omega)

end Heeding

/-- What is built from effects that heed what looks are told heeds it. -/
theorem Mirrors.heeding {a : Action α} (h : Mirrors p a) : p.Heeding := by
  induction h with
  | of ha => exact .of _
  | sleep time => exact .nap _
  | start e he h ih =>
      have hcheckpoint : checkpoint.Heeding := Heeding.look.bind fun _ => .wait 1
      exact hcheckpoint.bind fun _ => (Heeding.note he).bind fun _ => ih
  | bind head tail ihHead ihTail => exact ihHead.bind ihTail

/-- Whatever begins in what is done begins directly behind a look. -/
def Leading (p : Poll α) : Prop :=
  ∀ (answers : Answers) (s : Snapshot) (log : List Event), ∃ more : List Event,
    (p answers (s, log)).2.2 = log ++ more ∧ Led more

namespace Leading

theorem of (a : Action α) : Leading (Poll.of a) :=
  fun _ _ log => ⟨[], (List.append_nil log).symm, led_nil⟩

theorem wait (time : Nat) : Leading (Poll.wait time) :=
  fun _ _ log => ⟨[], (List.append_nil log).symm, led_nil⟩

theorem look : Leading Poll.look := by
  intro answers s log
  refine ⟨[.look s], ?_, led_look s⟩
  cases htold : answers (looksIn log) s.clock with
  | true => rw [look_told htold]
  | false => rw [look_silent htold]

theorem bind (h : p.Leading) (hf : ∀ x, (f x).Leading) : (p >>= f).Leading := by
  intro answers s log
  obtain ⟨more, hlog, hled⟩ := h answers s log
  rcases hp : p answers (s, log) with ⟨e | x, t, log'⟩
  · rw [hp] at hlog
    rw [bind_error hp]
    exact ⟨more, hlog, hled⟩
  · rw [hp] at hlog
    obtain rfl : log' = log ++ more := hlog
    obtain ⟨more', hlog', hled'⟩ := hf x answers t (log ++ more)
    rw [bind_ok hp]
    exact ⟨more ++ more', by rw [hlog', List.append_assoc], hled.append hled'⟩

theorem nap (left : Nat) : Leading (Poll.nap left) := by
  induction left using Nat.strong_induction_on with
  | h left ih =>
      rw [Poll.nap]
      refine look.bind fun _ => ?_
      split
      · exact of (pure ())
      · have hslice : 0 < Context.sleepSlice := by decide
        exact (wait _).bind fun _ => ih _ (by omega)

/-- A checkpoint is what something begins behind. -/
theorem start (h : p.Leading) (e : Event) :
    Leading (checkpoint >>= fun _ => Poll.note e >>= fun _ => p) := by
  intro answers s log
  cases htold : answers (looksIn log) s.clock with
  | true =>
      have hcheckpoint : checkpoint answers (s, log) = (.error .cancelled, s, log ++ [.look s]) :=
        bind_error (look_told htold)
      rw [bind_error hcheckpoint]
      exact ⟨[.look s], rfl, led_look s⟩
  | false =>
      have hcheckpoint : checkpoint answers (s, log) = (.ok (), s.wait 1, log ++ [.look s]) :=
        bind_ok (look_silent htold)
      have hnote : Poll.note e answers (s.wait 1, log ++ [.look s]) =
          (.ok (), s.wait 1, log ++ [.look s] ++ [e]) := rfl
      obtain ⟨more, hlog, hled⟩ := h answers (s.wait 1) (log ++ [.look s] ++ [e])
      rw [bind_ok hcheckpoint, bind_ok hnote, hlog]
      refine ⟨[.look s, e] ++ more, ?_, (led_start s e).append hled⟩
      simp only [List.append_assoc, List.cons_append, List.nil_append]

end Leading

theorem Mirrors.leading {a : Action α} (h : Mirrors p a) : p.Leading := by
  induction h with
  | of ha => exact .of _
  | sleep time => exact .nap _
  | start e he h ih => exact ih.start e
  | bind head tail ihHead ihTail => exact ihHead.bind ihTail

/-- What looks are told where an evaluation is cancelled at some instant, or never, makes something do what
the action does in that evaluation. -/
def Standing (p : Poll α) (a : Action α) : Prop :=
  ∀ (cancelAt : Option Instant) (s : Snapshot) (log : List Event),
    ∃ (t : Snapshot) (more : List Event),
      p (.cancelledAt cancelAt) (s, log) = ((a (s.under cancelAt)).1, t, log ++ more) ∧
        (a (s.under cancelAt)).2 = t.under cancelAt

namespace Standing

variable {a : Action α} {g : α → Action β} {cancelAt : Option Instant}

theorem of (ha : a.Oblivious) : Standing (Poll.of a) a := by
  intro cancelAt s log
  rw [ha s cancelAt]
  exact ⟨(a (s.under none)).2.snapshot, [], by rw [List.append_nil]; rfl, rfl⟩

theorem bind (h : Standing p a) (hf : ∀ x, Standing (f x) (g x)) : Standing (p >>= f) (a >>= g) := by
  intro cancelAt s log
  obtain ⟨t, more, hp, ha⟩ := h cancelAt s log
  rcases hrun : a (s.under cancelAt) with ⟨e | x, w⟩
  · rw [hrun] at hp ha
    rw [bind_error hp, bind_apply_error hrun]
    exact ⟨t, more, rfl, ha⟩
  · rw [hrun] at hp ha
    obtain rfl : w = t.under cancelAt := ha
    obtain ⟨u, more', hp', ha'⟩ := hf x cancelAt t (log ++ more)
    rw [bind_ok hp, bind_apply_ok hrun]
    exact ⟨u, more ++ more', by rw [hp', List.append_assoc], ha'⟩

theorem checkpoint : Standing checkpoint (.ofRun fun _ => Script.checkpoint) := by
  intro cancelAt s log
  have hcancelled : (s.under cancelAt).context.cancelled =
      Answers.cancelledAt cancelAt (looksIn log) s.clock := rfl
  rw [Action.ofRun_apply, Run.checkpoint_apply, hcancelled]
  cases htold : Answers.cancelledAt cancelAt (looksIn log) s.clock with
  | true => exact ⟨s, [.look s], bind_error (look_told htold), rfl⟩
  | false => exact ⟨s.wait 1, [.look s], bind_ok (look_silent htold), rfl⟩

theorem note (e : Event) : Standing (Poll.note e) (pure ()) :=
  fun _ s _ => ⟨s, [e], rfl, rfl⟩

/-- A sleep of what is left of a time. -/
def sleepLeft (left : Nat) (c : Context) : Except Stop Unit × Context :=
  if c.cancelled then (.error .cancelled, c)
  else if (c.sleep left).1 then (.ok (), (c.sleep left).2)
  else (.error .cancelled, (c.sleep left).2)

/-- Behind a slice, a sleep goes on with what is left then. -/
theorem sleepLeft_slice {c : Context} (left : Nat) (hcalm : c.cancelled = false) :
    sleepLeft left c =
      sleepLeft (left - min Context.sleepSlice left) (c.wait (min Context.sleepSlice left)) := by
  rw [sleepLeft, sleepLeft, sleep_slice left hcalm, hcalm]
  cases (c.wait (min Context.sleepSlice left)).cancelled <;> rfl

theorem sleepLeft_zero {c : Context} (hcalm : c.cancelled = false) : sleepLeft 0 c = (.ok (), c) := by
  rw [sleepLeft, sleep_zero hcalm, hcalm]
  rfl

/-- Slice by slice, a sleep is what it is at once. -/
theorem nap (left : Nat) : Standing (Poll.nap left) (.ofRun fun _ => sleepLeft left) := by
  induction left using Nat.strong_induction_on with
  | h left ih =>
      intro cancelAt s log
      have hcancelled : (s.under cancelAt).context.cancelled =
          Answers.cancelledAt cancelAt (looksIn log) s.clock := rfl
      rw [Poll.nap, Action.ofRun_apply]
      cases htold : Answers.cancelledAt cancelAt (looksIn log) s.clock with
      | true =>
          rw [sleepLeft, if_pos (hcancelled.trans htold)]
          exact ⟨s, [.look s], bind_error (look_told htold), rfl⟩
      | false =>
          have hcalm := hcancelled.trans htold
          rw [bind_ok (look_silent htold)]
          by_cases hdone : left = 0
          · subst hdone
            rw [sleepLeft_zero hcalm]
            exact ⟨s, [.look s], rfl, rfl⟩
          · have hslice : 0 < Context.sleepSlice := by decide
            obtain ⟨t, more, hrest, hworld⟩ := ih (left - min Context.sleepSlice left) (by omega)
              cancelAt (s.wait (min Context.sleepSlice left)) (log ++ [.look s])
            rw [if_neg hdone, sleepLeft_slice left hcalm]
            have hlog : log ++ .look s :: more = log ++ [.look s] ++ more := by simp
            exact ⟨t, .look s :: more, hlog ▸ hrest, hworld⟩

end Standing

theorem Mirrors.standing {a : Action α} (h : Mirrors p a) : Standing p a := by
  induction h with
  | of ha => exact .of ha
  | sleep time =>
      have hsleep : sleepFor time = Standing.sleepLeft (time * millisecond) := by
        funext c
        exact Run.sleepFor_apply time c
      rw [hsleep]
      exact .nap _
  | start e he h ih => exact Standing.checkpoint.bind fun _ => (Standing.note e).bind fun _ => ih
  | bind head tail ihHead ihTail => exact ihHead.bind ihTail

end Poll

end ReplDaemon.Script
