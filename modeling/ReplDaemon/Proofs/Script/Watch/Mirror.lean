import ReplDaemon.Proofs.Script.Elapse
import ReplDaemon.Proofs.Script.Watch.Kept
import ReplDaemon.Proofs.Script.Watch.Run

/-!
# What watched runs come to

A watched run comes to exactly what the run comes to, and never to a fault. Where a property of values is
kept by the operations of the language and the variables have it before a run, every value noted has it,
and so have the result and the variables afterwards, however the run ends.
-/

namespace ReplDaemon.Script

namespace Watch

variable {S α β : Type} {noted : Value → Prop} {inv : S → Prop} {post : α → Prop}

/-- Under watch, something comes to the same, in every state that an invariant holds in. The invariant
is kept, all values noted have a property, and so has what it comes to. -/
def Mirrors (noted : Value → Prop) (inv : S → Prop) (post : α → Prop) (w : Watch S α)
    (r : ExceptT Stop (StateM S) α) : Prop :=
  ∀ s before, inv s → ∃ seen,
    w (s, before) = ((r s).1.mapError .stop, ((r s).2, before ++ seen)) ∧
      (∀ v ∈ seen, noted v) ∧ inv (r s).2 ∧ ∀ a, (r s).1 = .ok a → post a

namespace Mirrors

theorem of {r : ExceptT Stop (StateM S) α} (hinv : ∀ s, inv s → inv (r s).2)
    (hpost : Returns post r) : Mirrors noted inv post (.of r) r := by
  intro s before hs
  refine ⟨[], ?_, by simp, hinv s hs, fun a ha => hpost s a ha⟩
  rw [List.append_nil, Watch.of]
  rcases r s with ⟨_ | _, t⟩ <;> rfl

theorem free {r : ExceptT Stop (StateM S) α} (hpost : Returns post r) :
    Mirrors noted (fun _ => True) post (.of r) r :=
  of (fun _ _ => trivial) hpost

theorem pure {a : α} (h : post a) :
    Mirrors noted inv post (Pure.pure a : Watch S α) (Pure.pure a) :=
  of (fun _ hs => hs) (Returns.pure h)

theorem bind {mid : β → Prop} {w : Watch S β} {r : ExceptT Stop (StateM S) β} {f : β → Watch S α}
    {g : β → ExceptT Stop (StateM S) α} (head : Mirrors noted inv mid w r)
    (tail : ∀ b, mid b → Mirrors noted inv post (f b) (g b)) :
    Mirrors noted inv post (w >>= f) (r >>= g) := by
  intro s before hs
  obtain ⟨seen, hw, hseen, hinv, hmid⟩ := head s before hs
  rw [bind_apply, bind_apply]
  rcases hr : r s with ⟨e | b, t⟩
  · rw [hr] at hw hinv
    rw [hw]
    exact ⟨seen, rfl, hseen, hinv, nofun⟩
  · rw [hr] at hw hinv hmid
    obtain ⟨more, hf, hmore, hinv', hpost⟩ := tail b (hmid b rfl) t (before ++ seen) hinv
    rw [hw]
    refine ⟨seen ++ more, ?_, ?_, hinv', hpost⟩
    · rw [← List.append_assoc]
      exact hf
    · exact fun v hv => (List.mem_append.mp hv).elim (hseen v) (hmore v)

/-- The value noted is the one that the evaluation comes to. -/
theorem noting {w : Watch S Value} {r : ExceptT Stop (StateM S) Value}
    (h : Mirrors noted inv noted w r) : Mirrors noted inv noted (.noting w) r := by
  intro s before hs
  obtain ⟨seen, hw, hseen, hinv, hpost⟩ := h s before hs
  rw [Watch.noting, bind_apply, hw]
  rcases hr : r s with ⟨e | v, t⟩
  · rw [hr] at hinv
    exact ⟨seen, rfl, hseen, hinv, nofun⟩
  · rw [hr] at hinv hpost
    have hv := hpost v rfl
    refine ⟨seen ++ [v], ?_, ?_, hinv, hpost⟩
    · rw [← List.append_assoc]
      rfl
    · exact fun u hu => (List.mem_append.mp hu).elim (hseen u)
        fun hlast => List.mem_singleton.mp hlast ▸ hv

theorem fail (e : RuntimeError) {inv : Context → Prop} :
    Mirrors noted inv post (.of (Run.fail e)) (Run.fail e) :=
  of (fun _ hs => hs) (Returns.throw _)

/-- Operations that come to no fault are mirrored by what they come to. -/
theorem ofAttempt {inv : Context → Prop} {x : Attempt α} {y : Except RuntimeError α} (heq : x = .of y)
    (h : ∀ a, y = .ok a → post a) : Mirrors noted inv post (Watch.ofAttempt x) (Run.ofExcept y) := by
  subst heq
  cases y with
  | error e => exact fail e
  | ok a => exact pure (h a rfl)

theorem printLine (s : String) :
    Mirrors noted (fun _ => True) (fun _ => True) (Watch.printLine s)
      (modify (·.printLine s) : Run PUnit) := by
  intro c before _
  refine ⟨[], ?_, by simp, trivial, fun _ _ => trivial⟩
  rw [List.append_nil, Watch.printLine, Capture.writeLineCut_eq]
  rfl

theorem sleepFor (time : Nat) :
    Mirrors noted (fun _ => True) (fun _ => True) (Watch.sleepFor time) (Script.sleepFor time) := by
  intro c before _
  refine ⟨[], ?_, by simp, trivial, fun _ _ => trivial⟩
  rw [List.append_nil, Watch.sleepFor, Run.sleepFor_apply]
  cases hcancelled : c.cancelled with
  | true => rw [sleepSlices_of_cancelled _ _ hcancelled, if_pos rfl]; rfl
  | false =>
      rw [sleepSlices_eq _ _ c (Nat.le_refl _) (Nat.le_add_right _ _) hcancelled,
        Nat.add_sub_cancel_left, if_neg Bool.false_ne_true]
      rcases c.sleep (time * millisecond) with ⟨_ | _, d⟩ <;> rfl

theorem discard {w : Watch S α} {r : ExceptT Stop (StateM S) α} (h : Mirrors noted inv post w r) :
    Mirrors noted inv (fun _ => True) (Functor.discard w) (Functor.discard r) := by
  rw [discard_eq_bind, discard_eq_bind]
  exact h.bind fun _ _ => pure trivial

/-- Something that is mirrored for all variables with the property leaves them alone. -/
theorem ofRun {w : Bindings → Watch Context α} {r : Bindings → Run α}
    (h : ∀ vars : Bindings, vars.All noted → Mirrors noted (fun _ => True) post (w vars) (r vars)) :
    Mirrors noted (fun world : World => world.vars.All noted) post (Watch.ofRun w)
      (Action.ofRun r) := by
  intro world before hvars
  obtain ⟨seen, hw, hseen, -, hpost⟩ := h world.vars hvars world.context before trivial
  refine ⟨seen, ?_, hseen, hvars, hpost⟩
  rw [Watch.ofRun, hw]
  rfl

end Mirrors

end Watch

section Runs

variable {whole part : Value → Prop}

/-- The functions of one argument. -/
def Builtin.isUnary : Builtin → Bool
  | .len | .str | .type | .keys | .chr | .ord | .sleep | .block => true
  | .print | .eprint | .range | .push | .error => false

theorem Builtin.call_of_length_ne {f : Builtin} (hunary : f.isUnary = true) {arguments : List Value}
    (h : arguments.length ≠ 1) : f.call arguments = Run.fail (.wrongArity f 1 arguments.length) := by
  rcases arguments with _ | ⟨first, _ | ⟨second, rest⟩⟩
  · cases f with
    | print | eprint | range | push | error => cases hunary
    | len | str | type | keys | chr | ord | sleep | block => rfl
  · exact absurd rfl h
  · cases f with
    | print | eprint | range | push | error => cases hunary
    | len | str | type | sleep | block => rfl
    | keys | chr | ord => cases first <;> rfl

/-- A function of one argument reads it only where it is there. -/
theorem mirrors_onlyArgument {noted : Value → Prop} {f : Builtin} (hunary : f.isUnary = true)
    {arguments : List Value} {w : Value → Watch Context Value} (post : Value → Prop)
    (h : ∀ v, arguments = [v] →
      Watch.Mirrors noted (fun _ => True) post (w v) (f.call [v])) :
    Watch.Mirrors noted (fun _ => True) post (Watch.ofAttempt (onlyArgument f arguments) >>= w)
      (f.call arguments) := by
  by_cases hlength : arguments.length = 1
  · obtain ⟨v, rfl⟩ := List.length_eq_one_iff.mp hlength
    exact h v rfl
  · rw [onlyArgument_of_ne f hlength, Builtin.call_of_length_ne hunary hlength]
    exact .fail _

/-- Functions come to the same under watch. -/
theorem Builtin.watched_mirrors (hkept : Kept whole part) (f : Builtin) {arguments : List Value}
    (h : ∀ v ∈ arguments, whole v) :
    Watch.Mirrors whole (fun _ => True) whole (f.watched arguments) (f.call arguments) := by
  cases f with
  | print | eprint => exact .bind (.printLine _) fun _ _ => .pure (hkept.scalar rfl)
  | range => exact .free (hkept.call .range h)
  | push => exact .free (hkept.call .push h)
  | error => exact .free (hkept.call .error h)
  | len | str | type | keys | chr | ord | block =>
      refine mirrors_onlyArgument rfl whole fun v hv => .free (hkept.call _ ?_)
      rw [← hv]
      exact h
  | sleep =>
      refine mirrors_onlyArgument rfl whole fun v _ => ?_
      exact .bind (.ofAttempt rfl fun _ _ => trivial) fun _ _ =>
        .bind (.sleepFor _) fun _ _ => .pure (hkept.scalar rfl)

theorem callWatched_mirrors (hkept : Kept whole part) (name : String) {arguments : List Value}
    (h : ∀ v ∈ arguments, whole v) :
    Watch.Mirrors whole (fun _ => True) whole (callWatched name arguments) (call name arguments) := by
  unfold callWatched call
  cases Builtin.ofName? name with
  | some f => exact Builtin.watched_mirrors hkept f h
  | none => exact .fail _

theorem Literal.isScalar_value (l : Literal) : l.value.isScalar = true := by
  cases l <;> rfl

variable {vars : Bindings}

theorem Expr.watched_binary (op : BinaryOp) (hand : op ≠ .and) (hor : op ≠ .or) (lhs rhs : Expr) :
    (Expr.binary op lhs rhs).watched vars =
      .noting (do
        let a ← lhs.watched vars
        let b ← rhs.watched vars
        .ofAttempt (op.applyAt a b)) := by
  rw [Expr.watched]
  · exact hand
  · exact hor

mutual

/-- Expressions come to the same under watch, and all values noted have the property. -/
theorem Expr.watched_mirrors (hkept : Kept whole part) (hvars : vars.All whole) : (e : Expr) →
    Watch.Mirrors whole (fun _ => True) whole (e.watched vars) (e.run vars)
  | .literal l => by
      rw [Expr.watched, Expr.run]
      exact .noting (.pure (hkept.scalar l.isScalar_value))
  | .var name => by
      rw [Expr.watched, Expr.run]
      refine .noting ?_
      cases hfind : vars.find? name with
      | some v => exact .pure (hvars.find? hfind)
      | none => exact .fail _
  | .list items => by
      rw [Expr.watched, Expr.run]
      exact .noting (.bind (itemsWatched_mirrors hkept hvars [] nofun items) fun _ hitems =>
        .pure (hkept.list_iff.mpr hitems))
  | .map entries => by
      rw [Expr.watched, Expr.run]
      exact .noting (.bind (entriesWatched_mirrors hkept hvars [] hkept.noEntries entries)
        fun _ hentries => .pure hentries)
  | .unary op operand => by
      rw [Expr.watched, Expr.run]
      exact .noting (.bind (Expr.watched_mirrors hkept hvars operand) fun _ _ =>
        .ofAttempt rfl fun _ => hkept.unary op)
  | .binary .and lhs rhs => by
      rw [Expr.watched, Expr.run]
      refine .noting (.bind (Expr.watched_mirrors hkept hvars lhs) fun a _ => ?_)
      split
      · exact .bind (Expr.watched_mirrors hkept hvars rhs) fun _ _ => .pure (hkept.scalar rfl)
      · exact .pure (hkept.scalar rfl)
  | .binary .or lhs rhs => by
      rw [Expr.watched, Expr.run]
      refine .noting (.bind (Expr.watched_mirrors hkept hvars lhs) fun a _ => ?_)
      split
      · exact .pure (hkept.scalar rfl)
      · exact .bind (Expr.watched_mirrors hkept hvars rhs) fun _ _ => .pure (hkept.scalar rfl)
  | .binary .equal lhs rhs => by
      rw [Expr.watched_binary .equal nofun nofun, Expr.run]
      exact .noting (.bind (Expr.watched_mirrors hkept hvars lhs) fun _ _ =>
        .bind (Expr.watched_mirrors hkept hvars rhs) fun _ _ => .pure (hkept.scalar rfl))
  | .binary .notEqual lhs rhs => by
      rw [Expr.watched_binary .notEqual nofun nofun, Expr.run]
      exact .noting (.bind (Expr.watched_mirrors hkept hvars lhs) fun _ _ =>
        .bind (Expr.watched_mirrors hkept hvars rhs) fun _ _ => .pure (hkept.scalar rfl))
  | .binary (.compare op) lhs rhs => by
      rw [Expr.watched_binary (.compare op) nofun nofun, Expr.run]
      exact .noting (.bind (Expr.watched_mirrors hkept hvars lhs) fun _ _ =>
        .bind (Expr.watched_mirrors hkept hvars rhs) fun _ _ =>
          .ofAttempt rfl fun _ => hkept.comparison op)
  | .binary (.arithmetic op) lhs rhs => by
      rw [Expr.watched_binary (.arithmetic op) nofun nofun, Expr.run]
      exact .noting (.bind (Expr.watched_mirrors hkept hvars lhs) fun a ha =>
        .bind (Expr.watched_mirrors hkept hvars rhs) fun b hb =>
          .ofAttempt (applyAt_arithmetic op a b) fun _ => hkept.arithmetic op ha hb)
  | .index base position => by
      rw [Expr.watched, Expr.run]
      exact .noting (.bind (Expr.watched_mirrors hkept hvars base) fun a ha =>
        .bind (Expr.watched_mirrors hkept hvars position) fun i _ =>
          .ofAttempt (lookupAt_eq a i) fun _ => hkept.lookup ha)
  | .call name arguments => by
      rw [Expr.watched, Expr.run]
      exact .noting (.bind (argumentsWatched_mirrors hkept hvars [] nofun arguments)
        fun _ harguments => callWatched_mirrors hkept name harguments)

theorem itemsWatched_mirrors (hkept : Kept whole part) (hvars : vars.All whole) (found : List Value)
    (hfound : ∀ v ∈ found, part v) : (items : List Expr) →
      Watch.Mirrors whole (fun _ => True) (fun items => ∀ v ∈ items, part v)
        (itemsWatched vars found items) (runItems vars found items)
  | [] => by
      rw [itemsWatched, runItems]
      exact .pure fun v hv => hfound v (List.mem_reverse.mp hv)
  | e :: es => by
      rw [itemsWatched, runItems]
      exact .bind (Expr.watched_mirrors hkept hvars e) fun a ha =>
        .bind (.ofAttempt rfl fun _ => hkept.nestable ha) fun v hv =>
          itemsWatched_mirrors hkept hvars (v :: found) (List.forall_mem_cons.mpr ⟨hv, hfound⟩) es

theorem entriesWatched_mirrors (hkept : Kept whole part) (hvars : vars.All whole)
    (found : List (Value × Value)) (hfound : whole (.map found)) : (entries : List (Expr × Expr)) →
      Watch.Mirrors whole (fun _ => True) (fun entries => whole (.map entries))
        (entriesWatched vars found entries) (runEntries vars found entries)
  | [] => by
      rw [entriesWatched, runEntries]
      exact .pure hfound
  | (k, e) :: es => by
      rw [entriesWatched, runEntries]
      exact .bind (Expr.watched_mirrors hkept hvars k) fun key hkey =>
        .bind (Expr.watched_mirrors hkept hvars e) fun a ha =>
          .bind (.ofAttempt rfl fun _ => hkept.nestable ha) fun v hv =>
            .bind (.ofAttempt rfl fun _ => hkept.assign hfound hkey hv) fun entries hentries =>
              entriesWatched_mirrors hkept hvars entries hentries es

theorem argumentsWatched_mirrors (hkept : Kept whole part) (hvars : vars.All whole)
    (found : List Value) (hfound : ∀ v ∈ found, whole v) : (arguments : List Expr) →
      Watch.Mirrors whole (fun _ => True) (fun arguments => ∀ v ∈ arguments, whole v)
        (argumentsWatched vars found arguments) (runArguments vars found arguments)
  | [] => by
      rw [argumentsWatched, runArguments]
      exact .pure fun v hv => hfound v (List.mem_reverse.mp hv)
  | e :: es => by
      rw [argumentsWatched, runArguments]
      exact .bind (Expr.watched_mirrors hkept hvars e) fun v hv =>
        argumentsWatched_mirrors hkept hvars (v :: found) (List.forall_mem_cons.mpr ⟨hv, hfound⟩) es

end

/-- Actions come to the same under watch, and all values noted and all variables afterwards have the
property, if the variables before have it. -/
abbrev Watch.MirrorsAction {α : Type} (whole : Value → Prop) (post : α → Prop) (w : Watch World α)
    (a : Action α) : Prop :=
  Watch.Mirrors whole (fun world => world.vars.All whole) post w a

namespace Watch.Mirrors

theorem checkpoint : MirrorsAction whole (fun _ => True)
    (Watch.ofRun fun _ => .of checkpoint) (Action.ofRun fun _ => checkpoint) :=
  .ofRun fun _ _ => .free fun _ _ _ => trivial

theorem bindName (name : String) {v : Value} (hv : whole v) :
    MirrorsAction whole (fun _ => True) (.of (bindName name v)) (bindName name v) :=
  .of (fun _ h => Bindings.All.set h hv) fun _ _ _ => trivial

theorem bindingOf (name : String) :
    MirrorsAction whole whole (.of (bindingOf? name)) (bindingOf? name) := by
  intro world before hvars
  rw [Watch.of, Action.bindingOf?_apply]
  cases hfind : world.vars.find? name with
  | some v => exact ⟨[], by rw [List.append_nil]; rfl, nofun, hvars, fun _ h => by
      cases h
      exact hvars.find? hfind⟩
  | none => exact ⟨[], by rw [List.append_nil]; rfl, nofun, hvars, nofun⟩

theorem repeatWhile {condition : Watch World Bool} {body : Watch World Unit}
    {condition' : Action Bool} {body' : Action Unit}
    (hcondition : MirrorsAction whole (fun _ => True) condition condition')
    (hbody : MirrorsAction whole (fun _ => True) body body') (rounds : Nat) :
    MirrorsAction whole (fun _ => True) (repeatWatched condition body rounds)
      (repeatWhile condition' body' rounds) := by
  induction rounds with
  | zero => exact .of (fun _ h => h) (Returns.throw _)
  | succ rounds ih =>
      refine .bind hcondition fun b _ => ?_
      cases b with
      | true => exact .bind .checkpoint fun _ _ => .bind hbody fun _ _ => ih
      | false => exact .pure trivial

end Watch.Mirrors

/-- The value of an expression is read under watch with the variables of the time. -/
theorem Expr.ofRun_mirrors (hkept : Kept whole part) (e : Expr) :
    Watch.MirrorsAction whole whole (.ofRun (e.watched ·)) (.ofRun (e.run ·)) :=
  .ofRun fun _ hvars => e.watched_mirrors hkept hvars

theorem Expr.holdsWatched_mirrors (hkept : Kept whole part) (e : Expr) :
    Watch.MirrorsAction whole (fun _ => True) e.holdsWatched e.holds :=
  .bind (e.ofRun_mirrors hkept) fun _ _ => .pure trivial

mutual

theorem Stmt.watched_mirrors (hkept : Kept whole part) (rounds : Nat) : (s : Stmt) →
    Watch.MirrorsAction whole (fun _ => True) (s.watched rounds) (s.run rounds)
  | .declare name e => by
      rw [Stmt.watched, Stmt.run]
      exact .bind (e.ofRun_mirrors hkept) fun _ hv => .bindName name hv
  | .assign (.variable name) e => by
      rw [Stmt.watched, Stmt.run]
      exact .bind (.discard (.bindingOf name)) fun _ _ =>
        .bind (e.ofRun_mirrors hkept) fun _ hv => .bindName name hv
  | .assign (.element name position) e => by
      rw [Stmt.watched, Stmt.run]
      exact .bind (position.ofRun_mirrors hkept) fun i hi => .bind (e.ofRun_mirrors hkept) fun v hv =>
        .bind (.bindingOf name) fun container hcontainer =>
          .bind (.ofRun fun _ _ => .ofAttempt (assignElementAt_eq container i v) fun _ =>
            hkept.assignElement hcontainer hi hv) fun _ hassigned => .bindName name hassigned
  | .ifThen condition body => by
      rw [Stmt.watched, Stmt.run]
      refine .bind (condition.holdsWatched_mirrors hkept) fun b _ => ?_
      cases b with
      | true => exact allWatched_mirrors hkept rounds body
      | false => exact .pure trivial
  | .ifElse condition body alternative => by
      rw [Stmt.watched, Stmt.run]
      refine .bind (condition.holdsWatched_mirrors hkept) fun b _ => ?_
      cases b with
      | true => exact allWatched_mirrors hkept rounds body
      | false => exact allWatched_mirrors hkept rounds alternative
  | .whileLoop condition body => by
      rw [Stmt.watched, Stmt.run]
      exact .repeatWhile (condition.holdsWatched_mirrors hkept) (allWatched_mirrors hkept rounds body)
        rounds
  | .evaluate e => by
      rw [Stmt.watched, Stmt.run]
      exact .discard (e.ofRun_mirrors hkept)

theorem allWatched_mirrors (hkept : Kept whole part) (rounds : Nat) : (ss : List Stmt) →
    Watch.MirrorsAction whole (fun _ => True) (allWatched rounds ss) (runAll rounds ss)
  | [] => by
      rw [allWatched, runAll]
      exact .pure trivial
  | s :: ss => by
      rw [allWatched, runAll]
      exact .bind .checkpoint fun _ _ => .bind (Stmt.watched_mirrors hkept rounds s) fun _ _ =>
        allWatched_mirrors hkept rounds ss

end

theorem Expr.resultWatched_mirrors (hkept : Kept whole part) (e : Expr) :
    Watch.MirrorsAction whole (fun result => ∀ v ∈ result, whole v) e.resultWatched e.result := by
  unfold Expr.resultWatched Expr.result
  refine .bind (e.ofRun_mirrors hkept) fun v hv => ?_
  have hsome : ∀ w ∈ some v, whole w := fun w hw => Option.mem_some_iff.mp hw ▸ hv
  cases e with
  | call name arguments =>
      refine .pure ?_
      split
      · exact nofun
      · exact hsome
  | literal | var | list | map | unary | binary | index => exact .pure hsome

/-- Programs come to the same under watch. All values noted have the property, and so has the result,
and all variables afterwards. -/
theorem Program.watched_mirrors (hkept : Kept whole part) (rounds : Nat) (p : Program) :
    Watch.MirrorsAction whole (fun result => ∀ v ∈ result, whole v) (p.watched rounds)
      (p.run rounds) := by
  unfold Program.watched Program.run
  refine .bind (allWatched_mirrors hkept rounds p.statements) fun _ _ => ?_
  cases p.result with
  | none => exact .pure nofun
  | some e => exact .bind .checkpoint fun _ _ => e.resultWatched_mirrors hkept

end Runs

end ReplDaemon.Script
