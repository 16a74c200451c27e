import ReplDaemon.Proofs.Script.Program.Expressions
import ReplDaemon.Proofs.Script.Program.Height
import ReplDaemon.Proofs.Script.Program.Progress

/-!
# More tokens behind

What becomes of a reading when more tokens stand behind those that it had. A reading that has not
looked past its last token goes on as before: it reads the same and fails in the same way. One that
has looked past it may go on differently, but only from the end, where nothing can be wrong yet except
that something is missing.
-/

namespace ReplDaemon.Script

/-- The cursor with more tokens behind those left. -/
def Cursor.extend (c : Cursor) (more : List PlacedToken) : Cursor :=
  { c with rest := c.rest ++ more }

@[simp] theorem Cursor.depth_extend (c : Cursor) (more : List PlacedToken) :
    (c.extend more).depth = c.depth := rfl

@[simp] theorem Cursor.rest_extend (c : Cursor) (more : List PlacedToken) :
    (c.extend more).rest = c.rest ++ more := rfl

@[simp] theorem Cursor.extend_nil (c : Cursor) : c.extend [] = c := by
  rw [extend, List.append_nil]

theorem Cursor.tokens_extend (c : Cursor) (more : List PlacedToken) :
    (c.extend more).tokens = c.tokens ++ more.map (·.token) :=
  List.map_append

theorem Cursor.tokens_of_rest_nil {c : Cursor} (h : c.rest = []) : c.tokens = [] := by
  rw [tokens, h]
  rfl

theorem Cursor.exists_rest {c : Cursor} (h : c.rest ≠ []) :
    ∃ (t : PlacedToken) (rest : List PlacedToken), c.rest = t :: rest :=
  List.exists_cons_of_ne_nil h

theorem Cursor.rest_extend_ne_nil {c : Cursor} (h : c.rest ≠ []) (more : List PlacedToken) :
    (c.extend more).rest ≠ [] := by
  rw [rest_extend]
  exact fun hnil => h (List.append_eq_nil_iff.mp hnil).1

/-- What tokens begin with is not changed by more of them. -/
theorem Cursor.startsWith_extend {c : Cursor} (h : c.rest ≠ []) (d : Delimiter)
    (more : List PlacedToken) :
    Parser.startsWith d (c.extend more).tokens = Parser.startsWith d c.tokens := by
  obtain ⟨t, rest, hrest⟩ := exists_rest h
  rw [tokens, tokens, rest_extend, hrest]
  cases ht : t.token <;> simp [ht, Parser.startsWith]

/-- Whether an error says that the tokens are wrong, and not that there are too few of them. -/
def ParseError.IsFinal : ParseError → Prop
  | .unexpected _ _ _ | .invalidTarget _ | .tooDeep _ => True
  | .unexpectedEnd | .unbalanced => False

/-- Errors that are the same, but for the place where the nesting gets too deep: it is that of a token
that may come later. -/
inductive ParseError.Alike : ParseError → ParseError → Prop
  | same (e : ParseError) : Alike e e
  | tooDeep (position position' : Position) : Alike (.tooDeep position) (.tooDeep position')

/-- Whether a token opens something that can end at once: arguments, a list or a map. -/
def Token.opensItems : Token → Bool
  | .delimiter d => d == .openParen || d == .openBracket || d == .openMap
  | _ => false

/-- The last of the tokens opens arguments, a list or a map. -/
def EndsOpen (tokens : List PlacedToken) : Prop :=
  ∃ t ∈ tokens.getLast?, t.token.opensItems = true

theorem EndsOpen.of_suffix {tokens tokens' : List PlacedToken} (h : EndsOpen tokens)
    (hsuffix : tokens <:+ tokens') : EndsOpen tokens' := by
  obtain ⟨front, rfl⟩ := hsuffix
  obtain ⟨t, hlast, hopens⟩ := h
  refine ⟨t, ?_, hopens⟩
  rw [Option.mem_def] at hlast ⊢
  rw [List.getLast?_append, hlast]
  rfl

theorem endsOpen_singleton {t : PlacedToken} (h : t.token.opensItems = true) : EndsOpen [t] :=
  ⟨t, rfl, h⟩

namespace Parser

variable {α β : Type}

/-- A reader that succeeds leaves the depth as it was. -/
def Balanced (p : Parser α) : Prop :=
  ∀ d : Nat, d ≤ maxDepth → Ensures d d p fun _ => True

theorem Balanced.depth_eq {p : Parser α} (h : Balanced p) {c c' : Cursor} {a : α}
    (hdepth : c.depth ≤ maxDepth) (hread : p c = .ok (a, c')) : c'.depth = c.depth :=
  (h c.depth hdepth c c' a rfl hread).1

theorem Bounded.balanced {height : α → Nat} {bound : Nat → Nat} {p : Parser α}
    (h : Bounded height bound p) : Balanced p :=
  fun d hd => (h d (maxDepth - d) (by omega)).mono fun _ _ => trivial

theorem Deeper.balanced {height : α → Nat} {p : Parser α} (h : Deeper height p) : Balanced p :=
  fun d hd => (h d (maxDepth - d) (by omega)).mono fun _ _ => trivial

theorem exists_of_bind_ok {p : Parser α} {f : α → Parser β} {c d : Cursor} {b : β}
    (h : (p >>= f) c = .ok (b, d)) :
    ∃ (a : α) (c' : Cursor), p c = .ok (a, c') ∧ f a c' = .ok (b, d) := by
  cases hp : p c with
  | error e =>
      rw [bind_of_error hp] at h
      cases h
  | ok x => exact ⟨x.1, x.2, rfl, (bind_of_ok hp).symm.trans h⟩

theorem bind_congr {p : Parser α} {f g : α → Parser β} {c : Cursor}
    (h : ∀ (a : α) (c' : Cursor), p c = .ok (a, c') → f a c' = g a c') :
    (p >>= f) c = (p >>= g) c := by
  cases hp : p c with
  | error e => rw [bind_of_error hp, bind_of_error hp]
  | ok x => rw [bind_of_ok hp, bind_of_ok hp, h x.1 x.2 hp]

theorem eat_of_startsWith {c : Cursor} {d : Delimiter} {t : PlacedToken} {rest : List PlacedToken}
    (hrest : c.rest = t :: rest) (h : startsWith d c.tokens = true) :
    eat d c = .ok (true, { c with rest, last := t.position }) := by
  have hat : atDelimiter d c = .ok (true, c) := by rw [atDelimiter_apply, h]
  have hnext : next c = .ok (t, { c with rest, last := t.position }) := by rw [next, hrest]
  have hdiscard : (discard next : Parser PUnit) c = .ok (⟨⟩, { c with rest, last := t.position }) :=
    bind_of_ok (f := fun _ => pure PUnit.unit) hnext
  rw [eat, bind_of_ok hat, if_pos rfl, bind_of_ok hdiscard]
  rfl

theorem next_eq_ok {c d : Cursor} {t : PlacedToken} (h : next c = .ok (t, d)) :
    c.rest = t :: d.rest := by
  unfold next at h
  split at h
  · cases h
  · next hrest =>
      cases h
      exact hrest

theorem token_of_startsWith {c : Cursor} {d : Delimiter} {t : PlacedToken} {rest : List PlacedToken}
    (hrest : c.rest = t :: rest) (h : startsWith d c.tokens = true) : t.token = .delimiter d := by
  rw [Cursor.tokens, hrest, List.map_cons, startsWith.eq_def] at h
  split at h
  · next e _ heq =>
      rw [(List.cons.inj heq).1, eq_of_beq h]
  · cases h

theorem descend_eq_ok {c d : Cursor} {u : Unit} (h : descend c = .ok (u, d)) :
    c.depth < maxDepth ∧ d = { c with depth := c.depth + 1 } := by
  unfold descend at h
  split at h
  · next hlt =>
      cases h
      exact ⟨hlt, rfl⟩
  · cases h

/-- The next token stays the next one. -/
theorem peek_extend {c : Cursor} {t : PlacedToken} {rest : List PlacedToken}
    (hrest : c.rest = t :: rest) (more : List PlacedToken) :
    peek (c.extend more) = .ok (some t.token, c.extend more) := by
  rw [peek, Cursor.rest_extend, hrest]
  rfl

/-- What a reader comes to, compared with what a reader comes to that has more tokens behind the same
ones. Either both read the same or fail alike; or the first one has come to the end of its tokens,
with success if it is `loose` there, or for want of more; or it fails for its depth alone, where that
is excused. -/
inductive Prospect (excuse loose : Prop) (p q : Parser α) (c : Cursor)
    (more : List PlacedToken) : Prop
  | read {a : α} {c' : Cursor} (hp : p c = .ok (a, c'))
      (hq : q (c.extend more) = .ok (a, c'.extend more))
  | refused {e e' : ParseError} (hp : p c = .error e) (hq : q (c.extend more) = .error e')
      (halike : e.Alike e')
  | ended {a : α} {c' : Cursor} (hp : p c = .ok (a, c')) (hrest : c'.rest = []) (hloose : loose)
  | unfinished {e : ParseError} (hp : p c = .error e) (hopen : ¬ e.IsFinal)
  | excused {position : Position} (hp : p c = .error (.tooDeep position)) (hexcuse : excuse)

/-- At the end of the tokens, a reader succeeds, or fails only for want of more. -/
def Idle (loose : Prop) (p : Parser α) (c : Cursor) : Prop :=
  (∃ (a : α) (c' : Cursor), p c = .ok (a, c') ∧ c'.rest = [] ∧ loose) ∨
    ∃ e : ParseError, p c = .error e ∧ ¬ e.IsFinal

section Idle

variable {loose : Prop} {c : Cursor} {p : Parser α}

theorem Idle.of_unexpectedEnd (h : p c = .error .unexpectedEnd) : Idle loose p c :=
  .inr ⟨_, h, id⟩

theorem Idle.pure {a : α} (h : c.rest = []) (hloose : loose) : Idle loose (Pure.pure a) c :=
  .inl ⟨a, c, rfl, h, hloose⟩

theorem Idle.ascend {levels : Nat} {f : PUnit → Parser α} (h : c.rest = [])
    (hf : ∀ d : Cursor, d.rest = [] → Idle loose (f ⟨⟩) d) :
    Idle loose (Parser.ascend levels >>= f) c := by
  by_cases hle : levels ≤ c.depth
  · have hascend : Parser.ascend levels c = .ok (⟨⟩, { c with depth := c.depth - levels }) :=
      if_pos hle
    have hidle := hf { c with depth := c.depth - levels } h
    unfold Idle at hidle ⊢
    rwa [bind_of_ok hascend]
  · have hascend : Parser.ascend levels c = .error .unbalanced := if_neg hle
    exact .inr ⟨_, bind_of_error hascend, id⟩

end Idle

namespace Prospect

variable {excuse excuse' loose loose' : Prop} {p q : Parser α} {c : Cursor}
  {more : List PlacedToken}

theorem mono (h : Prospect excuse loose p q c more) (hexcuse : excuse → excuse')
    (hloose : loose → loose') : Prospect excuse' loose' p q c more := by
  cases h with
  | read hp hq => exact .read hp hq
  | refused hp hq halike => exact .refused hp hq halike
  | ended hp hrest h => exact .ended hp hrest (hloose h)
  | unfinished hp hopen => exact .unfinished hp hopen
  | excused hp h => exact .excused hp (hexcuse h)

theorem of_eq {p' q' : Parser α} (hp : p c = p' c) (hq : q (c.extend more) = q' (c.extend more))
    (h : Prospect excuse loose p' q' c more) : Prospect excuse loose p q c more := by
  cases h with
  | read hp' hq' => exact .read (hp.trans hp') (hq.trans hq')
  | refused hp' hq' halike => exact .refused (hp.trans hp') (hq.trans hq') halike
  | ended hp' hrest hloose => exact .ended (hp.trans hp') hrest hloose
  | unfinished hp' hopen => exact .unfinished (hp.trans hp') hopen
  | excused hp' hexcuse => exact .excused (hp.trans hp') hexcuse

/-- One reader after the other. Where the first one comes to the end, the second one has to be idle. -/
theorem bind {f g : α → Parser β} (h : Prospect excuse loose' p q c more)
    (hf : ∀ (a : α) (c' : Cursor), p c = .ok (a, c') → Prospect excuse loose (f a) (g a) c' more)
    (hend : ∀ (a : α) (c' : Cursor), p c = .ok (a, c') → c'.rest = [] → loose' →
      Idle loose (f a) c') :
    Prospect excuse loose (p >>= f) (q >>= g) c more := by
  cases h with
  | read hp hq =>
      have hfp := bind_of_ok (f := f) hp
      have hgq := bind_of_ok (f := g) hq
      cases hf _ _ hp with
      | read hp' hq' => exact .read (hfp.trans hp') (hgq.trans hq')
      | refused hp' hq' halike => exact .refused (hfp.trans hp') (hgq.trans hq') halike
      | ended hp' hrest hloose => exact .ended (hfp.trans hp') hrest hloose
      | unfinished hp' hopen => exact .unfinished (hfp.trans hp') hopen
      | excused hp' hexcuse => exact .excused (hfp.trans hp') hexcuse
  | refused hp hq halike => exact .refused (bind_of_error hp) (bind_of_error hq) halike
  | ended hp hrest hloose =>
      have hfp := bind_of_ok (f := f) hp
      rcases hend _ _ hp hrest hloose with ⟨b, d, hok, hd, hloose'⟩ | ⟨e, herror, hopen⟩
      · exact .ended (hfp.trans hok) hd hloose'
      · exact .unfinished (hfp.trans herror) hopen
  | unfinished hp hopen => exact .unfinished (bind_of_error hp) hopen
  | excused hp hexcuse => exact .excused (bind_of_error hp) hexcuse

/-- A reader behind one that never looks past what it takes. -/
theorem seq {f g : α → Parser β} (h : Prospect excuse False p q c more)
    (hf : ∀ (a : α) (c' : Cursor), p c = .ok (a, c') → Prospect excuse loose (f a) (g a) c' more) :
    Prospect excuse loose (p >>= f) (q >>= g) c more :=
  h.bind hf fun _ _ _ _ hloose => hloose.elim

/-- What is read stays the same, unless the reader has come to the end and is loose there. -/
theorem read_of_ok (h : Prospect excuse loose p q c more) {a : α} {c' : Cursor}
    (hread : p c = .ok (a, c')) (hmore : c'.rest ≠ [] ∨ ¬ loose) :
    q (c.extend more) = .ok (a, c'.extend more) := by
  cases h with
  | read hp hq =>
      cases hread.symm.trans hp
      exact hq
  | ended hp hrest hloose =>
      cases hread.symm.trans hp
      exact absurd hloose (hmore.resolve_left (not_not_intro hrest))
  | refused hp => cases hread.symm.trans hp
  | unfinished hp => cases hread.symm.trans hp
  | excused hp => cases hread.symm.trans hp

/-- Without more tokens, nothing changes. -/
theorem refl_nil : Prospect excuse loose p p c [] := by
  cases hread : p c with
  | error e => exact .refused hread (by rw [Cursor.extend_nil, hread]) (.same e)
  | ok x => exact .read hread (by rw [Cursor.extend_nil, Cursor.extend_nil, hread])

theorem of_unexpectedEnd (h : p c = .error .unexpectedEnd) : Prospect excuse loose p q c more :=
  .unfinished h id

theorem pure {a : α} : Prospect excuse loose (Pure.pure a) (Pure.pure a) c more :=
  .read rfl rfl

theorem throw {e : ParseError} :
    Prospect excuse loose (MonadExcept.throw e : Parser α) (MonadExcept.throw e) c more :=
  .refused rfl rfl (.same e)

theorem tooDeep : Prospect excuse loose (Parser.tooDeep : Parser α) Parser.tooDeep c more :=
  .refused rfl rfl (.tooDeep _ _)

theorem next : Prospect excuse loose Parser.next Parser.next c more := by
  obtain ⟨rest, last, depth⟩ := c
  cases rest with
  | nil => exact .unfinished rfl id
  | cons t rest => exact .read rfl rfl

theorem discard (h : Prospect excuse loose p q c more) :
    Prospect excuse loose (Functor.discard p : Parser PUnit) (Functor.discard q) c more :=
  h.bind (fun _ _ _ => pure) fun _ _ _ hend hloose => .pure hend hloose

/-- Something that is seen the same with more tokens behind, and taken by neither. -/
theorem look {r : Parser α} {a : α} {f g : α → Parser β} (hp : r c = .ok (a, c))
    (hq : r (c.extend more) = .ok (a, c.extend more)) (h : Prospect excuse loose (f a) (g a) c more) :
    Prospect excuse loose (r >>= f) (r >>= g) c more :=
  .of_eq (bind_of_ok hp) (bind_of_ok hq) h

theorem peek {f g : Option Token → Parser β} {t : PlacedToken} {rest : List PlacedToken}
    (hrest : c.rest = t :: rest)
    (h : Prospect excuse loose (f (some t.token)) (g (some t.token)) c more) :
    Prospect excuse loose (Parser.peek >>= f) (Parser.peek >>= g) c more :=
  .look (by rw [Parser.peek, hrest]; rfl) (peek_extend hrest more) h

theorem descend : Prospect excuse loose Parser.descend Parser.descend c more := by
  by_cases hlt : c.depth < maxDepth
  · exact .read (if_pos hlt) (if_pos hlt)
  · exact .refused (if_neg hlt) (if_neg hlt) (.tooDeep _ _)

theorem ascend {levels : Nat} :
    Prospect excuse loose (Parser.ascend levels) (Parser.ascend levels) c more := by
  by_cases hle : levels ≤ c.depth
  · exact .read (if_pos hle) (if_pos hle)
  · exact .refused (if_neg hle) (if_neg hle) (.same _)

theorem atDelimiter {f g : Bool → Parser β} {d : Delimiter} (hrest : c.rest ≠ [])
    (h : ∀ found : Bool, startsWith d c.tokens = found →
      Prospect excuse loose (f found) (g found) c more) :
    Prospect excuse loose (Parser.atDelimiter d >>= f) (Parser.atDelimiter d >>= g) c more :=
  .look (atDelimiter_apply d c) (by rw [atDelimiter_apply, Cursor.startsWith_extend hrest]) (h _ rfl)

theorem eat {f g : Bool → Parser β} {d : Delimiter} (hrest : c.rest ≠ [])
    (htrue : ∀ c' : Cursor, Parser.eat d c = .ok (true, c') →
      Prospect excuse loose (f true) (g true) c' more)
    (hfalse : startsWith d c.tokens = false → Prospect excuse loose (f false) (g false) c more) :
    Prospect excuse loose (Parser.eat d >>= f) (Parser.eat d >>= g) c more := by
  cases hstarts : startsWith d c.tokens with
  | false =>
      have hextend : startsWith d (c.extend more).tokens = false :=
        (Cursor.startsWith_extend hrest d more).trans hstarts
      exact .look (eat_apply hstarts) (eat_apply hextend) (hfalse hstarts)
  | true =>
      obtain ⟨t, rest, hcons⟩ := Cursor.exists_rest hrest
      have hp := eat_of_startsWith hcons hstarts
      have hextend : (c.extend more).rest = t :: (rest ++ more) := by
        rw [Cursor.rest_extend, hcons, List.cons_append]
      have hq := eat_of_startsWith hextend
        ((Cursor.startsWith_extend hrest d more).trans hstarts)
      exact seq (.read hp hq) fun found c' hread => by
        cases hp.symm.trans hread
        exact htrue _ hp

theorem binaryOp? {f g : Option BinaryOp → Parser β} {looseness : Nat} (hrest : c.rest ≠ [])
    (h : ∀ op : Option BinaryOp, Prospect excuse loose (f op) (g op) c more) :
    Prospect excuse loose (Parser.binaryOp? looseness >>= f) (Parser.binaryOp? looseness >>= g) c
      more := by
  obtain ⟨t, rest, hcons⟩ := Cursor.exists_rest hrest
  rw [Parser.binaryOp?, bind_assoc, bind_assoc]
  refine .peek hcons ?_
  cases t.token <;> exact h _

theorem unaryOp? {f g : Option UnaryOp → Parser β} (hrest : c.rest ≠ [])
    (h : ∀ op : Option UnaryOp, Prospect excuse loose (f op) (g op) c more) :
    Prospect excuse loose (Parser.unaryOp? >>= f) (Parser.unaryOp? >>= g) c more := by
  obtain ⟨t, rest, hcons⟩ := Cursor.exists_rest hrest
  rw [Parser.unaryOp?, bind_assoc, bind_assoc]
  refine .peek hcons ?_
  cases t.token <;> exact h _

theorem expect {d : Delimiter} :
    Prospect excuse loose (Parser.expect d) (Parser.expect d) c more := by
  refine seq next fun t c' _ => ?_
  split
  · split
    · exact pure
    · exact throw
  · exact throw

theorem name : Prospect excuse loose Parser.name Parser.name c more := by
  refine seq next fun t c' _ => ?_
  split
  · exact pure
  · exact throw

/-- Where a reader takes nothing as long as certain tokens follow, the end of the tokens is not
settled by others. -/
theorem of_follow {follow : List Token → Prop} {a : α} (hnil : c.rest = []) (hfollow : follow [])
    (hp : ∀ d : Cursor, follow d.tokens → p d = .ok (a, d))
    (hq : ∀ d : Cursor, follow d.tokens → q d = .ok (a, d)) :
    Prospect excuse (¬ follow (more.map (·.token))) p q c more := by
  have htokens := Cursor.tokens_of_rest_nil hnil
  have hread := hp c (by rw [htokens]; exact hfollow)
  by_cases hmore : follow (more.map (·.token))
  · refine .read hread (hq _ ?_)
    rw [Cursor.tokens_extend, htokens]
    exact hmore
  · exact .ended hread hnil hmore

theorem nested (h : ∀ d : Cursor, d.rest = c.rest → d.depth = c.depth + 1 → d.depth ≤ maxDepth →
    Prospect excuse loose p q d more) :
    Prospect excuse loose (Parser.nested p) (Parser.nested q) c more := by
  refine seq descend fun _ d hdescend => ?_
  obtain ⟨hlt, rfl⟩ := descend_eq_ok hdescend
  refine (h { c with depth := c.depth + 1 } rfl rfl hlt).bind (fun a d' _ => ?_) fun a d' _ hend hloose => ?_
  · exact seq ascend fun _ _ _ => pure
  · exact .ascend hend fun d'' hend' => .pure hend' hloose

/-- Both know how many rounds are possible at most, and the second one has some to spare. -/
theorem remaining {f g : List PlacedToken → Parser β}
    (h : Prospect excuse loose (f c.rest) (g (c.rest ++ more)) c more) :
    Prospect excuse loose (Parser.remaining >>= f) (Parser.remaining >>= g) c more := by
  have hp : (Parser.remaining >>= f) c = f c.rest c := rfl
  have hq : (Parser.remaining >>= g) (c.extend more) = g (c.rest ++ more) (c.extend more) := rfl
  exact .of_eq hp hq h

end Prospect

end Parser

end ReplDaemon.Script
