import ReplDaemon.Proofs.Script.Program.Prospects

/-!
# Expressions that can be completed

Where a reader of expressions has come to the end of its tokens too early, there are some that let it
succeed. What closes the parts that are open is found from the inside out: the part that the tokens
ran out in is completed first, and then what stands behind it takes as little as it can.
-/

namespace ReplDaemon.Script

/-- Tokens without a place of their own. -/
def unplaced (tokens : List Token) : List PlacedToken :=
  tokens.map (⟨·, .start⟩)

@[simp] theorem map_token_unplaced (tokens : List Token) :
    (unplaced tokens).map (·.token) = tokens := by
  rw [unplaced, List.map_map]
  exact List.map_id _

namespace Parser

variable {α β : Type}

/-- The reader succeeds and leaves given tokens. -/
def Succeeds (p : Parser α) (c : Cursor) (rest : List Token) : Prop :=
  ∃ (a : α) (d : Cursor), p c = .ok (a, d) ∧ d.tokens = rest

section Succeeds

variable {p : Parser α} {c : Cursor} {rest : List Token}

theorem Becomes.succeeds {a : α} {depth reach : Nat} (h : Becomes p c (pure a) rest depth reach)
    (hreach : reach ≤ maxDepth) : Succeeds p c rest := by
  rcases h with ⟨_, d, heq, hrest, _⟩ | ⟨hlt, _⟩
  · exact ⟨a, d, heq, hrest⟩
  · omega

theorem Succeeds.bind {f : α → Parser β} {rest' : List Token} (hp : Orderly p)
    (hdepth : c.depth ≤ maxDepth) (h : Succeeds p c rest)
    (hf : ∀ (a : α) (d : Cursor), d.tokens = rest → d.depth = c.depth → Succeeds (f a) d rest') :
    Succeeds (p >>= f) c rest' := by
  obtain ⟨a, d, hread, hrest⟩ := h
  obtain ⟨b, e, hread', hrest'⟩ := hf a d hrest (hp.balanced.depth_eq hdepth hread)
  exact ⟨b, e, (bind_of_ok hread).trans hread', hrest'⟩

theorem Succeeds.of_read {f : α → Parser β} {a : α} {d : Cursor} (hread : p c = .ok (a, d))
    (h : Succeeds (f a) d rest) : Succeeds (p >>= f) c rest := by
  obtain ⟨b, e, hread', hrest⟩ := h
  exact ⟨b, e, (bind_of_ok hread).trans hread', hrest⟩

end Succeeds

/-- Some tokens let the reader succeed, whatever stands behind them as long as it may follow. -/
def Completes (follow : List Token → Prop) (p : Parser α) (c : Cursor) : Prop :=
  ∃ closing : List PlacedToken, ∀ more : List PlacedToken, follow (more.map (·.token)) →
    Succeeds p (c.extend (closing ++ more)) (more.map (·.token))

/-- If the tokens end too early for the reader, then it is stuck for good, or some more tokens let it
succeed. -/
def Mendable (stuck : Prop) (follow : List Token → Prop) (p : Parser α) (c : Cursor) : Prop :=
  p c = .error .unexpectedEnd → stuck ∨ Completes follow p c

section Rules

variable {stuck stuck' : Prop} {follow follow' : List Token → Prop} {p : Parser α} {c : Cursor}

/-- Tokens that can be read from the end on. -/
theorem Completes.of_nil (closing : List Token) (hnil : c.rest = [])
    (h : ∀ (d : Cursor) (rest : List Token), d.tokens = closing ++ rest → d.depth = c.depth →
      follow rest → Succeeds p d rest) : Completes follow p c := by
  refine ⟨unplaced closing, fun more hmore => h _ _ ?_ rfl hmore⟩
  rw [Cursor.tokens_extend, Cursor.tokens_of_rest_nil hnil, List.nil_append, List.map_append,
    map_token_unplaced]

theorem Completes.mono (h : Completes follow p c)
    (hfollow : ∀ rest : List Token, follow' rest → follow rest) : Completes follow' p c := by
  obtain ⟨closing, hclosing⟩ := h
  exact ⟨closing, fun more hmore => hclosing more (hfollow _ hmore)⟩

theorem Mendable.mono (h : Mendable stuck follow p c) (hstuck : stuck → stuck')
    (hfollow : ∀ rest : List Token, follow' rest → follow rest) : Mendable stuck' follow' p c :=
  fun hend => (h hend).imp hstuck (·.mono hfollow)

theorem Mendable.of_ne (h : p c ≠ .error .unexpectedEnd) : Mendable stuck follow p c :=
  fun hend => absurd hend h

theorem Mendable.pure {a : α} : Mendable stuck follow (Pure.pure a : Parser α) c :=
  .of_ne nofun

theorem Mendable.throw {e : ParseError} (h : e ≠ .unexpectedEnd) :
    Mendable stuck follow (MonadExcept.throw e : Parser α) c :=
  .of_ne fun hend => h (by cases hend; rfl)

theorem Mendable.tooDeep : Mendable stuck follow (Parser.tooDeep : Parser α) c :=
  .of_ne nofun

/-- What the rest of a reader takes at least, behind a part that it begins with. -/
structure Closes (f : α → Parser β) (depth : Nat) (closing : List Token)
    (before follow : List Token → Prop) : Prop where
  follows : ∀ rest : List Token, follow rest → before (closing ++ rest)
  succeeds : ∀ (a : α) (d : Cursor) (rest : List Token), d.tokens = closing ++ rest →
    d.depth = depth → follow rest → Succeeds (f a) d rest

/-- One reader after the other. Where the tokens end in the first one or right behind it, the second
one is read from its closing tokens alone. -/
theorem Mendable.bind {f : α → Parser β} (horderly : Orderly p) (hdepth : c.depth ≤ maxDepth)
    (hprospect : ∀ more : List PlacedToken,
      Prospect True (¬ follow' (more.map (·.token))) p p c more)
    (hp : Mendable stuck follow' p c)
    (hcloses : (∀ position : Position, p c ≠ .error (.tooDeep position)) →
      ∃ closing : List Token, Closes f c.depth closing follow' follow)
    (hf : ∀ (a : α) (c' : Cursor), p c = .ok (a, c') → c'.rest ≠ [] →
      Mendable stuck follow (f a) c') : Mendable stuck follow (p >>= f) c := by
  intro hend
  cases hread : p c with
  | error e =>
      obtain rfl : e = .unexpectedEnd := by
        have heq := (bind_of_error (f := f) hread).symm.trans hend
        cases heq
        rfl
      obtain ⟨closing, hfollows, hsucceeds⟩ := hcloses (by rw [hread]; exact nofun)
      refine (hp hread).imp id fun ⟨first, hfirst⟩ => ?_
      refine ⟨first ++ unplaced closing, fun more hmore => ?_⟩
      have hbefore := hfirst (unplaced closing ++ more)
        (by rw [List.map_append, map_token_unplaced]; exact hfollows _ hmore)
      rw [List.map_append, map_token_unplaced] at hbefore
      rw [List.append_assoc]
      exact hbefore.bind horderly hdepth fun a d hd hdown => hsucceeds a d _ hd hdown hmore
  | ok x =>
      obtain ⟨a, c'⟩ := x
      have hsame (more : List PlacedToken)
          (hmore : c'.rest ≠ [] ∨ follow' (more.map (·.token))) :
          p (c.extend more) = .ok (a, c'.extend more) :=
        (hprospect more).read_of_ok hread (hmore.imp id not_not_intro)
      by_cases hnil : c'.rest = []
      · obtain ⟨closing, hfollows, hsucceeds⟩ := hcloses (by rw [hread]; exact nofun)
        refine .inr ⟨unplaced closing, fun more hmore => ?_⟩
        refine .of_read (hsame _ (.inr ?_)) (hsucceeds a _ _ ?_ ?_ hmore)
        · rw [List.map_append, map_token_unplaced]
          exact hfollows _ hmore
        · rw [Cursor.tokens_extend, Cursor.tokens_of_rest_nil hnil, List.nil_append,
            List.map_append, map_token_unplaced]
        · exact (Cursor.depth_extend c' _).trans (horderly.balanced.depth_eq hdepth hread)
      · have hend' : f a c' = .error .unexpectedEnd := (bind_of_ok hread).symm.trans hend
        refine (hf a c' hread hnil hend').imp id fun ⟨closing, hclosing⟩ => ?_
        exact ⟨closing, fun more hmore => .of_read (hsame _ (.inl hnil)) (hclosing more hmore)⟩

/-- A reader behind one that never looks past what it takes, and for which there are tokens enough. -/
theorem Mendable.seq {f : α → Parser β}
    (hprospect : ∀ more : List PlacedToken, Prospect True False p p c more)
    (hne : p c ≠ .error .unexpectedEnd)
    (hf : ∀ (a : α) (c' : Cursor), p c = .ok (a, c') → Mendable stuck follow (f a) c') :
    Mendable stuck follow (p >>= f) c := by
  intro hend
  cases hread : p c with
  | error e =>
      have heq := (bind_of_error (f := f) hread).symm.trans hend
      cases heq
      exact absurd hread hne
  | ok x =>
      obtain ⟨a, c'⟩ := x
      have hend' : f a c' = .error .unexpectedEnd := (bind_of_ok hread).symm.trans hend
      refine (hf a c' hread hend').imp id fun ⟨closing, hclosing⟩ => ?_
      exact ⟨closing, fun more hmore =>
        .of_read ((hprospect _).read_of_ok hread (.inr id)) (hclosing more hmore)⟩

/-- Something that is seen the same with more tokens behind, and not taken. -/
theorem Mendable.look {f : α → Parser β} {a : α}
    (hlook : ∀ more : List PlacedToken, p (c.extend more) = .ok (a, c.extend more))
    (h : Mendable stuck follow (f a) c) : Mendable stuck follow (p >>= f) c := by
  have hnow : p c = .ok (a, c) := by
    have hnone := hlook []
    rwa [Cursor.extend_nil] at hnone
  intro hend
  refine (h ((bind_of_ok hnow).symm.trans hend)).imp id fun ⟨closing, hclosing⟩ => ?_
  exact ⟨closing, fun more hmore => .of_read (hlook _) (hclosing more hmore)⟩

theorem Mendable.of_eq {q : Parser α}
    (heq : ∀ more : List PlacedToken, p (c.extend more) = q (c.extend more))
    (h : Mendable stuck follow q c) : Mendable stuck follow p c := by
  have hnow : p c = q c := by
    have hnone := heq []
    rwa [Cursor.extend_nil] at hnone
  intro hend
  refine (h (hnow ▸ hend)).imp id fun ⟨closing, hclosing⟩ => ⟨closing, fun more hmore => ?_⟩
  obtain ⟨a, d, hread, htokens⟩ := hclosing more hmore
  exact ⟨a, d, (heq _).trans hread, htokens⟩

/-- What is made of what is read needs no tokens. -/
theorem Mendable.map {g : α → β} (h : Mendable stuck follow p c) :
    Mendable stuck follow (p >>= fun a => Pure.pure (g a)) c := by
  intro hend
  cases hread : p c with
  | error e =>
      have heq := (bind_of_error (f := fun a => (Pure.pure (g a) : Parser β)) hread).symm.trans hend
      cases heq
      refine (h hread).imp id fun ⟨closing, hclosing⟩ => ⟨closing, fun more hmore => ?_⟩
      obtain ⟨a, d, hread', htokens⟩ := hclosing more hmore
      exact .of_read hread' ⟨g a, d, rfl, htokens⟩
  | ok x =>
      have heq := (bind_of_ok (f := fun a => (Pure.pure (g a) : Parser β)) hread).symm.trans hend
      cases heq

theorem Mendable.peek {f : Option Token → Parser β} {t : PlacedToken} {rest : List PlacedToken}
    (hrest : c.rest = t :: rest) (h : Mendable stuck follow (f (some t.token)) c) :
    Mendable stuck follow (Parser.peek >>= f) c :=
  .look (peek_extend hrest) h

theorem Mendable.eat {f : Bool → Parser β} {d : Delimiter} (hrest : c.rest ≠ [])
    (htrue : ∀ c' : Cursor, Parser.eat d c = .ok (true, c') → Mendable stuck follow (f true) c')
    (hfalse : startsWith d c.tokens = false → Mendable stuck follow (f false) c) :
    Mendable stuck follow (Parser.eat d >>= f) c := by
  cases hstarts : startsWith d c.tokens with
  | false =>
      refine .look (fun more => eat_apply ?_) (hfalse hstarts)
      exact (Cursor.startsWith_extend hrest d more).trans hstarts
  | true =>
      obtain ⟨t, rest, hcons⟩ := Cursor.exists_rest hrest
      have hread := eat_of_startsWith hcons hstarts
      refine .seq (fun more => .read hread (eat_of_startsWith ?_ ?_)) (by rw [hread]; exact nofun)
        fun taken c' htaken => ?_
      · rw [Cursor.rest_extend, hcons, List.cons_append]
      · exact (Cursor.startsWith_extend hrest d more).trans hstarts
      · cases hread.symm.trans htaken
        exact htrue _ hread

theorem Mendable.atDelimiter {f : Bool → Parser β} {d : Delimiter} (hrest : c.rest ≠ [])
    (h : ∀ found : Bool, Mendable stuck follow (f found) c) :
    Mendable stuck follow (Parser.atDelimiter d >>= f) c := by
  refine .look (fun more => ?_) (h (startsWith d c.tokens))
  rw [atDelimiter_apply, Cursor.startsWith_extend hrest]

theorem Mendable.binaryOp? {f : Option BinaryOp → Parser β} {looseness : Nat} (hrest : c.rest ≠ [])
    (h : ∀ op : Option BinaryOp, Mendable stuck follow (f op) c) :
    Mendable stuck follow (Parser.binaryOp? looseness >>= f) c := by
  obtain ⟨t, rest, hcons⟩ := Cursor.exists_rest hrest
  rw [Parser.binaryOp?, bind_assoc]
  refine .peek hcons ?_
  cases t.token <;> exact h _

theorem Mendable.unaryOp? {f : Option UnaryOp → Parser β} (hrest : c.rest ≠ [])
    (h : ∀ op : Option UnaryOp, Mendable stuck follow (f op) c) :
    Mendable stuck follow (Parser.unaryOp? >>= f) c := by
  obtain ⟨t, rest, hcons⟩ := Cursor.exists_rest hrest
  rw [Parser.unaryOp?, bind_assoc]
  refine .peek hcons ?_
  cases t.token <;> exact h _

theorem next_ne_unexpectedEnd (hrest : c.rest ≠ []) : Parser.next c ≠ .error .unexpectedEnd := by
  obtain ⟨t, rest, hcons⟩ := Cursor.exists_rest hrest
  rw [Parser.next, hcons]
  rintro ⟨⟩

theorem expect_ne_unexpectedEnd (hrest : c.rest ≠ []) (d : Delimiter) :
    Parser.expect d c ≠ .error .unexpectedEnd := by
  obtain ⟨⟨token, position⟩, rest, hcons⟩ := Cursor.exists_rest hrest
  have hnext : Parser.next c = .ok (⟨token, position⟩, { c with rest, last := position }) := by
    rw [Parser.next, hcons]
  rw [Parser.expect, bind_of_ok hnext]
  cases token with
  | delimiter e =>
      dsimp only
      split <;> rintro ⟨⟩
  | _ => rintro ⟨⟩

theorem name_ne_unexpectedEnd (hrest : c.rest ≠ []) : Parser.name c ≠ .error .unexpectedEnd := by
  obtain ⟨⟨token, position⟩, rest, hcons⟩ := Cursor.exists_rest hrest
  have hnext : Parser.next c = .ok (⟨token, position⟩, { c with rest, last := position }) := by
    rw [Parser.next, hcons]
  rw [Parser.name, bind_of_ok hnext]
  cases token <;> rintro ⟨⟩

/-- A delimiter behind which there are tokens enough. -/
theorem Mendable.expect {f : Unit → Parser β} {d : Delimiter} (hrest : c.rest ≠ [])
    (hf : ∀ c' : Cursor, Parser.expect d c = .ok (⟨⟩, c') → Mendable stuck follow (f ⟨⟩) c') :
    Mendable stuck follow (Parser.expect d >>= f) c :=
  .seq (fun _ => .expect) (expect_ne_unexpectedEnd hrest d) fun _ c' hread => hf c' hread

theorem Mendable.next {f : PlacedToken → Parser β} (hrest : c.rest ≠ [])
    (hf : ∀ (t : PlacedToken) (c' : Cursor), Parser.next c = .ok (t, c') →
      Mendable stuck follow (f t) c') :
    Mendable stuck follow (Parser.next >>= f) c :=
  .seq (fun _ => .next) (next_ne_unexpectedEnd hrest) hf

theorem Mendable.discard_next {f : PUnit → Parser β} (hrest : c.rest ≠ [])
    (hf : ∀ c' : Cursor, (discard Parser.next : Parser PUnit) c = .ok (⟨⟩, c') →
      Mendable stuck follow (f ⟨⟩) c') :
    Mendable stuck follow (discard Parser.next >>= f) c := by
  obtain ⟨t, rest, hcons⟩ := Cursor.exists_rest hrest
  have hnext : Parser.next c = .ok (t, { c with rest, last := t.position }) := by
    rw [Parser.next, hcons]
  have hdiscard : (discard Parser.next : Parser PUnit) c =
      .ok (⟨⟩, { c with rest, last := t.position }) :=
    bind_of_ok (f := fun _ => Pure.pure PUnit.unit) hnext
  exact .seq (fun _ => .discard .next) (by rw [hdiscard]; rintro ⟨⟩) fun _ c' hread => hf c' hread

theorem Mendable.descend {f : PUnit → Parser β}
    (hf : c.depth < maxDepth → Mendable stuck follow (f ⟨⟩) { c with depth := c.depth + 1 }) :
    Mendable stuck follow (Parser.descend >>= f) c := by
  by_cases hlt : c.depth < maxDepth
  · have hread : Parser.descend c = .ok (⟨⟩, { c with depth := c.depth + 1 }) := if_pos hlt
    refine .seq (fun _ => .descend) (by rw [hread]; exact nofun) fun _ c' hread' => ?_
    cases hread.symm.trans hread'
    exact hf hlt
  · have hdeep : Parser.descend c = .error (.tooDeep c.position) := if_neg hlt
    exact .of_ne (by rw [bind_of_error hdeep]; exact nofun)

theorem Mendable.ascend {levels : Nat} {a : α} :
    Mendable stuck follow (Parser.ascend levels >>= fun _ => Pure.pure a) c := by
  refine .of_ne ?_
  by_cases hle : levels ≤ c.depth
  · have hread : Parser.ascend levels c = .ok (⟨⟩, { c with depth := c.depth - levels }) := if_pos hle
    rw [bind_of_ok hread]
    exact nofun
  · have hdeep : Parser.ascend levels c = .error .unbalanced := if_neg hle
    rw [bind_of_error hdeep]
    exact nofun

/-- Something that is read one level deeper. -/
theorem Mendable.nested (horderly : Orderly p)
    (hprospect : c.depth < maxDepth → ∀ more : List PlacedToken,
      Prospect True (¬ follow (more.map (·.token))) p p { c with depth := c.depth + 1 } more)
    (hp : c.depth < maxDepth → Mendable stuck follow p { c with depth := c.depth + 1 }) :
    Mendable stuck follow (Parser.nested p) c := by
  refine .descend fun hlt => ?_
  refine .bind horderly hlt (hprospect hlt) (hp hlt) (fun _ => ⟨[], ?_⟩) fun a c' _ _ => .ascend
  refine ⟨fun rest hrest => hrest, fun a d rest hd hdown _ => ?_⟩
  have hascend : Parser.ascend 1 d = .ok (⟨⟩, { d with depth := d.depth - 1 }) :=
    if_pos (hdown ▸ Nat.le_add_left 1 c.depth)
  exact .of_read hascend ⟨a, _, rfl, hd⟩

end Rules

end Parser

end ReplDaemon.Script
