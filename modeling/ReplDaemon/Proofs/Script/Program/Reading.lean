import ReplDaemon.Proofs.Script.Program.Descent
import ReplDaemon.Proofs.Script.Program.Spelling

/-!
# Reading what is spelt out

What a reader comes to in front of tokens that spell something, with as many levels as it needs: one
rule for each way in which readers are put together.
-/

namespace ReplDaemon.Script

/-- The tokens left. -/
def Cursor.tokens (c : Cursor) : List Token :=
  c.rest.map (·.token)

namespace Parser

variable {α β : Type}

/-- At a cursor, the reader `p` comes to be the reader `q` in front of the tokens `rest` at some depth,
if it need not go deeper than `reach` on the way; else the nesting is too deep. -/
def Becomes (p : Parser α) (c : Cursor) (q : Parser α) (rest : List Token) (depth reach : Nat) :
    Prop :=
  (reach ≤ maxDepth ∧ ∃ d : Cursor, p c = q d ∧ d.tokens = rest ∧ d.depth = depth) ∨
    (maxDepth < reach ∧ ∃ position : Position, p c = .error (.tooDeep position))

namespace Becomes

variable {p p' q r : Parser α} {c : Cursor} {rest rest' : List Token}
  {depth depth' reach reach' : Nat}

/-- What needs no step. -/
theorem refl (hrest : c.tokens = rest) (hdepth : c.depth = depth) : Becomes p c p rest depth 0 :=
  .inl ⟨Nat.zero_le _, c, rfl, hrest, hdepth⟩

theorem of_eq (h : p c = p' c) (h' : Becomes p' c q rest depth reach) :
    Becomes p c q rest depth reach := by
  unfold Becomes at h' ⊢
  rwa [h]

theorem trans (h : Becomes p c q rest depth reach)
    (h' : ∀ d : Cursor, reach ≤ maxDepth → d.tokens = rest → d.depth = depth →
      Becomes q d r rest' depth' reach') :
    Becomes p c r rest' depth' (max reach reach') := by
  rcases h with ⟨hle, d, heq, hrest, hdepth⟩ | ⟨hlt, hdeep⟩
  · rcases h' d hle hrest hdepth with ⟨hle', d', heq', hd'⟩ | ⟨hlt', position, hdeep⟩
    · exact .inl ⟨Nat.max_le.mpr ⟨hle, hle'⟩, d', heq.trans heq', hd'⟩
    · exact .inr ⟨by omega, position, heq.trans hdeep⟩
  · exact .inr ⟨by omega, hdeep⟩

/-- Only whether the reach is too deep matters. -/
theorem reaching (h : Becomes p c q rest depth reach)
    (hreach : reach ≤ maxDepth ↔ reach' ≤ maxDepth) : Becomes p c q rest depth reach' := by
  rcases h with ⟨hle, h⟩ | ⟨hlt, h⟩
  · exact .inl ⟨hreach.mp hle, h⟩
  · exact .inr ⟨by omega, h⟩

theorem bind {p : Parser α} {a : α} (h : Becomes p c (pure a) rest depth reach)
    (f : α → Parser β) : Becomes (p >>= f) c (f a) rest depth reach := by
  rcases h with ⟨hle, d, heq, hd⟩ | ⟨hlt, position, hdeep⟩
  · exact .inl ⟨hle, d, bind_of_ok heq, hd⟩
  · exact .inr ⟨hlt, position, bind_of_error hdeep⟩

/-- One reader after the other. -/
theorem seq {p : Parser α} {a : α} {f : α → Parser β} {q : Parser β}
    (h : Becomes p c (pure a) rest depth reach)
    (h' : ∀ d : Cursor, reach ≤ maxDepth → d.tokens = rest → d.depth = depth →
      Becomes (f a) d q rest' depth' reach') :
    Becomes (p >>= f) c q rest' depth' (max reach reach') :=
  (h.bind f).trans h'

/-- A reader that surely succeeds, before another one. -/
theorem after {p : Parser α} {a : α} {f : α → Parser β} {q : Parser β} {d : Cursor}
    (h : p c = .ok (a, d)) (h' : Becomes (f a) d q rest depth reach) :
    Becomes (p >>= f) c q rest depth reach := by
  unfold Becomes at h' ⊢
  rwa [bind_of_ok h]

end Becomes

section Steps

variable {c : Cursor} {rest rest' : List Token} {depth reach : Nat} {q : Parser α}

theorem peek_apply (c : Cursor) : peek c = .ok (c.tokens.head?, c) := by
  rw [Cursor.tokens, List.head?_map]
  rfl

theorem exists_next {token : Token} (h : c.tokens = token :: rest) :
    ∃ (t : PlacedToken) (d : Cursor), t.token = token ∧ next c = .ok (t, d) ∧ d.tokens = rest ∧
      d.depth = c.depth := by
  obtain ⟨tokens, last, depth⟩ := c
  cases tokens with
  | nil => cases h
  | cons t tail =>
      rw [Cursor.tokens, List.map_cons, List.cons.injEq] at h
      exact ⟨t, _, h.1, rfl, h.2, rfl⟩

/-- A token is taken. -/
theorem becomes_next {token : Token} {f : PlacedToken → Parser α} (h : c.tokens = token :: rest)
    (hf : ∀ (t : PlacedToken) (d : Cursor), t.token = token → d.tokens = rest →
      d.depth = c.depth → Becomes (f t) d q rest' depth reach) :
    Becomes (next >>= f) c q rest' depth reach := by
  obtain ⟨t, d, htoken, hnext, hrest, hdepth⟩ := exists_next h
  exact .after hnext (hf t d htoken hrest hdepth)

theorem becomes_discard {token : Token} {f : PUnit → Parser α} (h : c.tokens = token :: rest)
    (hf : ∀ d : Cursor, d.tokens = rest → d.depth = c.depth →
      Becomes (f ⟨⟩) d q rest' depth reach) :
    Becomes (discard next >>= f) c q rest' depth reach := by
  obtain ⟨t, d, _, hnext, hrest, hdepth⟩ := exists_next h
  have hdiscard : (discard next : Parser PUnit) c = .ok (⟨⟩, d) :=
    bind_of_ok (f := fun _ => pure PUnit.unit) hnext
  exact .after hdiscard (hf d hrest hdepth)

/-- Whether tokens begin with a delimiter. -/
def startsWith (d : Delimiter) : List Token → Bool
  | .delimiter e :: _ => e == d
  | _ => false

theorem atDelimiter_apply (d : Delimiter) (c : Cursor) :
    atDelimiter d c = .ok (startsWith d c.tokens, c) := by
  rw [atDelimiter, bind_of_ok (peek_apply c)]
  rcases c.tokens with _ | ⟨t, _⟩
  · rfl
  · cases t <;> rfl

/-- A delimiter that is there is taken. -/
theorem becomes_eat {d : Delimiter} {f : Bool → Parser α} (h : c.tokens = .delimiter d :: rest)
    (hf : ∀ e : Cursor, e.tokens = rest → e.depth = c.depth →
      Becomes (f true) e q rest' depth reach) :
    Becomes (eat d >>= f) c q rest' depth reach := by
  have hat : atDelimiter d c = .ok (true, c) := by simp [atDelimiter_apply, h, startsWith]
  rw [eat, bind_assoc]
  refine .after hat ?_
  rw [if_pos rfl, bind_assoc]
  exact becomes_discard h hf

/-- A delimiter that is not there is not taken. -/
theorem eat_apply {d : Delimiter} (h : startsWith d c.tokens = false) :
    eat d c = .ok (false, c) := by
  have hat : atDelimiter d c = .ok (false, c) := by rw [atDelimiter_apply, h]
  rw [eat, bind_of_ok hat]
  rfl

theorem becomes_expect {d : Delimiter} {f : PUnit → Parser α} (h : c.tokens = .delimiter d :: rest)
    (hf : ∀ e : Cursor, e.tokens = rest → e.depth = c.depth →
      Becomes (f ⟨⟩) e q rest' depth reach) :
    Becomes (expect d >>= f) c q rest' depth reach := by
  rw [expect, bind_assoc]
  apply becomes_next h
  intro t e htoken hrest hdepth
  rw [htoken]
  simp only [beq_self_eq_true, if_true, pure_bind]
  exact hf e hrest hdepth

theorem becomes_descend {f : PUnit → Parser α} (hdepth : c.depth ≤ maxDepth) (hreach : c.depth < reach)
    (hf : ∀ d : Cursor, c.depth < maxDepth → d.tokens = c.tokens → d.depth = c.depth + 1 →
      Becomes (f ⟨⟩) d q rest' depth reach) :
    Becomes (descend >>= f) c q rest' depth reach := by
  by_cases hlt : c.depth < maxDepth
  · have hdescend : descend c = .ok (⟨⟩, { c with depth := c.depth + 1 }) := if_pos hlt
    exact .after hdescend (hf _ hlt rfl rfl)
  · have hdescend : descend c = .error (.tooDeep c.position) := if_neg hlt
    exact .inr ⟨by omega, c.position, bind_of_error hdescend⟩

theorem becomes_ascend {levels : Nat} {f : PUnit → Parser α} (h : levels ≤ c.depth)
    (hf : ∀ d : Cursor, d.tokens = c.tokens → d.depth = c.depth - levels →
      Becomes (f ⟨⟩) d q rest' depth reach) :
    Becomes (ascend levels >>= f) c q rest' depth reach := by
  have hascend : ascend levels c = .ok (⟨⟩, { c with depth := c.depth - levels }) := if_pos h
  exact .after hascend (hf _ rfl rfl)

end Steps

/-- In front of tokens that spell it, with tokens behind them that may follow, the reader reads `a`, and
it needs some levels to do so. This holds from a depth on. -/
def Reads (floor : Nat) (p : Parser α) (spelt : List Token) (follow : List Token → Prop)
    (need : Nat) (a : α) : Prop :=
  ∀ (c : Cursor) (rest : List Token), floor ≤ c.depth → c.depth ≤ maxDepth →
    c.tokens = spelt ++ rest → follow rest →
      Becomes p c (pure a) rest c.depth (c.depth + need)

theorem Reads.nested {floor need : Nat} {p : Parser α} {spelt : List Token}
    {follow : List Token → Prop} {a : α} (h : Reads (floor + 1) p spelt follow need a) :
    Reads floor (nested p) spelt follow (need + 1) a := by
  intro c rest hfloor hdepth htokens hfollow
  rw [Parser.nested]
  apply becomes_descend hdepth (by omega)
  intro d hlt hd hdeep
  have hread := h d rest (by omega) (by omega) (hd.trans htokens) hfollow
  refine .reaching (hread.seq fun e _ he hdown => becomes_ascend (by omega) fun e' he' hup =>
    .refl (he'.trans he) (by omega)) ?_
  omega

/-- The most that is needed for one of several things. -/
def most (need : α → Nat) : List α → Nat
  | [] => 0
  | a :: rest => max (need a) (most need rest)

/-- What stands behind an item: a comma and the other items, or only the closing delimiter. -/
def behind (close : Delimiter) : List (List Token) → List Token
  | [] => [.delimiter close]
  | item :: rest => .delimiter .comma :: (commaSeparated (item :: rest) ++ [.delimiter close])

theorem commaSeparated_cons (close : Delimiter) (item : List Token) (rest : List (List Token)) :
    commaSeparated (item :: rest) ++ [.delimiter close] = item ++ behind close rest := by
  cases rest <;> simp [commaSeparated, behind]

/-- Tokens begin, and not with a delimiter. -/
def Starts (d : Delimiter) (tokens : List Token) : Prop :=
  ∃ (t : Token) (rest : List Token), tokens = t :: rest ∧ t ≠ .delimiter d

theorem Starts.startsWith {d : Delimiter} {tokens : List Token} (h : Starts d tokens)
    (rest : List Token) : startsWith d (tokens ++ rest) = false := by
  obtain ⟨t, tail, rfl, ht⟩ := h
  rw [List.cons_append]
  unfold Parser.startsWith
  split
  · next e _ heq =>
      cases heq
      exact beq_eq_false_iff_ne.mpr fun he => ht (by rw [he])
  · rfl

section Items

variable {floor : Nat} {item : Parser α} {close : Delimiter} {spell : α → List Token}
  {follow : List Token → Prop} {need : α → Nat}

/-- The items from behind the first one on. -/
theorem becomes_itemsFrom (hcomma : ∀ rest : List Token, follow (.delimiter .comma :: rest))
    (hclose : ∀ rest : List Token, follow (.delimiter close :: rest)) (hne : close ≠ .comma)
    {items : List α} (hstarts : ∀ a ∈ items, Starts close (spell a))
    (hitem : ∀ a ∈ items, Reads floor item (spell a) follow (need a) a) (found : List α)
    (rounds : List PlacedToken) {c : Cursor} {rest : List Token} (hfloor : floor ≤ c.depth)
    (hdepth : c.depth ≤ maxDepth) (htokens : c.tokens = behind close (items.map spell) ++ rest)
    (hrounds : c.tokens.length ≤ rounds.length) :
    Becomes (itemsFrom item close found rounds) c (pure (found.reverse ++ items)) rest c.depth
      (c.depth + most need items) := by
  induction items generalizing found rounds c with
  | nil =>
      cases rounds with
      | nil => simp [htokens, behind] at hrounds
      | cons _ rounds =>
          rw [itemsFrom]
          apply becomes_eat htokens
          intro d hd hdown
          rw [if_pos rfl, List.append_nil]
          exact .reaching (.refl hd hdown) (by simp only [most]; omega)
  | cons a items ih =>
      cases rounds with
      | nil => simp [htokens, behind] at hrounds
      | cons _ rounds =>
          have hcommaHead : startsWith close c.tokens = false := by
            rw [htokens]
            exact beq_eq_false_iff_ne.mpr hne.symm
          rw [List.map_cons, behind, commaSeparated_cons, List.cons_append, List.append_assoc]
            at htokens
          rw [itemsFrom]
          refine .after (eat_apply hcommaHead) ?_
          simp only [Bool.false_eq_true, if_false]
          apply becomes_expect htokens
          intro d hd hdown
          have hstart : startsWith close d.tokens = false := by
            rw [hd]
            exact (hstarts a List.mem_cons_self).startsWith _
          refine .after (eat_apply hstart) ?_
          simp only [Bool.false_eq_true, if_false]
          have hfollow : follow (behind close (items.map spell) ++ rest) := by
            cases items with
            | nil => exact hclose _
            | cons b items => exact hcomma _
          have hread := hitem a List.mem_cons_self d _ (by omega) (by omega) hd hfollow
          have hrest (e : Cursor) (_ : d.depth + need a ≤ maxDepth)
              (he : e.tokens = behind close (items.map spell) ++ rest) (hup : e.depth = d.depth) :
              Becomes (itemsFrom item close (a :: found) rounds) e
                (pure (found.reverse ++ a :: items)) rest c.depth (c.depth + most need items) := by
            have hlength : e.tokens.length ≤ rounds.length := by
              rw [he]
              rw [htokens] at hrounds
              simp only [List.length_cons, List.length_append] at hrounds ⊢
              omega
            have hfrom := ih (fun b hb => hstarts b (List.mem_cons_of_mem _ hb))
              (fun b hb => hitem b (List.mem_cons_of_mem _ hb)) (a :: found) rounds (by omega)
              (by omega) he hlength
            rw [List.reverse_cons, List.append_assoc, List.singleton_append, hup, hdown] at hfrom
            exact hfrom
          exact .reaching (hread.seq hrest) (by simp only [most]; omega)

/-- All the items up to the closing delimiter. -/
theorem reads_items (hcomma : ∀ rest : List Token, follow (.delimiter .comma :: rest))
    (hclose : ∀ rest : List Token, follow (.delimiter close :: rest)) (hne : close ≠ .comma)
    {list : List α} (hstarts : ∀ a ∈ list, Starts close (spell a))
    (hitem : ∀ a ∈ list, Reads floor item (spell a) follow (need a) a) :
    Reads floor (items item close) (commaSeparated (list.map spell) ++ [.delimiter close])
      (fun _ => True) (most need list) list := by
  intro c rest hfloor hdepth htokens _
  rw [items]
  cases list with
  | nil =>
      apply becomes_eat htokens
      intro d hd hdown
      rw [if_pos rfl]
      exact .reaching (.refl hd hdown) (by simp only [most]; omega)
  | cons a list =>
      rw [List.map_cons, commaSeparated_cons, List.append_assoc] at htokens
      have hstart : startsWith close c.tokens = false := by
        rw [htokens]
        exact (hstarts a List.mem_cons_self).startsWith _
      have hfollow : follow (behind close (list.map spell) ++ rest) := by
        cases list with
        | nil => exact hclose _
        | cons b list => exact hcomma _
      have hread := hitem a List.mem_cons_self c _ hfloor hdepth htokens hfollow
      refine .after (eat_apply hstart) ?_
      simp only [Bool.false_eq_true, if_false]
      have hrest (d : Cursor) (_ : c.depth + need a ≤ maxDepth)
          (hd : d.tokens = behind close (list.map spell) ++ rest) (hdown : d.depth = c.depth) :
          Becomes (remaining >>= fun rounds => itemsFrom item close [a] rounds) d (pure (a :: list))
            rest c.depth (c.depth + most need list) := by
        have hremaining : remaining d = .ok (d.rest, d) := rfl
        have hfrom := becomes_itemsFrom hcomma hclose hne
          (fun b hb => hstarts b (List.mem_cons_of_mem _ hb))
          (fun b hb => hitem b (List.mem_cons_of_mem _ hb)) [a] d.rest (by omega) (by omega) hd
          (Nat.le_of_eq (List.length_map _))
        rw [hdown] at hfrom
        exact .after hremaining hfrom
      exact .reaching (hread.seq hrest) (by simp only [most]; omega)

end Items

end Parser

end ReplDaemon.Script
