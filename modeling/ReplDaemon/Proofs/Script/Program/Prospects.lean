import ReplDaemon.Proofs.Script.Program.Extension
import ReplDaemon.Proofs.Script.Program.Statements

/-!
# Expressions with more tokens behind

Every reader of expressions goes on as before when more tokens stand behind, unless it has come to its
last token and could go on there: with an operator, an index or a call. An opening parenthesis, bracket
or map at the last level is an exception. It may still be closed at once, and with no more tokens in
sight the reader tries to go deeper and fails.
-/

namespace ReplDaemon.Script

namespace Parser

variable {α β : Type}

/-- A reader that leaves the depth as it was and the tokens behind those that it took. -/
structure Orderly (p : Parser α) : Prop where
  balanced : Balanced p
  takes : Takes 0 p

namespace Orderly

variable {least : Nat} {p : Parser α} {post : α → Prop}

theorem of_ensures (h : ∀ d : Nat, Ensures d d p post) (htakes : Takes least p) : Orderly p :=
  ⟨fun d _ => (h d).mono fun _ _ => trivial, htakes.mono (Nat.zero_le _)⟩

theorem next : Orderly Parser.next := .of_ensures (fun _ => .next) .next

theorem discard_next : Orderly (discard Parser.next : Parser PUnit) :=
  .of_ensures (fun _ => Ensures.next.discard) Takes.next.discard

theorem eat {d : Delimiter} : Orderly (Parser.eat d) := .of_ensures (fun _ => .eat) .eat

theorem expect {d : Delimiter} : Orderly (Parser.expect d) := .of_ensures (fun _ => .expect) .expect

theorem name : Orderly Parser.name := .of_ensures (fun _ => .name) .name

theorem items {item : Parser α} (h : Orderly item) {close : Delimiter} :
    Orderly (Parser.items item close) :=
  ⟨fun d hd => (h.balanced d hd).items.mono fun _ _ => trivial, h.takes.items⟩

theorem expressionWithin (levels : Nat) : Orderly (Parser.expressionWithin levels) :=
  ⟨(deeper_expressionWithin levels).balanced, (takes_expressionWithin levels).mono (Nat.zero_le 1)⟩

theorem expression : Orderly Parser.expression := .expressionWithin (maxDepth + 1)

theorem chain (levels looseness : Nat) :
    Orderly (Parser.chain (unary (Parser.postfixed (Parser.expressionWithin levels))) looseness) := by
  have hpostfixed := bounded_postfixed (deeper_expressionWithin levels)
  have hbounded := bounded_chain tallestPostfixed_strictMono.monotone
    (bounded_unary tallestPostfixed_strictMono hpostfixed) looseness
  have htakes := takes_chain (takes_unary (takes_postfixed (takes_expressionWithin levels))) looseness
  exact ⟨hbounded.balanced, htakes.mono (Nat.zero_le 1)⟩

theorem primary (levels : Nat) : Orderly (Parser.primary (Parser.expressionWithin levels)) :=
  ⟨(bounded_primary (deeper_expressionWithin levels)).balanced,
    (takes_primary (takes_expressionWithin levels)).mono (Nat.zero_le 1)⟩

theorem unaryFrom {operand : Parser Expr} (h : Orderly operand) (rounds : Nat) :
    Orderly (Parser.unaryFrom operand rounds) := by
  induction rounds with
  | zero => exact ⟨fun _ _ => .error, .error⟩
  | succ rounds ih =>
      refine ⟨fun d hd => Ensures.unaryOp?.bind fun op _ => ?_, Takes.unaryOp?.after fun op => ?_⟩
      · cases op with
        | none => exact h.balanced d hd
        | some op =>
            exact Ensures.next.discard.bind fun _ _ =>
              (Ensures.nested fun hlt => ih.balanced (d + 1) hlt).bind fun _ _ => .pure trivial
      · cases op with
        | none => exact h.takes
        | some op =>
            exact (Takes.next.discard.mono (Nat.zero_le 1)).after fun _ =>
              ih.takes.nested.before fun _ => .pure

theorem postfixed (levels : Nat) :
    Orderly (Parser.postfixed (Parser.expressionWithin levels)) :=
  ⟨(bounded_postfixed (deeper_expressionWithin levels)).balanced,
    (takes_postfixed (takes_expressionWithin levels)).mono (Nat.zero_le 1)⟩

theorem entry (levels : Nat) : Orderly (Parser.entry (Parser.expressionWithin levels)) :=
  ⟨(deeper_expressionWithin levels).entry.balanced, takes_entry (expressionWithin levels).takes⟩

end Orderly

/-- A cursor at a depth that is allowed, where the tokens do not end with something opened unless that
is an excuse. -/
structure Ready (excuse : Prop) (c : Cursor) : Prop where
  depth_le : c.depth ≤ maxDepth
  excuse_of : EndsOpen c.rest → excuse

namespace Ready

variable {excuse : Prop} {c c' : Cursor}

theorem of_depth (h : c.depth ≤ maxDepth) : Ready True c :=
  ⟨h, fun _ => trivial⟩

theorem of_suffix (h : Ready excuse c) (hdepth : c'.depth ≤ maxDepth) (hsuffix : c'.rest <:+ c.rest) :
    Ready excuse c' :=
  ⟨hdepth, fun hends => h.excuse_of (hends.of_suffix hsuffix)⟩

/-- Behind a token that opens something, the end of the tokens is an excuse. -/
theorem excuse_of_opens (h : Ready excuse c) {t : PlacedToken} (hrest : c.rest = t :: c'.rest)
    (hopens : t.token.opensItems = true) : c'.rest = [] → excuse := by
  intro hnil
  rw [hnil] at hrest
  exact h.excuse_of (hrest ▸ endsOpen_singleton hopens)

theorem step (h : Ready excuse c) {p : Parser α} (hp : Orderly p) {a : α}
    (hread : p c = .ok (a, c')) : Ready excuse c' ∧ c'.depth = c.depth := by
  have hdepth := hp.balanced.depth_eq h.depth_le hread
  exact ⟨h.of_suffix (hdepth ▸ h.depth_le) (hp.takes.suffix hread), hdepth⟩

end Ready

section End

variable {c : Cursor}

theorem startsWith_of_nil (h : c.rest = []) (d : Delimiter) : startsWith d c.tokens = false := by
  rw [Cursor.tokens_of_rest_nil h]
  rfl

theorem stops_of_nil (h : c.rest = []) (allowed : Nat) : Stops allowed c.tokens := by
  rw [Cursor.tokens_of_rest_nil h]
  exact .nil allowed

theorem peek_of_nil (h : c.rest = []) : peek c = .ok (none, c) := by
  rw [peek_apply, Cursor.tokens_of_rest_nil h]
  rfl

theorem next_of_nil (h : c.rest = []) : next c = .error .unexpectedEnd := by
  rw [next, h]

theorem expect_of_nil (h : c.rest = []) (d : Delimiter) : expect d c = .error .unexpectedEnd :=
  bind_of_error (next_of_nil h)

end End

/-- What a reader of items does at the end of the tokens: it wants more of them, unless it is too deep
for an item, and then it has read none at that depth either. -/
structure WantsMore (item : Parser α) : Prop where
  cases_of_nil : ∀ c : Cursor, c.rest = [] →
    item c = .error .unexpectedEnd ∨ ∃ position : Position, item c = .error (.tooDeep position)
  again : ∀ (c c' d : Cursor) (a : α), item c = .ok (a, c') → d.rest = [] → d.depth = c'.depth →
    item d = .error .unexpectedEnd

section Items

variable {excuse loose : Prop} {item : Parser α} {close : Delimiter} {more : List PlacedToken}

theorem itemsFrom_of_nil {c : Cursor} (h : c.rest = []) (found : List α)
    (rounds : List PlacedToken) : itemsFrom item close found rounds c = .error .unexpectedEnd := by
  cases rounds with
  | nil => rfl
  | cons _ rounds =>
      rw [itemsFrom, bind_of_ok (eat_apply (startsWith_of_nil h close))]
      exact bind_of_error (expect_of_nil h .comma)

/-- Where an item has been read, the next one is not too deep. -/
theorem prospect_itemsFrom (horderly : Orderly item)
    (hitem : ∀ c : Cursor, Ready excuse c → Prospect excuse loose item item c more)
    (hwants : WantsMore item) (found : List α) (rounds : List PlacedToken) {c : Cursor}
    (hready : Ready excuse c)
    (hroom : ∀ d : Cursor, d.rest = [] → d.depth = c.depth → item d = .error .unexpectedEnd) :
    Prospect excuse False (itemsFrom item close found rounds)
      (itemsFrom item close found (rounds ++ more)) c more := by
  induction rounds generalizing found c with
  | nil => exact .of_unexpectedEnd rfl
  | cons t rounds ih =>
      by_cases hnil : c.rest = []
      · exact .of_unexpectedEnd (itemsFrom_of_nil hnil found _)
      rw [List.cons_append, itemsFrom, itemsFrom]
      refine .eat hnil (fun c' _ => .pure) fun _ => ?_
      refine .seq .expect fun _ c₁ hexpect => ?_
      obtain ⟨hready₁, hdepth₁⟩ := hready.step .expect hexpect
      by_cases hnil₁ : c₁.rest = []
      · have heat := eat_apply (startsWith_of_nil hnil₁ close)
        exact .of_unexpectedEnd
          ((bind_of_ok heat).trans (bind_of_error (hroom c₁ hnil₁ hdepth₁)))
      refine .eat hnil₁ (fun c' _ => .pure) fun _ => ?_
      refine (hitem c₁ hready₁).bind (fun a c₂ hread => ?_) fun a c₂ _ hend _ =>
        .of_unexpectedEnd (itemsFrom_of_nil hend _ rounds)
      obtain ⟨hready₂, hdepth₂⟩ := hready₁.step horderly hread
      exact ih (a :: found) hready₂ fun d hd hdepth => hwants.again c₁ c₂ d a hread hd hdepth

theorem prospect_items (horderly : Orderly item)
    (hitem : ∀ c : Cursor, Ready excuse c → Prospect excuse loose item item c more)
    (hwants : WantsMore item) {c : Cursor} (hready : Ready excuse c) (hopen : c.rest = [] → excuse) :
    Prospect excuse False (items item close) (items item close) c more := by
  rw [items]
  by_cases hnil : c.rest = []
  · have heat := eat_apply (startsWith_of_nil hnil close)
    rcases hwants.cases_of_nil c hnil with hend | ⟨position, hdeep⟩
    · exact .of_unexpectedEnd ((bind_of_ok heat).trans (bind_of_error hend))
    · exact .excused ((bind_of_ok heat).trans (bind_of_error hdeep)) (hopen hnil)
  refine .eat hnil (fun c' _ => .pure) fun _ => ?_
  refine (hitem c hready).bind (fun a c' hread => ?_) fun a c' _ hend _ => ?_
  · refine .remaining ?_
    exact prospect_itemsFrom horderly hitem hwants [a] c'.rest (hready.step horderly hread).1
      fun d hd hdepth => hwants.again c c' d a hread hd hdepth
  · have hremaining : remaining c' = .ok (c'.rest, c') := rfl
    refine .of_unexpectedEnd ?_
    rw [bind_of_ok hremaining]
    exact itemsFrom_of_nil hend [a] _

end Items

section Expressions

variable {excuse : Prop} {operand inner : Parser Expr} {more : List PlacedToken}

/-- Where no operator of its looseness follows, a chain is complete. -/
theorem chainFrom_of_stops (operand : Parser Expr) {looseness : Nat} (links : Nat) (lhs : Expr)
    (rounds : Nat) {c : Cursor} (hstops : Stops (looseness + 1) c.tokens)
    (hlinks : links ≤ c.depth) :
    chainFrom operand looseness links lhs (rounds + 1) c =
      .ok (lhs, { c with depth := c.depth - links }) := by
  have hascend : ascend links c = .ok (⟨⟩, { c with depth := c.depth - links }) := if_pos hlinks
  rw [chainFrom_succ, bind_of_ok (binaryOp?_of_stops hstops)]
  exact bind_of_ok hascend

/-- Where neither an index nor a call follows, what can be indexed is complete. -/
theorem linksFrom_of_stops (inner : Parser Expr) (links : Nat) (e : Expr) (rounds : Nat) {c : Cursor}
    (hstops : Stops 0 c.tokens) (hlinks : links ≤ c.depth) :
    linksFrom inner links e (rounds + 1) c = .ok (e, { c with depth := c.depth - links }) := by
  have hascend : ascend links c = .ok (⟨⟩, { c with depth := c.depth - links }) := if_pos hlinks
  have hcall : atDelimiter .openParen c = .ok (false, c) := by
    rw [atDelimiter_apply, hstops.noCall]
  rw [linksFrom_succ, bind_of_ok (eat_apply hstops.noIndex)]
  simp only [Bool.false_eq_true, if_false]
  rw [bind_of_ok hcall]
  exact bind_of_ok hascend

/-- The rounds of a chain last for as long as there are levels for its links. -/
theorem prospect_chainFrom {looseness : Nat} (horderly : Orderly operand)
    (hoperand : ∀ c : Cursor, Ready excuse c →
      Prospect excuse (¬ Stops looseness (more.map (·.token))) operand operand c more)
    (links : Nat) (lhs : Expr) (rounds : Nat) {c : Cursor} (hready : Ready excuse c)
    (hlinks : links ≤ c.depth) (hrounds : maxDepth < links + rounds) :
    Prospect excuse (¬ Stops (looseness + 1) (more.map (·.token)))
      (chainFrom operand looseness links lhs rounds) (chainFrom operand looseness links lhs rounds) c
      more := by
  have hle := hready.depth_le
  induction rounds generalizing links lhs c with
  | zero => omega
  | succ rounds ih =>
      by_cases hnil : c.rest = []
      · have hp := chainFrom_of_stops operand links lhs rounds
          (stops_of_nil hnil (looseness + 1)) hlinks
        by_cases hstops : Stops (looseness + 1) (more.map (·.token))
        · have htokens : Stops (looseness + 1) (c.extend more).tokens := by
            rw [Cursor.tokens_extend, Cursor.tokens_of_rest_nil hnil]
            exact hstops
          exact .read hp (chainFrom_of_stops operand links lhs rounds htokens hlinks)
        · exact .ended hp hnil hstops
      rw [chainFrom_succ]
      refine .binaryOp? hnil fun op => ?_
      cases op with
      | none => exact .seq .ascend fun _ _ _ => .pure
      | some op =>
          refine .seq (.discard .next) fun _ c₁ hnext => ?_
          obtain ⟨hready₁, hdepth₁⟩ := hready.step .discard_next hnext
          refine .seq .descend fun _ c₂ hdescend => ?_
          obtain ⟨hlt, rfl⟩ := descend_eq_ok hdescend
          have hready₂ : Ready excuse { c₁ with depth := c₁.depth + 1 } := ⟨hlt, hready₁.excuse_of⟩
          refine (hoperand _ hready₂).bind (fun rhs c₃ hread => ?_)
            fun rhs c₃ hread hend hloose => ?_
          · obtain ⟨hready₃, hdepth₃⟩ := hready₂.step horderly hread
            have hdeep : c₃.depth = c₁.depth + 1 := hdepth₃
            exact ih (links + 1) (.binary op lhs rhs) hready₃ (by omega) (by omega) hready₃.depth_le
          · obtain ⟨hready₃, hdepth₃⟩ := hready₂.step horderly hread
            have hdeep : c₃.depth = c₁.depth + 1 := hdepth₃
            obtain ⟨rounds, rfl⟩ : ∃ n, rounds = n + 1 := ⟨rounds - 1, by omega⟩
            have hdone := chainFrom_of_stops operand (links + 1) (.binary op lhs rhs) rounds
              (stops_of_nil hend (looseness + 1)) (by omega)
            exact .inl ⟨_, _, hdone, hend, fun hstops => hloose (hstops.mono (Nat.le_succ _))⟩

theorem prospect_chain {levels : Nat}
    (hoperand : ∀ c : Cursor, Ready excuse c → Prospect excuse (¬ Stops 0 (more.map (·.token)))
      (unary (postfixed (expressionWithin levels))) (unary (postfixed (expressionWithin levels))) c
      more)
    (looseness : Nat) {c : Cursor} (hready : Ready excuse c) :
    Prospect excuse (¬ Stops (looseness + 1) (more.map (·.token)))
      (chain (unary (postfixed (expressionWithin levels))) looseness)
      (chain (unary (postfixed (expressionWithin levels))) looseness) c more := by
  induction looseness generalizing c with
  | zero =>
      exact (hoperand c hready).mono id fun hloose hstops => hloose (hstops.mono (Nat.zero_le 1))
  | succ looseness ih =>
      have horderly := Orderly.chain levels looseness
      rw [chain]
      refine (ih hready).bind (fun lhs c' hread => ?_) fun lhs c' hread hend hloose => ?_
      · exact prospect_chainFrom horderly (fun d hd => ih hd) 0 lhs maxRounds
          (hready.step horderly hread).1 (Nat.zero_le _) (by decide)
      · have hdone := chainFrom_of_stops
          (chain (unary (postfixed (expressionWithin levels))) looseness) 0 lhs (maxRounds - 1)
          (stops_of_nil hend (looseness + 1 + 1)) (Nat.zero_le _)
        exact .inl ⟨_, _, hdone, hend, fun hstops => hloose (hstops.mono (Nat.le_succ _))⟩

theorem prospect_unaryFrom {loose : Prop}
    (hend : ∀ c : Cursor, c.rest = [] → operand c = .error .unexpectedEnd)
    (hoperand : ∀ c : Cursor, Ready excuse c → Prospect excuse loose operand operand c more)
    (rounds : Nat) {c : Cursor} (hready : Ready excuse c) :
    Prospect excuse loose (unaryFrom operand rounds) (unaryFrom operand rounds) c more := by
  induction rounds generalizing c with
  | zero => exact .tooDeep
  | succ rounds ih =>
      rw [unaryFrom_succ]
      by_cases hnil : c.rest = []
      · have hnone : unaryOp? c = .ok (none, c) := bind_of_ok (peek_of_nil hnil)
        exact .of_unexpectedEnd ((bind_of_ok hnone).trans (hend c hnil))
      refine .unaryOp? hnil fun op => ?_
      cases op with
      | none => exact hoperand c hready
      | some op =>
          refine .seq (.discard .next) fun _ c₁ hnext => ?_
          obtain ⟨hready₁, hdepth₁⟩ := hready.step .discard_next hnext
          refine (Prospect.nested fun d hrest _ hdeep => ?_).bind (fun _ _ _ => .pure)
            fun _ _ _ hend hloose => .pure hend hloose
          exact ih ⟨hdeep, fun hends => hready₁.excuse_of (hrest ▸ hends)⟩

theorem prospect_linksFrom {loose : Prop} (horderly : Orderly inner)
    (hinner : ∀ c : Cursor, Ready excuse c → Prospect excuse loose inner inner c more)
    (hwants : WantsMore inner) (links : Nat) (e : Expr) (rounds : Nat) {c : Cursor}
    (hready : Ready excuse c) (hlinks : links ≤ c.depth) :
    Prospect excuse (¬ Stops 0 (more.map (·.token))) (linksFrom inner links e rounds)
      (linksFrom inner links e rounds) c more := by
  induction rounds generalizing links e c with
  | zero => exact .tooDeep
  | succ rounds ih =>
      by_cases hnil : c.rest = []
      · have hp := linksFrom_of_stops inner links e rounds (stops_of_nil hnil 0) hlinks
        by_cases hstops : Stops 0 (more.map (·.token))
        · have htokens : Stops 0 (c.extend more).tokens := by
            rw [Cursor.tokens_extend, Cursor.tokens_of_rest_nil hnil]
            exact hstops
          exact .read hp (linksFrom_of_stops inner links e rounds htokens hlinks)
        · exact .ended hp hnil hstops
      rw [linksFrom_succ]
      refine .eat hnil (fun c₁ heat => ?_) fun _ => ?_
      · obtain ⟨hready₁, hdepth₁⟩ := hready.step .eat heat
        refine .seq .descend fun _ c₂ hdescend => ?_
        obtain ⟨hlt, rfl⟩ := descend_eq_ok hdescend
        have hready₂ : Ready excuse { c₁ with depth := c₁.depth + 1 } := ⟨hlt, hready₁.excuse_of⟩
        refine (hinner _ hready₂).bind (fun position c₃ hread => ?_) fun position c₃ _ hend _ =>
          .of_unexpectedEnd (bind_of_error (expect_of_nil hend .closeBracket))
        obtain ⟨hready₃, hdepth₃⟩ := hready₂.step horderly hread
        refine .seq .expect fun _ c₄ hexpect => ?_
        obtain ⟨hready₄, hdepth₄⟩ := hready₃.step .expect hexpect
        have hdeep : c₃.depth = c₁.depth + 1 := hdepth₃
        exact ih (links + 1) (.index e position) hready₄ (by omega)
      · refine .atDelimiter hnil fun isCall hparen => ?_
        cases isCall with
        | false => exact .seq .ascend fun _ _ _ => .pure
        | true =>
            refine .seq .next fun t c₁ hnext => ?_
            obtain ⟨hready₁, hdepth₁⟩ := hready.step .next hnext
            cases e with
            | var name =>
                have hcons := next_eq_ok hnext
                have hopens : t.token.opensItems = true := by
                  rw [token_of_startsWith hcons hparen]
                  rfl
                refine .seq (prospect_items horderly hinner hwants hready₁
                  (hready.excuse_of_opens hcons hopens)) fun arguments c₂ hread => ?_
                obtain ⟨hready₂, hdepth₂⟩ := hready₁.step horderly.items hread
                exact ih links (.call name arguments) hready₂ (by omega)
            | _ => exact .throw

/-- A primary expression ends with a token of its own. -/
theorem prospect_primary {loose : Prop} (horderly : Orderly inner)
    (hinner : ∀ c : Cursor, Ready excuse c → Prospect excuse loose inner inner c more)
    (hwants : WantsMore inner) (horderlyEntry : Orderly (entry inner))
    (hentry : ∀ c : Cursor, Ready excuse c → Prospect excuse loose (entry inner) (entry inner) c more)
    (hwantsEntry : WantsMore (entry inner)) {c : Cursor} (hready : Ready excuse c) :
    Prospect excuse False (primary inner) (primary inner) c more := by
  refine .seq .next fun t c₁ hnext => ?_
  have hready₁ := (hready.step .next hnext).1
  have hcons := next_eq_ok hnext
  obtain ⟨token, position⟩ := t
  cases token with
  | delimiter d =>
      cases d with
      | openParen =>
          exact (hinner c₁ hready₁).bind (fun _ _ _ => .seq .expect fun _ _ _ => .pure)
            fun _ _ _ hend _ => .of_unexpectedEnd (bind_of_error (expect_of_nil hend .closeParen))
      | openBracket =>
          exact .seq (prospect_items horderly hinner hwants hready₁
            (hready.excuse_of_opens hcons rfl)) fun _ _ _ => .pure
      | openMap =>
          exact .seq (prospect_items horderlyEntry hentry hwantsEntry hready₁
            (hready.excuse_of_opens hcons rfl)) fun _ _ _ => .pure
      | _ => exact .throw
  | keyword k => cases k <;> first | exact .pure | exact .throw
  | operator o => exact .throw
  | _ => exact .pure

theorem primary_of_nil {c : Cursor} (h : c.rest = []) : primary inner c = .error .unexpectedEnd :=
  bind_of_error (next_of_nil h)

theorem postfixed_of_nil {c : Cursor} (h : c.rest = []) :
    postfixed inner c = .error .unexpectedEnd :=
  bind_of_error (primary_of_nil h)

theorem unary_of_nil {c : Cursor} (h : c.rest = [])
    (hoperand : operand c = .error .unexpectedEnd) : unary operand c = .error .unexpectedEnd := by
  have hnone : unaryOp? c = .ok (none, c) := bind_of_ok (peek_of_nil h)
  exact (bind_of_ok hnone).trans hoperand

theorem chain_of_error {c : Cursor} {e : ParseError} (h : operand c = .error e) (looseness : Nat) :
    chain operand looseness c = .error e := by
  induction looseness with
  | zero => exact h
  | succ looseness ih => exact bind_of_error ih

/-- At the end of the tokens, an expression needs one level and one more token. -/
theorem expressionWithin_of_nil {levels : Nat} {c : Cursor} (h : c.rest = []) :
    expressionWithin (levels + 1) c = .error
      (if c.depth < maxDepth then .unexpectedEnd else .tooDeep c.position) := by
  rw [expressionWithin, nested]
  split
  · next hlt =>
      have hdescend : descend c = .ok (⟨⟩, { c with depth := c.depth + 1 }) := if_pos hlt
      have hdeep : ({ c with depth := c.depth + 1 } : Cursor).rest = [] := h
      rw [bind_of_ok hdescend]
      exact bind_of_error (chain_of_error (unary_of_nil hdeep (postfixed_of_nil hdeep)) _)
  · next hge => exact bind_of_error (if_neg hge)

/-- Where an expression is not too deep, there is a level left. -/
theorem depth_lt_of_ne_tooDeep {levels : Nat} {c : Cursor} (hlevels : maxDepth < c.depth + levels)
    (h : ∀ position : Position, expressionWithin levels c ≠ .error (.tooDeep position)) :
    c.depth < maxDepth := by
  by_contra hge
  cases levels with
  | zero => exact h c.position rfl
  | succ levels =>
      have hdescend : descend c = .error (.tooDeep c.position) := if_neg hge
      exact h c.position (bind_of_error hdescend)

theorem wantsMore_expressionWithin (levels : Nat) : WantsMore (expressionWithin levels) := by
  cases levels with
  | zero => exact ⟨fun c _ => .inr ⟨c.position, rfl⟩, fun _ _ _ _ hread => by cases hread⟩
  | succ levels =>
      refine ⟨fun c hnil => ?_, fun c c' d e hread hnil hdepth => ?_⟩
      · rw [expressionWithin_of_nil hnil]
        split
        · exact .inl rfl
        · exact .inr ⟨c.position, rfl⟩
      · have hlt : c.depth < maxDepth := by
          by_contra hge
          have hdescend : descend c = .error (.tooDeep c.position) := if_neg hge
          rw [expressionWithin, nested, bind_of_error hdescend] at hread
          cases hread
        have hsame := (Orderly.expressionWithin _).balanced.depth_eq (Nat.le_of_lt hlt) hread
        rw [expressionWithin_of_nil hnil, if_pos (by omega)]

theorem wantsMore_entry (h : WantsMore inner) : WantsMore (entry inner) := by
  refine ⟨fun c hnil => ?_, fun c c' d e hread hnil hdepth => ?_⟩
  · rcases h.cases_of_nil c hnil with hend | ⟨position, hdeep⟩
    · exact .inl (bind_of_error hend)
    · exact .inr ⟨position, bind_of_error hdeep⟩
  · obtain ⟨key, c₁, _, hread⟩ := exists_of_bind_ok hread
    obtain ⟨_, c₂, _, hread⟩ := exists_of_bind_ok hread
    obtain ⟨value, c₃, hvalue, hread⟩ := exists_of_bind_ok hread
    cases hread
    exact bind_of_error (h.again c₂ _ d value hvalue hnil hdepth)

theorem prospect_entry {loose : Prop} (horderly : Orderly inner)
    (hinner : ∀ c : Cursor, Ready excuse c → Prospect excuse loose inner inner c more)
    {c : Cursor} (hready : Ready excuse c) :
    Prospect excuse loose (entry inner) (entry inner) c more := by
  refine (hinner c hready).bind (fun key c₁ hread => ?_) fun key c₁ _ hend _ =>
    .of_unexpectedEnd (bind_of_error (expect_of_nil hend .colon))
  have hready₁ := (hready.step horderly hread).1
  refine .seq .expect fun _ c₂ hexpect => ?_
  have hready₂ := (hready₁.step .expect hexpect).1
  exact (hinner c₂ hready₂).bind (fun _ _ _ => .pure) fun _ _ _ hend hloose => .pure hend hloose

/-- Behind what can be indexed, an index or a call goes on with it. -/
theorem prospect_postfixed {levels : Nat} {loose : Prop}
    (hinner : ∀ c : Cursor, Ready excuse c →
      Prospect excuse loose (expressionWithin levels) (expressionWithin levels) c more)
    {c : Cursor} (hready : Ready excuse c) :
    Prospect excuse (¬ Stops 0 (more.map (·.token))) (postfixed (expressionWithin levels))
      (postfixed (expressionWithin levels)) c more := by
  have horderly := Orderly.expressionWithin levels
  have hwants := wantsMore_expressionWithin levels
  refine .seq (prospect_primary horderly hinner hwants (.entry levels)
    (fun d hd => prospect_entry horderly hinner hd) (wantsMore_entry hwants) hready)
    fun e c' hread => ?_
  exact prospect_linksFrom horderly hinner hwants 0 e maxRounds
    (hready.step (.primary levels) hread).1 (Nat.zero_le _)

theorem prospect_unary {levels : Nat} {loose : Prop}
    (hinner : ∀ c : Cursor, Ready excuse c →
      Prospect excuse loose (expressionWithin levels) (expressionWithin levels) c more)
    {c : Cursor} (hready : Ready excuse c) :
    Prospect excuse (¬ Stops 0 (more.map (·.token))) (unary (postfixed (expressionWithin levels)))
      (unary (postfixed (expressionWithin levels))) c more :=
  prospect_unaryFrom (fun _ h => postfixed_of_nil h) (fun _ hd => prospect_postfixed hinner hd)
    maxRounds hready

theorem prospect_expressionWithin (levels : Nat) {c : Cursor} (hready : Ready excuse c) :
    Prospect excuse (¬ Stops topLevel (more.map (·.token))) (expressionWithin levels)
      (expressionWithin levels) c more := by
  induction levels generalizing c with
  | zero => exact .tooDeep
  | succ levels ih =>
      refine .nested fun d hrest _ hdeep => ?_
      exact prospect_chain (fun e he => prospect_unary (fun d hd => ih hd) he) BinaryOp.loosest
        ⟨hdeep, fun hends => hready.excuse_of (hrest ▸ hends)⟩

end Expressions

end Parser

end ReplDaemon.Script
