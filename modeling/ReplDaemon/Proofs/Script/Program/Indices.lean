import ReplDaemon.Proofs.Script.Program.Indexed
import ReplDaemon.Proofs.Script.Program.Progress

/-!
# Indices that are within bounds

Reading by index reads the same. Every reader leaves the index among the tokens or right behind them,
and comes back up to the depth that it began at; so there is a token wherever one is taken unseen, there
are as many levels as are given back, and neither reading comes to what cannot happen. One rule for each
way in which readers are put together, from an index that is some number of tokens before the end at
least.
-/

namespace ReplDaemon.Script

/-- The cursor in front of the tokens left. -/
def Spot.cursor (s : Spot) (tokens : List PlacedToken) : Cursor where
  rest := tokens.drop s.next
  last := (tokens.take s.next).getLast?.elim .start (·.position)
  depth := s.depth

theorem Spot.rest_of_lt {s : Spot} {tokens : List PlacedToken} (h : s.next < tokens.length) :
    (s.cursor tokens).rest = tokens[s.next] :: tokens.drop (s.next + 1) :=
  List.drop_eq_getElem_cons h

theorem Spot.rest_of_le {s : Spot} {tokens : List PlacedToken} (h : tokens.length ≤ s.next) :
    (s.cursor tokens).rest = [] :=
  List.drop_eq_nil_of_le h

theorem Spot.head?_rest (s : Spot) (tokens : List PlacedToken) :
    (s.cursor tokens).rest.head? = tokens[s.next]? :=
  List.head?_drop

/-- The cursor behind the next token. -/
theorem Spot.cursor_of_lt {s : Spot} {tokens : List PlacedToken} (h : s.next < tokens.length) :
    ({ s with next := s.next + 1 } : Spot).cursor tokens =
      { s.cursor tokens with
        rest := tokens.drop (s.next + 1), last := tokens[s.next].position } := by
  simp only [cursor, List.take_add_one, List.getElem?_eq_getElem h, Option.toList_some,
    List.getLast?_append, List.getLast?_singleton, Option.some_or, Option.elim_some]

/-- The place of the next token or of the last one. -/
theorem Spot.position_cursor (s : Spot) (tokens : List PlacedToken) :
    (s.cursor tokens).position =
      (tokens[s.next]?.or tokens.getLast?).elim .start (·.position) := by
  by_cases h : s.next < tokens.length
  · rw [Cursor.position, rest_of_lt h, List.getElem?_eq_getElem h]
    rfl
  · have hle : tokens.length ≤ s.next := Nat.le_of_not_lt h
    rw [Cursor.position, rest_of_le hle, List.getElem?_eq_none hle, Option.none_or]
    show (tokens.take s.next).getLast?.elim _ _ = _
    rw [List.take_of_length_le hle]

namespace IndexedParser

variable {α β : Type}

theorem bind_of_read {q : IndexedParser α} {g : α → IndexedParser β} {tokens : List PlacedToken}
    {s s' : Spot} {a : α} (h : q tokens s = Except.ok (.ok (a, s'))) :
    (q >>= g) tokens s = g a tokens s' := by
  change Except.bind (q tokens s) (ExceptT.bindCont fun x => g x.1 tokens x.2) = _
  rw [h]
  rfl

theorem bind_of_failed {q : IndexedParser α} {g : α → IndexedParser β} {tokens : List PlacedToken}
    {s : Spot} {e : ParseError} (h : q tokens s = Except.ok (.error e)) :
    (q >>= g) tokens s = Except.ok (.error e) := by
  change Except.bind (q tokens s) (ExceptT.bindCont fun x => g x.1 tokens x.2) = _
  rw [h]
  rfl

/-- What a reader by index comes to, compared with what a reader comes to: no fault, the same error, or
the same thing at the depth `d`. -/
inductive Agrees (tokens : List PlacedToken) (d : Nat) :
    Except Fault (Except ParseError (α × Spot)) → Except ParseError (α × Cursor) → Prop
  | read {a : α} {s : Spot} (hnext : s.next ≤ tokens.length) (hdepth : s.depth = d) :
      Agrees tokens d (.ok (.ok (a, s))) (.ok (a, s.cursor tokens))
  | failed {e : ParseError} (h : e ≠ .unbalanced) : Agrees tokens d (.ok (.error e)) (.error e)

theorem Agrees.bind {tokens : List PlacedToken} {d d' : Nat} {q : IndexedParser α} {p : Parser α}
    {g : α → IndexedParser β} {f : α → Parser β} {s : Spot} {c : Cursor}
    (h : Agrees tokens d (q tokens s) (p c))
    (hf : ∀ (a : α) (s' : Spot), p c = .ok (a, s'.cursor tokens) → s'.next ≤ tokens.length →
      s'.depth = d → Agrees tokens d' (g a tokens s') (f a (s'.cursor tokens))) :
    Agrees tokens d' ((q >>= g) tokens s) ((p >>= f) c) := by
  generalize hq : q tokens s = x at h
  generalize hp : p c = y at h
  cases h with
  | read hnext hdepth =>
      rw [bind_of_read hq, Parser.bind_of_ok hp]
      exact hf _ _ hp hnext hdepth
  | failed h =>
      rw [bind_of_failed hq, Parser.bind_of_error hp]
      exact .failed h

/-- From the depth `d` and with some number of tokens left at least, the reader by index `q` agrees with
the reader `p`, and the depth is `d'` behind it. -/
def Follows (tokens : List PlacedToken) (least d d' : Nat) (q : IndexedParser α) (p : Parser α) :
    Prop :=
  ∀ s : Spot, s.next + least ≤ tokens.length → s.depth = d →
    Agrees tokens d' (q tokens s) (p (s.cursor tokens))

namespace Follows

variable {tokens : List PlacedToken} {least d d' d'' levels looseness : Nat} {q : IndexedParser α}
  {p : Parser α} {close : Delimiter}

theorem mono (h : Follows tokens 0 d d' q p) : Follows tokens least d d' q p :=
  fun s hs hd => h s (by omega) hd

theorem pure {a : α} : Follows tokens least d d (Pure.pure a) (Pure.pure a) :=
  fun _ hs hd => .read (by omega) hd

theorem fail {e : ParseError} (h : e ≠ .unbalanced) :
    Follows tokens least d d' (IndexedParser.fail e : IndexedParser α) (throw e) :=
  fun _ _ _ => .failed h

theorem reject {expected : Expected} {t : PlacedToken} :
    Follows tokens least d d' (IndexedParser.reject expected t : IndexedParser α)
      (Parser.reject expected t) :=
  fail nofun

theorem tooDeep :
    Follows tokens least d d' (IndexedParser.tooDeep : IndexedParser α) Parser.tooDeep := by
  intro s _ _
  rw [Parser.tooDeep, Spot.position_cursor]
  exact .failed nofun

theorem bind {g : α → IndexedParser β} {f : α → Parser β} (h : Follows tokens least d d' q p)
    (hf : ∀ a : α, Follows tokens 0 d' d'' (g a) (f a)) :
    Follows tokens least d d'' (q >>= g) (p >>= f) :=
  fun s hs hd => (h s hs hd).bind fun a s' _ hs' hd' => hf a s' hs' hd'

/-- Once a token has been seen, there is one. -/
theorem peek {g : Option Token → IndexedParser β} {f : Option Token → Parser β}
    (hnone : Follows tokens 0 d d' (g none) (f none))
    (hsome : ∀ t : Token, Follows tokens 1 d d' (g (some t)) (f (some t))) :
    Follows tokens 0 d d' (IndexedParser.peek >>= g) (Parser.peek >>= f) := by
  intro s hs hd
  have hpeek : Parser.peek (s.cursor tokens) =
      .ok (tokens[s.next]?.map (·.token), s.cursor tokens) := by
    rw [Parser.peek, Spot.head?_rest]
  rw [Parser.bind_of_ok hpeek, bind_of_read (q := IndexedParser.peek) rfl]
  by_cases hlt : s.next < tokens.length
  · rw [List.getElem?_eq_getElem hlt]
    exact hsome _ s hlt hd
  · rw [List.getElem?_eq_none (Nat.le_of_not_lt hlt)]
    exact hnone s hs hd

theorem next_of_lt {s : Spot} (h : s.next < tokens.length) :
    Parser.next (s.cursor tokens) =
      .ok (tokens[s.next], ({ s with next := s.next + 1 } : Spot).cursor tokens) := by
  rw [Parser.next, Spot.rest_of_lt h, Spot.cursor_of_lt h]

theorem next : Follows tokens 0 d d IndexedParser.next Parser.next := by
  intro s hs hd
  by_cases hlt : s.next < tokens.length
  · rw [IndexedParser.next, List.getElem?_eq_getElem hlt, next_of_lt hlt]
    exact .read hlt hd
  · have hle : tokens.length ≤ s.next := Nat.le_of_not_lt hlt
    rw [IndexedParser.next, List.getElem?_eq_none hle, Parser.next, Spot.rest_of_le hle]
    exact .failed nofun

/-- Going past a token is taking it. -/
theorem advance : Follows tokens 1 d d IndexedParser.advance (Functor.discard Parser.next) := by
  intro s hs hd
  have hdiscard : (Functor.discard Parser.next : Parser Unit) (s.cursor tokens) =
      .ok ((), ({ s with next := s.next + 1 } : Spot).cursor tokens) :=
    Parser.bind_of_ok (f := fun _ => Pure.pure ()) (next_of_lt hs)
  rw [hdiscard]
  exact .read hs hd

theorem current_of_lt {s : Spot} (h : s.next < tokens.length) :
    IndexedParser.current tokens s = Except.ok (.ok (tokens[s.next], s)) := by
  show (Fault.item tokens s.next).map _ = _
  rw [Fault.item_of_lt h]
  rfl

/-- A token that has been seen can be looked up, and gone past later. -/
theorem current {g : PlacedToken → IndexedParser β} {f : PlacedToken → Parser β}
    (h : ∀ (t : PlacedToken) (s : Spot), s.next < tokens.length → s.depth = d →
      Agrees tokens d' (g t tokens s) (f t (({ s with next := s.next + 1 } : Spot).cursor tokens))) :
    Follows tokens 1 d d' (IndexedParser.current >>= g) (Parser.next >>= f) := by
  intro s hs hd
  rw [bind_of_read (current_of_lt hs), Parser.bind_of_ok (next_of_lt hs)]
  exact h _ s hs hd

theorem discard (h : Follows tokens least d d' q p) :
    Follows tokens least d d' (Functor.discard q : IndexedParser PUnit) (Functor.discard p) :=
  h.bind fun _ => pure

theorem descend : Follows tokens 0 d (d + 1) IndexedParser.descend Parser.descend := by
  intro s hs hd
  let deeper : Spot := { s with depth := s.depth + 1 }
  have hdescend : IndexedParser.descend tokens s =
      (if s.depth + 1 ≤ maxDepth then Pure.pure () else IndexedParser.tooDeep : IndexedParser Unit)
        tokens deeper := rfl
  rw [hdescend, Parser.descend]
  by_cases hle : s.depth + 1 ≤ maxDepth
  · have hlt : (s.cursor tokens).depth < maxDepth := hle
    rw [if_pos hle, if_pos hlt]
    exact .read (s := deeper) hs (congrArg (· + 1) hd)
  · have hlt : ¬ (s.cursor tokens).depth < maxDepth := hle
    rw [if_neg hle, if_neg hlt]
    exact tooDeep deeper hs rfl

/-- There are as many levels to come back up as have been gone down. -/
theorem ascend :
    Follows tokens 0 (d + levels) d (IndexedParser.ascend levels) (Parser.ascend levels) := by
  intro s hs hd
  have hle : levels ≤ s.depth := by omega
  have hascend : IndexedParser.ascend levels tokens s =
      Except.ok (.ok ((), { s with depth := s.depth - levels })) := by
    rw [IndexedParser.ascend, Fault.minus_of_le hle]
    rfl
  have hascend' : Parser.ascend levels (s.cursor tokens) =
      .ok ((), ({ s with depth := s.depth - levels } : Spot).cursor tokens) := if_pos hle
  rw [hascend, hascend']
  exact .read hs (by dsimp only; omega)

theorem nested (h : ∀ d, Follows tokens 0 d d q p) :
    Follows tokens 0 d d (IndexedParser.nested q) (Parser.nested p) :=
  descend.bind fun _ => (h (d + 1)).bind fun _ => ascend.bind fun _ => pure

theorem atDelimiter {g : Bool → IndexedParser β} {f : Bool → Parser β}
    (hfalse : Follows tokens 0 d d' (g false) (f false))
    (htrue : Follows tokens 1 d d' (g true) (f true)) :
    Follows tokens 0 d d' (IndexedParser.atDelimiter close >>= g) (Parser.atDelimiter close >>= f) := by
  rw [IndexedParser.atDelimiter, Parser.atDelimiter, bind_assoc, bind_assoc]
  refine .peek hfalse fun t => ?_
  cases t with
  | delimiter e =>
      show Follows tokens 1 d d' (g (e == close)) (f (e == close))
      cases e == close with
      | false => exact hfalse.mono
      | true => exact htrue
  | int | float | text | char | keyword | identifier | operator => exact hfalse.mono

theorem eat : Follows tokens 0 d d (IndexedParser.eat close) (Parser.eat close) :=
  atDelimiter pure (advance.bind fun _ => pure)

theorem expect : Follows tokens 0 d d (IndexedParser.expect close) (Parser.expect close) := by
  refine next.bind fun t => ?_
  cases t.token with
  | delimiter e =>
      show Follows tokens 0 d d (if e == close then _ else _) (if e == close then _ else _)
      split
      · exact pure
      · exact reject
  | int | float | text | char | keyword | identifier | operator => exact reject

theorem name : Follows tokens 0 d d IndexedParser.name Parser.name := by
  refine next.bind fun t => ?_
  cases t.token with
  | identifier n => exact pure
  | int | float | text | char | keyword | delimiter | operator => exact reject

theorem remaining : Follows tokens 0 d d IndexedParser.remaining Parser.remaining :=
  fun _ hs hd => .read hs hd

theorem itemsFrom (h : ∀ d, Follows tokens 0 d d q p) (found : List α) (rounds : List PlacedToken) :
    Follows tokens 0 d d (IndexedParser.itemsFrom q close found rounds)
      (Parser.itemsFrom p close found rounds) := by
  induction rounds generalizing found with
  | nil => exact fail nofun
  | cons _ rounds ih =>
      refine eat.bind fun closed => ?_
      cases closed with
      | true => exact pure
      | false =>
          refine expect.bind fun _ => eat.bind fun closed' => ?_
          cases closed' with
          | true => exact pure
          | false => exact (h d).bind fun a => ih (a :: found)

theorem items (h : ∀ d, Follows tokens 0 d d q p) :
    Follows tokens 0 d d (IndexedParser.items q close) (Parser.items p close) := by
  refine eat.bind fun closed => ?_
  cases closed with
  | true => exact pure
  | false => exact (h d).bind fun a => remaining.bind fun rounds => itemsFrom h [a] rounds

theorem binaryOp? {g : Option BinaryOp → IndexedParser β} {f : Option BinaryOp → Parser β}
    (hnone : Follows tokens 0 d d' (g none) (f none))
    (hsome : ∀ op : BinaryOp, Follows tokens 1 d d' (g (some op)) (f (some op))) :
    Follows tokens 0 d d' (IndexedParser.binaryOp? looseness >>= g)
      (Parser.binaryOp? looseness >>= f) := by
  rw [IndexedParser.binaryOp?, Parser.binaryOp?, bind_assoc, bind_assoc]
  refine .peek hnone fun t => ?_
  cases t with
  | operator o =>
      let op := (BinaryOp.ofOperator? o).filter fun op => op.looseness == looseness
      show Follows tokens 1 d d' (g op) (f op)
      cases op with
      | none => exact hnone.mono
      | some op => exact hsome op
  | int | float | text | char | keyword | identifier | delimiter => exact hnone.mono

theorem unaryOp? {g : Option UnaryOp → IndexedParser β} {f : Option UnaryOp → Parser β}
    (hnone : Follows tokens 0 d d' (g none) (f none))
    (hsome : ∀ op : UnaryOp, Follows tokens 1 d d' (g (some op)) (f (some op))) :
    Follows tokens 0 d d' (IndexedParser.unaryOp? >>= g) (Parser.unaryOp? >>= f) := by
  rw [IndexedParser.unaryOp?, Parser.unaryOp?, bind_assoc, bind_assoc]
  refine .peek hnone fun t => ?_
  cases t with
  | operator o =>
      show Follows tokens 1 d d' (g (UnaryOp.ofOperator? o)) (f (UnaryOp.ofOperator? o))
      cases UnaryOp.ofOperator? o with
      | none => exact hnone.mono
      | some op => exact hsome op
  | int | float | text | char | keyword | identifier | delimiter => exact hnone.mono

end Follows

section Expressions

variable {tokens : List PlacedToken} {d : Nat} {operand' expression' : IndexedParser Expr}
  {operand expression : Parser Expr}

theorem follows_chainFrom (h : ∀ d, Follows tokens 0 d d operand' operand) (looseness links : Nat)
    (lhs : Expr) (rounds : Nat) :
    Follows tokens 0 (d + links) d (chainFrom operand' looseness links lhs rounds)
      (Parser.chainFrom operand looseness links lhs rounds) := by
  induction rounds generalizing links lhs with
  | zero => exact .tooDeep
  | succ rounds ih =>
      refine .binaryOp? (Follows.ascend.bind fun _ => .pure) fun op => ?_
      exact Follows.advance.bind fun _ => Follows.descend.bind fun _ => (h _).bind fun rhs =>
        ih (links + 1) (.binary op lhs rhs)

theorem follows_chain (h : ∀ d, Follows tokens 0 d d operand' operand) (looseness : Nat) :
    ∀ d, Follows tokens 0 d d (chain operand' looseness) (Parser.chain operand looseness) := by
  induction looseness with
  | zero => exact h
  | succ looseness ih =>
      exact fun d => (ih d).bind fun lhs => follows_chainFrom ih (looseness + 1) 0 lhs Parser.maxRounds

theorem follows_unary (h : ∀ d, Follows tokens 0 d d operand' operand) :
    ∀ d, Follows tokens 0 d d (unary operand') (Parser.unary operand) := by
  have hfrom (rounds : Nat) : ∀ d, Follows tokens 0 d d (unaryFrom operand' rounds)
      (Parser.unaryFrom operand rounds) := by
    induction rounds with
    | zero => exact fun d => .tooDeep
    | succ rounds ih =>
        exact fun d => .unaryOp? (h d) fun op => Follows.advance.bind fun _ =>
          (Follows.nested ih).bind fun _ => .pure
  exact hfrom Parser.maxRounds

/-- Behind a name, a call's parenthesis is taken; behind anything else, it is looked up only. -/
theorem follows_linksFrom (h : ∀ d, Follows tokens 0 d d expression' expression) (links : Nat)
    (e : Expr) (rounds : Nat) :
    Follows tokens 0 (d + links) d (linksFrom expression' links e rounds)
      (Parser.linksFrom expression links e rounds) := by
  induction rounds generalizing links e with
  | zero => exact .tooDeep
  | succ rounds ih =>
      refine Follows.eat.bind fun isIndex => ?_
      cases isIndex with
      | true =>
          exact Follows.descend.bind fun _ => (h _).bind fun position =>
            Follows.expect.bind fun _ => ih (links + 1) (.index e position)
      | false =>
          refine .atDelimiter (Follows.ascend.bind fun _ => .pure) ?_
          refine .current fun t s hlt hd => ?_
          cases e with
          | var name =>
              have hcall : Follows tokens 0 (d + links) d
                  (items expression' .closeParen >>= fun arguments =>
                    linksFrom expression' links (.call name arguments) rounds)
                  (Parser.items expression .closeParen >>= fun arguments =>
                    Parser.linksFrom expression links (.call name arguments) rounds) :=
                (Follows.items h).bind fun arguments => ih links (.call name arguments)
              show Agrees tokens d ((advance >>= fun _ => _) tokens s) _
              rw [bind_of_read (q := advance) rfl]
              exact hcall { s with next := s.next + 1 } hlt hd
          | literal | list | map | unary | binary | call | index => exact .failed nofun

theorem follows_entry (h : ∀ d, Follows tokens 0 d d expression' expression) :
    ∀ d, Follows tokens 0 d d (entry expression') (Parser.entry expression) :=
  fun d => (h d).bind fun _ => Follows.expect.bind fun _ => (h d).bind fun _ => .pure

theorem follows_primary (h : ∀ d, Follows tokens 0 d d expression' expression) :
    Follows tokens 0 d d (primary expression') (Parser.primary expression) := by
  refine Follows.next.bind fun t => ?_
  cases t.token with
  | int | float | text | char | identifier => exact .pure
  | keyword k =>
      cases k with
      | trueWord | falseWord | nullWord => exact .pure
      | letWord | ifWord | elseWord | whileWord => exact .reject
  | delimiter close =>
      cases close with
      | openParen => exact (h d).bind fun e => Follows.expect.bind fun _ => .pure
      | openBracket => exact (Follows.items h).bind fun _ => .pure
      | openMap => exact (Follows.items (follows_entry h)).bind fun _ => .pure
      | _ => exact .reject
  | operator => exact .reject

theorem follows_postfixed (h : ∀ d, Follows tokens 0 d d expression' expression) :
    ∀ d, Follows tokens 0 d d (postfixed expression') (Parser.postfixed expression) :=
  fun _ => (follows_primary h).bind fun e => follows_linksFrom h 0 e Parser.maxRounds

theorem follows_expressionWithin (levels : Nat) :
    ∀ d, Follows tokens 0 d d (expressionWithin levels) (Parser.expressionWithin levels) := by
  induction levels with
  | zero => exact fun d => .tooDeep
  | succ levels ih =>
      exact fun d => .nested (follows_chain (follows_unary (follows_postfixed ih)) BinaryOp.loosest)

end Expressions

theorem follows_expression {tokens : List PlacedToken} {d : Nat} :
    Follows tokens 0 d d expression Parser.expression :=
  follows_expressionWithin (maxDepth + 1) d

section Statements

variable {tokens : List PlacedToken} {d : Nat} {block' : IndexedParser (List Stmt)}
  {block : Parser (List Stmt)}

/-- A token that may not stand in place of a semicolon is there. -/
theorem follows_terminator : Follows tokens 0 d d terminator Parser.terminator := by
  have hrejected : Follows tokens 1 d d
      (current >>= fun t => reject (α := Bool) (.delimiter .semicolon) t)
      (Parser.next >>= fun t => Parser.reject (.delimiter .semicolon) t) :=
    .current fun _ _ _ _ => .failed nofun
  rw [Parser.terminator_eq_bind]
  refine .peek .pure fun t => ?_
  cases t with
  | delimiter close =>
      cases close with
      | semicolon => exact Follows.advance.bind fun _ => .pure
      | closeBrace => exact .pure
      | _ => exact hrejected
  | int | float | text | char | keyword | identifier | operator => exact hrejected

theorem target_of_none {e : Expr} (h : Parser.Target.ofExpr? e = none) {start : Nat}
    (hstart : start < tokens.length) (s : Spot) :
    target e start tokens s = Except.ok (.error (.invalidTarget tokens[start].position)) := by
  have hstart' : tokenAt start tokens s = Except.ok (.ok (tokens[start], s)) := by
    rw [tokenAt, Fault.item_of_lt hstart]
    rfl
  rw [target, h]
  exact bind_of_read hstart'

theorem follows_ifFrom (h : ∀ d, Follows tokens 0 d d block' block) (rounds : Nat) :
    ∀ d, Follows tokens 0 d d (ifFrom block' rounds) (Parser.ifFrom block rounds) := by
  induction rounds with
  | zero => exact fun d => .tooDeep
  | succ rounds ih =>
      refine fun d => follows_expression.bind fun condition => (h d).bind fun body => ?_
      refine .peek .pure fun t => ?_
      by_cases helse : some t = some (.keyword .elseWord : Token)
      · cases helse
        refine Follows.advance.bind fun _ => .peek ((h d).bind fun _ => .pure) fun t' => ?_
        by_cases hif : some t' = some (.keyword .ifWord : Token)
        · cases hif
          exact Follows.advance.bind fun _ => (Follows.nested ih).bind fun _ => .pure
        · simp only
          exact ((h d).bind fun _ => .pure).mono
      · simp only
        exact .pure

/-- Where an assignment can change nothing, its start is the index of a token: of the one that the
expression on its left starts with. -/
theorem follows_unmarked :
    Follows tokens 0 d d unmarked (do
      let start := (← get).position
      let e ← Parser.expression
      match ← Parser.peek with
      | some (.operator .assign) =>
        discard Parser.next
        match Parser.Target.ofExpr? e with
        | some target =>
          let value ← Parser.expression
          discard Parser.terminator
          return (.assign target value, false)
        | none => throw (.invalidTarget start)
      | _ => return (.evaluate e, ← Parser.terminator)) := by
  intro s hs hd
  have hget : (get : IndexedParser Spot) tokens s = Except.ok (.ok (s, s)) := rfl
  have hget' : (get : Parser Cursor) (s.cursor tokens) = .ok (s.cursor tokens, s.cursor tokens) := rfl
  rw [unmarked, bind_of_read hget, Parser.bind_of_ok hget']
  refine (follows_expression s hs hd).bind fun e s' hread hs' hd' => ?_
  have hstart : s.next < tokens.length := by
    by_contra hend
    exact Parser.takes_expression.ne_nil hread (Spot.rest_of_le (Nat.le_of_not_lt hend))
  have hposition : (s.cursor tokens).position = tokens[s.next].position := by
    rw [Cursor.position, Spot.rest_of_lt hstart]
  have hevaluated : Follows tokens 0 d d (do return (Stmt.evaluate e, ← terminator))
      (do return (Stmt.evaluate e, ← Parser.terminator)) :=
    follows_terminator.bind fun _ => .pure
  refine Follows.peek hevaluated (fun t => ?_) s' hs' hd'
  by_cases hassign : some t = some (.operator .assign : Token)
  · cases hassign
    refine Follows.advance.bind fun _ => ?_
    cases htarget : Parser.Target.ofExpr? e with
    | some changed =>
        have htarget' : target e s.next = pure changed := by rw [target, htarget]
        rw [htarget', pure_bind]
        exact follows_expression.bind fun value => follows_terminator.discard.bind fun _ => .pure
    | none =>
        intro s'' _ _
        rw [bind_of_failed (target_of_none htarget hstart s''), ← hposition]
        exact .failed nofun
  · simp only
    exact hevaluated.mono

theorem follows_statement (h : ∀ d, Follows tokens 0 d d block' block) :
    ∀ d, Follows tokens 0 d d (statement block') (Parser.statement block) := by
  intro d
  refine .peek follows_unmarked fun t => ?_
  by_cases hlet : some t = some (.keyword .letWord : Token)
  · cases hlet
    refine Follows.advance.bind fun _ => Follows.name.bind fun name => Follows.next.bind fun t' => ?_
    by_cases hassign : t'.token = .operator .assign
    · rw [hassign]
      exact follows_expression.bind fun value => follows_terminator.discard.bind fun _ => .pure
    · simp only
      exact .reject
  by_cases hif : some t = some (.keyword .ifWord : Token)
  · cases hif
    exact Follows.advance.bind fun _ => (follows_ifFrom h Parser.maxRounds d).bind fun _ => .pure
  by_cases hwhile : some t = some (.keyword .whileWord : Token)
  · cases hwhile
    exact Follows.advance.bind fun _ => follows_expression.bind fun condition =>
      (h d).bind fun _ => .pure
  by_cases hsemicolon : some t = some (.delimiter .semicolon : Token)
  · cases hsemicolon
    exact Follows.advance.bind fun _ => .pure
  simp only
  exact follows_unmarked.mono

theorem follows_blockFrom (h : ∀ d, Follows tokens 0 d d block' block) (found : List Stmt)
    (rounds : List PlacedToken) :
    ∀ d, Follows tokens 0 d d (blockFrom block' found rounds)
      (Parser.blockFrom block found rounds) := by
  induction rounds generalizing found with
  | nil => exact fun d => .fail nofun
  | cons _ rounds ih =>
      refine fun d => Follows.eat.bind fun closed => ?_
      cases closed with
      | true => exact .pure
      | false =>
          exact .peek (.fail nofun) fun _ =>
            ((follows_statement h d).bind fun ⟨s, _⟩ => ih (s :: found) d).mono

theorem follows_blockWithin (levels : Nat) :
    ∀ d, Follows tokens 0 d d (blockWithin levels) (Parser.blockWithin levels) := by
  induction levels with
  | zero => exact fun d => Follows.expect.bind fun _ => .tooDeep
  | succ levels ih =>
      exact fun d => Follows.expect.bind fun _ => .nested fun d =>
        Follows.remaining.bind fun rounds => follows_blockFrom ih [] rounds d

theorem follows_programFrom (found : List Stmt) (rounds : List PlacedToken) :
    Follows tokens 0 0 0 (programFrom found rounds) (Parser.programFrom found rounds) := by
  induction rounds generalizing found with
  | nil => exact .pure
  | cons _ rounds ih =>
      refine .peek .pure fun _ => ?_
      refine ((follows_statement (follows_blockWithin (maxDepth + 1)) 0).bind fun ⟨s, ended⟩ => ?_).mono
      cases s with
      | evaluate e =>
          cases ended with
          | true => exact .pure
          | false => exact ih (.evaluate e :: found)
      | declare | assign | ifThen | ifElse | whileLoop => exact ih (_ :: found)

end Statements

end IndexedParser

theorem IndexedParser.agrees_program (tokens : List PlacedToken) :
    Agrees tokens 0 (programFrom [] tokens tokens .start)
      (Parser.programFrom [] tokens (.start tokens)) :=
  follows_programFrom [] tokens .start (Nat.zero_le _) rfl

/-- Reading by index comes to no fault, and to the same programs and errors. -/
theorem Program.ofIndexedTokens_eq (tokens : List PlacedToken) :
    ofIndexedTokens tokens = .ok (ofTokens tokens) := by
  have hread : ofTokens tokens = (Parser.programFrom [] tokens (.start tokens)).map (·.1) := rfl
  have hindexed : ofIndexedTokens tokens =
      ((·.1) <$> (show ExceptT ParseError (Except Fault) (Program × Spot) from
        IndexedParser.programFrom [] tokens tokens .start)) := rfl
  have hagrees := IndexedParser.agrees_program tokens
  rw [hindexed, hread]
  generalize IndexedParser.programFrom [] tokens tokens .start = q at *
  generalize Parser.programFrom [] tokens (.start tokens) = p at *
  cases hagrees <;> rfl

/-- The nesting of what is read is always balanced. -/
theorem Program.ofTokens_ne_unbalanced (tokens : List PlacedToken) :
    ofTokens tokens ≠ .error .unbalanced := by
  have hread : ofTokens tokens = (Parser.programFrom [] tokens (.start tokens)).map (·.1) := rfl
  have hagrees := IndexedParser.agrees_program tokens
  rw [hread]
  generalize IndexedParser.programFrom [] tokens tokens .start = q at *
  generalize Parser.programFrom [] tokens (.start tokens) = p at *
  cases hagrees with
  | read => exact nofun
  | failed h => exact fun heq => h (Except.error.inj heq)

end ReplDaemon.Script
