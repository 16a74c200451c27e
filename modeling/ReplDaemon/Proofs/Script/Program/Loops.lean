import ReplDaemon.Proofs.Script.Program.CompletedPrograms
import ReplDaemon.Proofs.Script.Program.Steady

/-!
# Loops that come to an end

Five readers go round in a loop: over the links of a chain, over the indices and calls behind an operand,
over items, over the statements of a block and over those of a program. Here each is told apart into its
rounds, of which any number may follow each other. Every round behind which there is another one takes a
token, so there are no more rounds than tokens are left; and it is known how deep the reading is in front
of each: as deep as at the first one, and one level deeper for each link that is open.
-/

namespace ReplDaemon.Script

namespace Parser

variable {α β σ : Type}

section Rounds

variable {round : σ → Parser (σ ⊕ α)} {links : σ → Nat}

/-- From a state of a loop and a cursor, some number of rounds lead to others. A round leads to the next
one unless it fails or leaves the loop with what is read. -/
inductive Rounds (round : σ → Parser (σ ⊕ α)) : Nat → σ → Cursor → σ → Cursor → Prop
  | start {l : σ} {c : Cursor} : Rounds round 0 l c l c
  | again {n : Nat} {l l₁ l' : σ} {c c₁ c' : Cursor} (hround : round l c = .ok (.inl l₁, c₁))
      (hrest : Rounds round n l₁ c₁ l' c') : Rounds round (n + 1) l c l' c'

/-- The reader `p` is a loop of rounds from the state `first` on. From every cursor at a depth that is
allowed it goes round some number of times, and what the last round comes to is what the reader comes to.
In front of each round, no more rounds have been gone than tokens taken, and the reading is deeper than at
the beginning by the links that are open. -/
def Loops (round : σ → Parser (σ ⊕ α)) (links : σ → Nat) (first : σ) (p : Parser α) : Prop :=
  ∀ c : Cursor, c.depth ≤ maxDepth →
    (∃ (n : Nat) (l : σ) (c' : Cursor), Rounds round n first c l c' ∧
      round l c' = (Sum.inr <$> p) c) ∧
    ∀ (n : Nat) (l : σ) (c' : Cursor), Rounds round n first c l c' →
      (∃ taken : List PlacedToken, c.rest = taken ++ c'.rest ∧ n ≤ taken.length) ∧
        c'.depth = c.depth + links l

/-- If the round `p` is not the last one, it has taken some number of tokens at least, and the state and
the depth behind it have a property. -/
def Again (d least : Nat) (post : σ → Nat → Prop) (p : Parser (σ ⊕ α)) : Prop :=
  ∀ (c c' : Cursor) (l : σ), c.depth = d → p c = .ok (.inl l, c') →
    (∃ taken : List PlacedToken, c.rest = taken ++ c'.rest ∧ least ≤ taken.length) ∧ post l c'.depth

namespace Again

variable {d d' least least' : Nat} {post post' : σ → Nat → Prop} {p : Parser (σ ⊕ α)} {q : Parser β}

theorem again {l : σ} (h : post l d) : Again d 0 post (Pure.pure (.inl l) : Parser (σ ⊕ α)) := by
  intro c c' l' hd hread
  cases hread
  exact ⟨⟨[], rfl, Nat.le_refl 0⟩, hd ▸ h⟩

theorem leave {a : α} : Again d least post (Pure.pure (.inr a) : Parser (σ ⊕ α)) := by
  intro c c' l hd hread
  cases hread

/-- What leaves the loop may do anything before. -/
theorem leave_behind {f : β → α} :
    Again d least post (q >>= fun b => Pure.pure (.inr (f b)) : Parser (σ ⊕ α)) := by
  intro c c' l hd hread
  obtain ⟨b, c₁, -, hleave⟩ := exists_of_bind_ok hread
  cases hleave

theorem error {e : Cursor → ParseError} :
    Again d least post (fun c => .error (e c) : Parser (σ ⊕ α)) := by
  intro c c' l hd hread
  cases hread

theorem bind {goal : β → Prop} {f : β → Parser (σ ⊕ α)} (hq : Ensures d d' q goal)
    (htakes : Takes least q) (hf : ∀ b : β, goal b → Again d' least' post (f b)) :
    Again d (least + least') post (q >>= f) := by
  intro c c' l hd hread
  obtain ⟨b, c₁, hfirst, hsecond⟩ := exists_of_bind_ok hread
  obtain ⟨hd', hb⟩ := hq c c₁ b hd hfirst
  obtain ⟨taken, hrest, hleast⟩ := htakes c c₁ b hfirst
  obtain ⟨⟨taken', hrest', hleast'⟩, hpost⟩ := hf b hb c₁ c' l hd' hsecond
  refine ⟨⟨taken ++ taken', ?_, ?_⟩, hpost⟩
  · rw [hrest, hrest', List.append_assoc]
  · rw [List.length_append]
    exact Nat.add_le_add hleast hleast'

/-- A round behind a reader that may take nothing. -/
theorem after {goal : β → Prop} {f : β → Parser (σ ⊕ α)} (hq : Ensures d d' q goal)
    (htakes : Takes 0 q) (hf : ∀ b : β, goal b → Again d' least post (f b)) :
    Again d least post (q >>= f) := by
  have h := bind hq htakes hf
  rwa [Nat.zero_add] at h

/-- What takes enough for the round, with the rest of the round behind it. -/
theorem before {goal : β → Prop} {f : β → Parser (σ ⊕ α)} (hq : Ensures d d' q goal)
    (htakes : Takes least q) (hf : ∀ b : β, goal b → Again d' 0 post (f b)) :
    Again d least post (q >>= f) :=
  bind hq htakes hf

theorem mono (h : Again d least post p) (hle : least' ≤ least)
    (himp : ∀ (l : σ) (n : Nat), post l n → post' l n) : Again d least' post' p := by
  intro c c' l hd hread
  obtain ⟨⟨taken, hrest, hleast⟩, hpost⟩ := h c c' l hd hread
  exact ⟨⟨taken, hrest, Nat.le_trans hle hleast⟩, himp l c'.depth hpost⟩

end Again

/-- What a round takes and how deep it leaves the reading, if it is not the last one. -/
def Winds (links : σ → Nat) (round : σ → Parser (σ ⊕ α)) : Prop :=
  ∀ (l : σ) (d : Nat), d ≤ maxDepth →
    Again d 1 (fun l' d' => d' + links l = d + links l' ∧ d' ≤ maxDepth) (round l)

/-- A loop that opens no links stays at its depth. -/
theorem Winds.of_level
    (h : ∀ (l : σ) (d : Nat), d ≤ maxDepth → Again d 1 (fun _ d' => d' = d) (round l)) :
    Winds (fun _ => 0) round := by
  intro l d hd
  refine (h l d hd).mono (Nat.le_refl 1) fun l' d' hd' => ?_
  rw [hd']
  exact ⟨rfl, hd⟩

/-- What one round keeps, any number of rounds keep. -/
theorem Rounds.kept (hround : Winds links round) {n : Nat} {l l' : σ} {c c' : Cursor}
    (h : Rounds round n l c l' c') (hdepth : c.depth ≤ maxDepth) :
    (∃ taken : List PlacedToken, c.rest = taken ++ c'.rest ∧ n ≤ taken.length) ∧
      c'.depth + links l = c.depth + links l' ∧ c'.depth ≤ maxDepth := by
  induction h with
  | start => exact ⟨⟨[], rfl, Nat.le_refl 0⟩, rfl, hdepth⟩
  | again hfirst hrest ih =>
      obtain ⟨⟨taken, htaken, hone⟩, hlinks, hdepth₁⟩ := hround _ _ hdepth _ _ _ rfl hfirst
      obtain ⟨⟨taken', htaken', hmany⟩, hlinks', hdepth'⟩ := ih hdepth₁
      refine ⟨⟨taken ++ taken', ?_, ?_⟩, by omega, hdepth'⟩
      · rw [htaken, htaken', List.append_assoc]
      · rw [List.length_append]
        omega

theorem map_apply (f : α → β) (p : Parser α) (c : Cursor) :
    (f <$> p) c = (p c).map fun x => (f x.1, x.2) := by
  show (p c >>= _) = _
  cases p c <;> rfl

/-- A reader that does a round and goes on as itself comes to what the last round comes to. Every round
takes a token, so there is a last one. -/
theorem exists_rounds {p : σ → Parser α} (hround : Winds links round)
    (hturn : ∀ (l : σ) (c : Cursor), c.depth ≤ maxDepth →
      p l c = (round l >>= Sum.elim p pure) c)
    (l : σ) {c : Cursor} (hdepth : c.depth ≤ maxDepth) :
    ∃ (n : Nat) (l' : σ) (c' : Cursor), Rounds round n l c l' c' ∧
      round l' c' = (Sum.inr <$> p l) c := by
  induction hlength : c.rest.length using Nat.strong_induction_on generalizing l c with
  | h length ih =>
      cases hfirst : round l c with
      | error e =>
          refine ⟨0, l, c, .start, ?_⟩
          rw [map_apply, hturn l c hdepth, bind_of_error hfirst, hfirst]
          rfl
      | ok x =>
          obtain ⟨l₁ | a, c₁⟩ := x
          · obtain ⟨⟨taken, htaken, hone⟩, -, hdepth₁⟩ := hround l _ hdepth c c₁ l₁ rfl hfirst
            have hless : c₁.rest.length < length := by
              rw [← hlength, htaken, List.length_append]
              omega
            obtain ⟨n, l', c', hrounds, hlast⟩ := ih _ hless l₁ hdepth₁ rfl
            refine ⟨n + 1, l', c', .again hfirst hrounds, ?_⟩
            rw [hlast, map_apply, map_apply, hturn l c hdepth, bind_of_ok hfirst]
            rfl
          · refine ⟨0, l, c, .start, ?_⟩
            rw [map_apply, hturn l c hdepth, bind_of_ok hfirst, hfirst]
            rfl

theorem Loops.of_turns (hround : Winds links round) (p : σ → Parser α) (first : σ)
    (hfirst : links first = 0)
    (hturn : ∀ (l : σ) (c : Cursor), c.depth ≤ maxDepth →
      p l c = (round l >>= Sum.elim p pure) c) : Loops round links first (p first) := by
  intro c hdepth
  refine ⟨exists_rounds hround hturn first hdepth, fun n l c' hrounds => ?_⟩
  obtain ⟨htaken, hlinks, -⟩ := hrounds.kept hround hdepth
  exact ⟨htaken, by omega⟩

end Rounds

section Allowance

variable {round : σ → Parser (σ ⊕ α)} {p : Nat → σ → Parser α} {spent : σ → Nat → Nat} {rounds : Nat}

/-- What the rounds of a loop spend grows in every round, and stays below the number of rounds that the
loop is given. -/
structure Affords (round : σ → Parser (σ ⊕ α)) (spent : σ → Nat → Nat) (rounds : Nat) : Prop where
  lt : ∀ (l : σ) (d : Nat), d ≤ maxDepth → spent l d < rounds
  again : ∀ (l : σ) (d : Nat), d ≤ maxDepth →
    Again d 0 (fun l' d' => spent l d < spent l' d' ∧ d' ≤ maxDepth) (round l)

/-- Rounds beyond those that can be spent make no difference. -/
theorem Affords.congr_rounds (h : Affords round spent rounds)
    (hsucc : ∀ (n : Nat) (l : σ), p (n + 1) l = round l >>= Sum.elim (p n) pure) {n m : Nat} {l : σ}
    {c : Cursor} (hdepth : c.depth ≤ maxDepth) (hn : rounds ≤ spent l c.depth + n)
    (hm : rounds ≤ spent l c.depth + m) : p n l c = p m l c := by
  have hlt := h.lt l c.depth hdepth
  induction n generalizing m l c with
  | zero => omega
  | succ n ih =>
      obtain ⟨m, rfl⟩ := Nat.exists_eq_add_one_of_ne_zero (show m ≠ 0 by omega)
      rw [hsucc, hsucc]
      refine bind_congr fun x c' hread => ?_
      cases x with
      | inr a => rfl
      | inl l' =>
          obtain ⟨-, hmore, hdepth'⟩ := h.again l _ hdepth c c' l' rfl hread
          exact ih hdepth' (by omega) (by omega) (h.lt l' c'.depth hdepth')

/-- A loop that can afford its rounds does one and goes on as if it were given as many again. -/
theorem Affords.turn (h : Affords round spent rounds)
    (hsucc : ∀ (n : Nat) (l : σ), p (n + 1) l = round l >>= Sum.elim (p n) pure) (l : σ) (c : Cursor)
    (hdepth : c.depth ≤ maxDepth) : p rounds l c = (round l >>= Sum.elim (p rounds) pure) c := by
  rw [h.congr_rounds hsucc (m := rounds + 1) hdepth (by omega) (by omega), hsucc]

end Allowance

section Chains

variable {operand : Parser Expr} {looseness : Nat}

/-- One round of a chain: a link, behind as many as are open. -/
def chainRound (operand : Parser Expr) (looseness : Nat) : Nat × Expr → Parser (Nat × Expr ⊕ Expr)
  | (links, lhs) => do
    match ← binaryOp? looseness with
    | none =>
      ascend links
      return .inr lhs
    | some op =>
      discard next
      descend
      let rhs ← operand
      return .inl (links + 1, .binary op lhs rhs)

theorem chainFrom_turn (rounds : Nat) (l : Nat × Expr) :
    chainFrom operand looseness l.1 l.2 (rounds + 1) =
      chainRound operand looseness l >>=
        Sum.elim (fun l' => chainFrom operand looseness l'.1 l'.2 rounds) pure := by
  obtain ⟨links, lhs⟩ := l
  rw [chainFrom_succ, chainRound, bind_assoc]
  congr 1
  funext op
  cases op <;> simp only [bind_assoc, pure_bind, Sum.elim_inl, Sum.elim_inr]

theorem again_chainRound (hoperand : Orderly operand) (l : Nat × Expr) {d : Nat} :
    Again d 1 (fun l' d' => l'.1 = l.1 + 1 ∧ d' = d + 1 ∧ d' ≤ maxDepth)
      (chainRound operand looseness l) := by
  obtain ⟨links, lhs⟩ := l
  refine .after .binaryOp? .binaryOp? fun op _ => ?_
  cases op with
  | none => exact .leave_behind
  | some op =>
      refine .before Ensures.next.discard Takes.next.discard fun _ _ => ?_
      refine .after .descend .descend fun _ hlt => ?_
      exact .after (hoperand.balanced (d + 1) hlt) hoperand.takes fun rhs _ => .again ⟨rfl, rfl, hlt⟩

theorem loops_chainFrom (hoperand : Orderly operand) (lhs : Expr) :
    Loops (chainRound operand looseness) Prod.fst (0, lhs)
      (chainFrom operand looseness 0 lhs maxRounds) := by
  have hround : Winds Prod.fst (chainRound operand looseness) := fun l d _ =>
    (again_chainRound hoperand l).mono (Nat.le_refl 1) fun l' d' h => by omega
  -- Every link goes a level deeper, so the depth tells how many rounds there can have been.
  have hafford : Affords (chainRound operand looseness) (fun _ d => d) maxRounds :=
    { lt := fun _ d hd => Nat.lt_succ_of_le (Nat.le_succ_of_le hd)
      again := fun l d _ => (again_chainRound hoperand l).mono (Nat.zero_le 1) fun l' d' h => by omega }
  have hturn := hafford.turn (p := fun n (l : Nat × Expr) => chainFrom operand looseness l.1 l.2 n)
    chainFrom_turn
  exact .of_turns hround (fun l => chainFrom operand looseness l.1 l.2 maxRounds) (0, lhs) rfl hturn

end Chains

section Links

variable {expression : Parser Expr}

/-- One round behind an operand: an index or a call. -/
def linksRound (expression : Parser Expr) : Nat × Expr → Parser (Nat × Expr ⊕ Expr)
  | (links, e) => do
    if ← eat .openBracket then
      descend
      let position ← expression
      expect .closeBracket
      return .inl (links + 1, .index e position)
    else if ← atDelimiter .openParen then
      let t ← next
      match e with
      | .var name =>
        let arguments ← items expression .closeParen
        return .inl (links, .call name arguments)
      | _ => reject (.delimiter .semicolon) t
    else
      ascend links
      return .inr e

theorem linksFrom_turn (rounds : Nat) (l : Nat × Expr) :
    linksFrom expression l.1 l.2 (rounds + 1) =
      linksRound expression l >>= Sum.elim (fun l' => linksFrom expression l'.1 l'.2 rounds) pure := by
  obtain ⟨links, e⟩ := l
  rw [linksFrom_succ, linksRound, bind_assoc]
  congr 1
  funext isIndex
  cases isIndex with
  | true => simp only [if_true, bind_assoc, pure_bind, Sum.elim_inl]
  | false =>
      simp only [Bool.false_eq_true, if_false, bind_assoc]
      congr 1
      funext isCall
      cases isCall with
      | true =>
          simp only [if_true, bind_assoc]
          congr 1
          funext t
          cases e <;> first | rfl | simp only [bind_assoc, pure_bind, Sum.elim_inl]
      | false => simp only [Bool.false_eq_true, if_false, bind_assoc, pure_bind, Sum.elim_inr]

/-- Whether an operand cannot be called, as a number: only a name can. -/
def settled : Expr → Nat
  | .var _ => 0
  | _ => 1

theorem settled_le (e : Expr) : settled e ≤ 1 := by
  unfold settled
  split <;> omega

/-- An index goes a level deeper. A call does not, but there is no other one behind it. -/
theorem again_linksRound (hexpression : Orderly expression) (l : Nat × Expr) {d : Nat}
    (hd : d ≤ maxDepth) :
    Again d 1 (fun l' d' => d' + l.1 = d + l'.1 ∧ d + settled l.2 < d' + settled l'.2 ∧ d' ≤ maxDepth)
      (linksRound expression l) := by
  obtain ⟨links, e⟩ := l
  refine .after .eat .eat fun isIndex _ => ?_
  cases isIndex with
  | true =>
      refine .after .descend .descend fun _ hlt => ?_
      refine .after (hexpression.balanced (d + 1) hlt) hexpression.takes fun position _ => ?_
      refine .before .expect .expect fun _ _ => .again ⟨?_, ?_, hlt⟩
      · dsimp only
        omega
      · have hsettled := settled_le e
        show d + settled e < d + 1 + 1
        omega
  | false =>
      refine .after .atDelimiter .atDelimiter fun isCall _ => ?_
      cases isCall with
      | true =>
          refine .before .next .next fun t _ => ?_
          cases e with
          | var name =>
              have harguments : Orderly (items expression .closeParen) := hexpression.items
              exact .after (harguments.balanced d hd) harguments.takes fun arguments _ =>
                .again ⟨rfl, Nat.lt_succ_self d, hd⟩
          | literal | list | map | unary | binary | call | index => exact .error
      | false => exact .leave_behind

theorem loops_linksFrom (hexpression : Orderly expression) (e : Expr) :
    Loops (linksRound expression) Prod.fst (0, e) (linksFrom expression 0 e maxRounds) := by
  have hround : Winds Prod.fst (linksRound expression) := fun l d hd =>
    (again_linksRound hexpression l hd).mono (Nat.le_refl 1) fun l' d' h => ⟨h.1, h.2.2⟩
  have hafford : Affords (linksRound expression) (fun l d => d + settled l.2) maxRounds :=
    { lt := fun l d hd => Nat.lt_succ_of_le (Nat.add_le_add hd (settled_le l.2))
      again := fun l d hd =>
        (again_linksRound hexpression l hd).mono (Nat.zero_le 1) fun l' d' h => h.2 }
  have hturn := hafford.turn (p := fun n (l : Nat × Expr) => linksFrom expression l.1 l.2 n)
    linksFrom_turn
  exact .of_turns hround (fun l => linksFrom expression l.1 l.2 maxRounds) (0, e) rfl hturn

end Links

section Items

variable {item : Parser α} {close : Delimiter}

/-- One round of items: an item and what is behind it. -/
def itemsRound (item : Parser α) (close : Delimiter) (found : List α) :
    Parser (List α ⊕ List α) := do
  let a ← item
  if ← eat close then return .inr (a :: found).reverse
  expect .comma
  if ← eat close then return .inr (a :: found).reverse
  return .inl (a :: found)

theorem again_itemsRound (hitem : Orderly item) (found : List α) {d : Nat} (hd : d ≤ maxDepth) :
    Again d 1 (fun _ d' => d' = d) (itemsRound item close found) := by
  refine .after (hitem.balanced d hd) hitem.takes fun a _ => .after .eat .eat fun closed _ => ?_
  cases closed with
  | true => exact .leave
  | false =>
      refine .before .expect .expect fun _ _ => .after .eat .eat fun closed' _ => ?_
      cases closed' with
      | true => exact .leave
      | false => exact .again rfl

/-- Items, the first one of which is still to come. -/
def itemsFirst (item : Parser α) (close : Delimiter) (found : List α) : Parser (List α) := do
  itemsBehind item close ((← item) :: found)

theorem itemsFirst_turn (hitem : Orderly item) (found : List α) (c : Cursor) :
    itemsFirst item close found c =
      (itemsRound item close found >>= Sum.elim (itemsFirst item close) pure) c := by
  rw [itemsFirst, itemsRound, bind_assoc]
  refine bind_congr fun a c₁ _ => ?_
  by_cases hnil : c₁.rest = []
  · have hwanting : itemsBehind item close (a :: found) c₁ = .error .unexpectedEnd :=
      itemsFrom_of_nil hnil (a :: found) c₁.rest
    rw [hwanting, bind_assoc, bind_of_ok (eat_apply (startsWith_of_nil hnil close))]
    exact (bind_of_error (bind_of_error (expect_of_nil hnil .comma))).symm
  · rw [itemsBehind_eq hitem.takes (a :: found) hnil, bind_assoc]
    refine bind_congr fun closed c₂ _ => ?_
    cases closed with
    | true => rfl
    | false =>
        simp only [Bool.false_eq_true, if_false, bind_assoc]
        refine bind_congr fun _ c₃ _ => bind_congr fun closed' c₄ _ => ?_
        cases closed' <;> rfl

theorem loops_items (hitem : Orderly item) :
    Loops (itemsRound item close) (fun _ => 0) [] (itemsFirst item close []) := by
  have hround : Winds (fun _ => 0) (itemsRound item close) :=
    .of_level fun found _ => again_itemsRound hitem found
  exact .of_turns hround (itemsFirst item close) [] rfl fun found c _ => itemsFirst_turn hitem found c

end Items

section Blocks

variable {block : Parser (List Stmt)}

/-- One round of a block: a statement, unless the block is closed. -/
def blockRound (block : Parser (List Stmt)) (found : List Stmt) :
    Parser (List Stmt ⊕ List Stmt) := do
  if ← eat .closeBrace then return .inr found.reverse
  match ← peek with
  | none => throw .unexpectedEnd
  | some _ =>
    let (s, _) ← statement block
    return .inl (s :: found)

theorem again_blockRound (hstatement : Orderly (statement block)) (htakes : Takes 1 (statement block))
    (found : List Stmt) {d : Nat} (hd : d ≤ maxDepth) :
    Again d 1 (fun _ d' => d' = d) (blockRound block found) := by
  refine .after .eat .eat fun closed _ => ?_
  cases closed with
  | true => exact .leave
  | false =>
      refine .after .peek .peek fun t _ => ?_
      cases t with
      | none => exact .error
      | some t =>
          refine .before (hstatement.balanced d hd) htakes fun s _ => ?_
          exact .again rfl

theorem statementsBehind_turn (htakes : Takes 1 (statement block)) (found : List Stmt) (c : Cursor) :
    statementsBehind block found c =
      (blockRound block found >>= Sum.elim (statementsBehind block) pure) c := by
  have hrounds : statementsBehind block found c = blockFrom block found c.rest c := rfl
  rw [hrounds, blockRound, bind_assoc]
  cases hrest : c.rest with
  | nil =>
      rw [blockFrom_of_nil hrest, bind_of_ok (eat_apply (startsWith_of_nil hrest .closeBrace))]
      exact (bind_of_error (bind_of_ok (peek_of_nil hrest))).symm
  | cons t rest =>
      rw [blockFrom]
      refine bind_congr fun closed c₁ heat => ?_
      have hle₁ := Takes.eat.length_le heat
      rw [hrest, List.length_cons] at hle₁
      cases closed with
      | true => rfl
      | false =>
          simp only [Bool.false_eq_true, if_false, bind_assoc]
          refine bind_congr fun t' c₂ hpeek => ?_
          have hle₂ := Takes.peek.length_le hpeek
          cases t' with
          | none => rfl
          | some t' =>
              simp only [bind_assoc, pure_bind, Sum.elim_inl]
              refine bind_congr fun s c₃ hread => ?_
              have hle₃ := htakes.length_le hread
              exact blockFrom_congr_rounds htakes _ rest c₃.rest (by omega) (Nat.le_refl _)

theorem loops_statementsBehind (hstatement : Orderly (statement block))
    (htakes : Takes 1 (statement block)) :
    Loops (blockRound block) (fun _ => 0) [] (statementsBehind block []) := by
  have hround : Winds (fun _ => 0) (blockRound block) :=
    .of_level fun found _ => again_blockRound hstatement htakes found
  exact .of_turns hround (statementsBehind block) [] rfl fun found c _ =>
    statementsBehind_turn htakes found c

end Blocks

section Programs

/-- One round of a program: a statement, unless the tokens have ended. -/
def programRound (found : List Stmt) : Parser (List Stmt ⊕ Program) := do
  match ← peek with
  | none => return .inr { statements := found.reverse, result := none }
  | some _ =>
    match ← statement Parser.block with
    | (.evaluate e, true) => return .inr { statements := found.reverse, result := some e }
    | (s, _) => return .inl (s :: found)

theorem again_programRound (found : List Stmt) {d : Nat} (hd : d ≤ maxDepth) :
    Again d 1 (fun _ d' => d' = d) (programRound found) := by
  refine .after .peek .peek fun t _ => ?_
  cases t with
  | none => exact .leave
  | some t =>
      refine .before ((Orderly.statementWithin (maxDepth + 1)).balanced d hd)
        (takes_statement (takes_blockWithin (maxDepth + 1))) fun s _ => ?_
      split
      · exact .leave
      · exact .again rfl

theorem programBehind_turn (found : List Stmt) (c : Cursor) :
    programBehind found c = (programRound found >>= Sum.elim programBehind pure) c := by
  have hrounds : programBehind found c = programFrom found c.rest c := rfl
  rw [hrounds, programRound, bind_assoc]
  cases hrest : c.rest with
  | nil =>
      rw [programFrom_of_nil hrest, bind_of_ok (peek_of_nil hrest)]
      rfl
  | cons t rest =>
      rw [programFrom]
      refine bind_congr fun t' c₁ hpeek => ?_
      have hle₁ := Takes.peek.length_le hpeek
      rw [hrest, List.length_cons] at hle₁
      cases t' with
      | none => rfl
      | some t' =>
          simp only [bind_assoc]
          refine bind_congr fun s c₂ hread => ?_
          have hle₂ := (takes_statement (takes_blockWithin (maxDepth + 1))).length_le hread
          have hcongr (s : Stmt) :
              programFrom (s :: found) rest c₂ = programFrom (s :: found) c₂.rest c₂ :=
            programFrom_congr_rounds _ rest c₂.rest (by omega) (Nat.le_refl _)
          obtain ⟨s, ended⟩ := s
          cases s with
          | evaluate e =>
              cases ended with
              | true => rfl
              | false => exact hcongr _
          | declare | assign | ifThen | ifElse | whileLoop => exact hcongr _

theorem loops_programBehind : Loops programRound (fun _ => 0) [] (programBehind []) := by
  have hround : Winds (fun _ => 0) programRound := .of_level fun found _ => again_programRound found
  exact .of_turns hround programBehind [] rfl fun found c _ => programBehind_turn found c

end Programs

/-- What reading keeps to, whatever number of `levels` there may be around the parts. Every reader comes
back up to where it began, never further, and takes a token; every loop has as many rounds as tokens are
left at most, and its rounds begin at the same depth but for the links that are open. -/
structure SteadyReading (levels : Nat) : Prop where
  statements : IndexedParser.Steady (IndexedParser.statement (IndexedParser.blockWithin levels))
    (statement (blockWithin levels))
  blocks : IndexedParser.Steady (IndexedParser.blockWithin levels) (blockWithin levels)
  conditionals : ∀ rounds : Nat,
    IndexedParser.Steady (IndexedParser.ifFrom (IndexedParser.blockWithin levels) rounds)
      (ifFrom (blockWithin levels) rounds)
  expressions : IndexedParser.Steady (IndexedParser.expressionWithin levels) (expressionWithin levels)
  chains : ∀ looseness : Nat,
    IndexedParser.Steady
      (IndexedParser.chain
        (IndexedParser.unary (IndexedParser.postfixed (IndexedParser.expressionWithin levels))) looseness)
      (chain (unary (postfixed (expressionWithin levels))) looseness)
  signed : IndexedParser.Steady
    (IndexedParser.unary (IndexedParser.postfixed (IndexedParser.expressionWithin levels)))
    (unary (postfixed (expressionWithin levels)))
  linked : IndexedParser.Steady (IndexedParser.postfixed (IndexedParser.expressionWithin levels))
    (postfixed (expressionWithin levels))
  lists : ∀ close : Delimiter,
    IndexedParser.Steady (IndexedParser.items (IndexedParser.expressionWithin levels) close)
      (items (expressionWithin levels) close)
  maps : ∀ close : Delimiter,
    IndexedParser.Steady
      (IndexedParser.items (IndexedParser.entry (IndexedParser.expressionWithin levels)) close)
      (items (entry (expressionWithin levels)) close)
  entries : IndexedParser.Steady (IndexedParser.entry (IndexedParser.expressionWithin levels))
    (entry (expressionWithin levels))
  primaries : IndexedParser.Steady (IndexedParser.primary (IndexedParser.expressionWithin levels))
    (primary (expressionWithin levels))
  chainLoop : ∀ (looseness : Nat) (lhs : Expr),
    Loops (chainRound (chain (unary (postfixed (expressionWithin levels))) looseness) (looseness + 1))
      Prod.fst (0, lhs)
      (chainFrom (chain (unary (postfixed (expressionWithin levels))) looseness) (looseness + 1) 0 lhs
        maxRounds)
  linksLoop : ∀ e : Expr,
    Loops (linksRound (expressionWithin levels)) Prod.fst (0, e)
      (linksFrom (expressionWithin levels) 0 e maxRounds)
  listLoop : ∀ close : Delimiter,
    Loops (itemsRound (expressionWithin levels) close) (fun _ => 0) [] (do
      let first ← expressionWithin levels
      itemsFrom (expressionWithin levels) close [first] (← remaining))
  mapLoop : ∀ close : Delimiter,
    Loops (itemsRound (entry (expressionWithin levels)) close) (fun _ => 0) [] (do
      let first ← entry (expressionWithin levels)
      itemsFrom (entry (expressionWithin levels)) close [first] (← remaining))
  blockLoop : Loops (blockRound (blockWithin levels)) (fun _ => 0) [] (do
    blockFrom (blockWithin levels) [] (← remaining))
  programLoop : Loops programRound (fun _ => 0) [] (do programFrom [] (← remaining))
  programs : ∀ tokens : List PlacedToken,
    Program.ofIndexedTokens tokens = .ok (Program.ofTokens tokens) ∧
      Program.ofTokens tokens ≠ .error .unbalanced

/-- Reading is steady on every level. -/
theorem steadyReading (levels : Nat) : SteadyReading levels where
  statements := IndexedParser.steady_statement levels
  blocks := IndexedParser.steady_blockWithin levels
  conditionals := IndexedParser.steady_ifFrom levels
  expressions := IndexedParser.steady_expressionWithin levels
  chains := IndexedParser.steady_chain levels
  signed := IndexedParser.steady_unary levels
  linked := IndexedParser.steady_postfixed levels
  lists := IndexedParser.steady_items levels
  maps := IndexedParser.steady_entries levels
  entries := IndexedParser.steady_entry levels
  primaries := IndexedParser.steady_primary levels
  chainLoop looseness := loops_chainFrom (.chain levels looseness)
  linksLoop := loops_linksFrom (.expressionWithin levels)
  listLoop _ := loops_items (.expressionWithin levels)
  mapLoop _ := loops_items (.entry levels)
  blockLoop := loops_statementsBehind (.statementWithin levels)
    (takes_statement (takes_blockWithin levels))
  programLoop := loops_programBehind
  programs tokens := ⟨Program.ofIndexedTokens_eq tokens, Program.ofTokens_ne_unbalanced tokens⟩

end Parser

end ReplDaemon.Script
