import ReplDaemon.Proofs.Script.Program.Mending

/-!
# Expressions that can be completed

An expression that the tokens end in can always be completed. A `null` stands for what is missing, and
everything that is open takes its closing delimiter; none of that goes deeper than the reading has gone
already.
-/

namespace ReplDaemon.Script

namespace Parser

variable {α : Type}

section Items

variable {follow : List Token → Prop} {item : Parser α} {close : Delimiter} {floor : Nat}

/-- The items behind the first one, with as many rounds as there are tokens. -/
def itemsBehind (item : Parser α) (close : Delimiter) (found : List α) : Parser (List α) := do
  itemsFrom item close found (← remaining)

/-- Rounds beyond the number of tokens make no difference. -/
theorem itemsFrom_congr_rounds (hitem : Takes 0 item) (found : List α)
    (rounds rounds' : List PlacedToken) {c : Cursor} (h : c.rest.length ≤ rounds.length)
    (h' : c.rest.length ≤ rounds'.length) :
    itemsFrom item close found rounds c = itemsFrom item close found rounds' c := by
  by_cases hnil : c.rest = []
  · rw [itemsFrom_of_nil hnil, itemsFrom_of_nil hnil]
  have hpos : 0 < c.rest.length := List.length_pos_iff.mpr hnil
  induction rounds generalizing found rounds' c with
  | nil => exact absurd h (Nat.not_le.mpr hpos)
  | cons _ rounds ih =>
      cases rounds' with
      | nil => exact absurd h' (Nat.not_le.mpr hpos)
      | cons _ rounds' =>
          rw [List.length_cons] at h h'
          rw [itemsFrom, itemsFrom]
          refine bind_congr fun closed c₁ heat => ?_
          have hle₁ := Takes.eat.length_le heat
          split
          · rfl
          refine bind_congr fun _ c₂ hexpect => ?_
          have hle₂ := Takes.expect.length_le hexpect
          refine bind_congr fun closed' c₃ heat' => ?_
          have hle₃ := Takes.eat.length_le heat'
          split
          · rfl
          refine bind_congr fun a c₄ hread => ?_
          have hle₄ := hitem.length_le hread
          by_cases hnil₄ : c₄.rest = []
          · rw [itemsFrom_of_nil hnil₄, itemsFrom_of_nil hnil₄]
          · exact ih (a :: found) rounds' (by omega) (by omega) hnil₄
              (List.length_pos_iff.mpr hnil₄)

/-- One round of the items behind the first one. -/
theorem itemsBehind_eq (hitem : Takes 0 item) (found : List α) {c : Cursor} (hrest : c.rest ≠ []) :
    itemsBehind item close found c = (do
      if ← eat close then return found.reverse
      expect .comma
      if ← eat close then return found.reverse
      itemsBehind item close ((← item) :: found)) c := by
  obtain ⟨t, rest, hcons⟩ := Cursor.exists_rest hrest
  have hrounds : itemsBehind item close found c = itemsFrom item close found c.rest c := rfl
  have hlength : c.rest.length = rest.length + 1 := by rw [hcons, List.length_cons]
  rw [hrounds, hcons, itemsFrom]
  refine bind_congr fun closed c₁ heat => ?_
  have hle₁ := Takes.eat.length_le heat
  split
  · rfl
  refine bind_congr fun _ c₂ hexpect => ?_
  have hle₂ := Takes.expect.length_le hexpect
  refine bind_congr fun closed' c₃ heat' => ?_
  have hle₃ := Takes.eat.length_le heat'
  split
  · rfl
  refine bind_congr fun a c₄ hread => ?_
  have hle₄ := hitem.length_le hread
  exact itemsFrom_congr_rounds hitem (a :: found) rest c₄.rest (by omega) (Nat.le_refl _)

theorem succeeds_eat_close {c : Cursor} {rest : List Token} (htokens : c.tokens = .delimiter close :: rest)
    {f : Bool → Parser (List α)} {found : List α} (hf : f true = pure found) :
    Succeeds (eat close >>= f) c rest := by
  have h : Becomes (eat close >>= f) c (pure found) rest c.depth 0 :=
    becomes_eat htokens fun e he hdown => by
      rw [hf]
      exact .refl he hdown
  exact h.succeeds (Nat.zero_le _)

theorem succeeds_itemsBehind (found : List α) {c : Cursor} {rest : List Token}
    (htokens : c.tokens = .delimiter close :: rest) :
    Succeeds (itemsBehind item close found) c rest := by
  have hrest : c.rest ≠ [] := by
    intro hnil
    rw [Cursor.tokens_of_rest_nil hnil] at htokens
    cases htokens
  obtain ⟨t, tail, hcons⟩ := Cursor.exists_rest hrest
  have hremaining : remaining c = .ok (t :: tail, c) := by rw [remaining, hcons]
  exact .of_read hremaining (succeeds_eat_close htokens rfl)

/-- Items that the tokens end in are closed behind the item that is read last. -/
theorem mendable_itemsBehind (horderly : Orderly item)
    (hprospect : ∀ (c : Cursor) (more : List PlacedToken), c.depth ≤ maxDepth →
      Prospect True (¬ follow (more.map (·.token))) item item c more)
    (hitem : ∀ c : Cursor, floor ≤ c.depth → c.depth ≤ maxDepth → Mendable False follow item c)
    (hclose : ∀ rest : List Token, follow (.delimiter close :: rest)) (found : List α) {c : Cursor}
    (hfloor : floor ≤ c.depth) (hdepth : c.depth ≤ maxDepth) :
    Mendable False (fun _ => True) (itemsBehind item close found) c := by
  induction hlength : c.rest.length using Nat.strong_induction_on generalizing found c with
  | h length ih =>
      by_cases hnil : c.rest = []
      · exact fun _ => .inr (.of_nil [.delimiter close] hnil fun d rest hd _ _ =>
          succeeds_itemsBehind found hd)
      refine .of_eq (fun more => itemsBehind_eq horderly.takes found (by simp [hnil])) ?_
      refine .eat hnil (fun c' _ => .pure) fun _ => ?_
      refine .expect hnil fun c₁ hexpect => ?_
      have hle₁ := Takes.expect.length_le hexpect
      have hdepth₁ := Orderly.expect.balanced.depth_eq hdepth hexpect
      by_cases hnil₁ : c₁.rest = []
      · exact fun _ => .inr (.of_nil [.delimiter close] hnil₁ fun d rest hd _ _ =>
          succeeds_eat_close hd rfl)
      refine .eat hnil₁ (fun c' _ => .pure) fun _ => ?_
      refine .bind horderly (by omega) (fun more => hprospect c₁ more (by omega))
        (hitem c₁ (by omega) (by omega)) (fun _ => ⟨[.delimiter close], ?_⟩) fun a c₂ hread _ => ?_
      · exact ⟨fun rest _ => hclose rest, fun a d rest hd _ _ => succeeds_itemsBehind (a :: found) hd⟩
      · have hle₂ := horderly.takes.length_le hread
        have hdepth₂ := horderly.balanced.depth_eq (by omega) hread
        exact ih c₂.rest.length (by omega) (a :: found) (by omega) (by omega) rfl

theorem mendable_items (horderly : Orderly item)
    (hprospect : ∀ (c : Cursor) (more : List PlacedToken), c.depth ≤ maxDepth →
      Prospect True (¬ follow (more.map (·.token))) item item c more)
    (hitem : ∀ c : Cursor, floor ≤ c.depth → c.depth ≤ maxDepth → Mendable False follow item c)
    (hclose : ∀ rest : List Token, follow (.delimiter close :: rest)) {c : Cursor}
    (hfloor : floor ≤ c.depth) (hdepth : c.depth ≤ maxDepth) :
    Mendable False (fun _ => True) (items item close) c := by
  by_cases hnil : c.rest = []
  · exact fun _ => .inr (.of_nil [.delimiter close] hnil fun d rest hd _ _ =>
      succeeds_eat_close hd rfl)
  refine .eat hnil (fun c' _ => .pure) fun _ => ?_
  refine .bind horderly hdepth (fun more => hprospect c more hdepth) (hitem c hfloor hdepth)
    (fun _ => ⟨[.delimiter close], ?_⟩) fun a c' hread _ => ?_
  · exact ⟨fun rest _ => hclose rest, fun a d rest hd _ _ => succeeds_itemsBehind [a] hd⟩
  · have hdepth' := horderly.balanced.depth_eq hdepth hread
    exact mendable_itemsBehind horderly hprospect hitem hclose [a] (by omega) (by omega)

end Items

/-- An expression that nothing is needed for. -/
def nullToken : Token := .keyword .nullWord

section Null

variable {floor levels : Nat} {c : Cursor} {rest : List Token}

theorem succeeds_null (hlevels : maxDepth < c.depth + levels) (hdepth : c.depth < maxDepth)
    (htokens : c.tokens = nullToken :: rest) (hstops : Stops topLevel rest) :
    Succeeds (expressionWithin levels) c rest := by
  have hreads := (Expr.literal .null).readable.whole c.depth levels hlevels
  exact (hreads c rest (Nat.le_refl _) (Nat.le_of_lt hdepth) htokens hstops).succeeds hdepth

theorem succeeds_null_postfixed (hlevels : maxDepth < c.depth + levels) (hdepth : c.depth ≤ maxDepth)
    (htokens : c.tokens = nullToken :: rest) (hstops : Stops 0 rest) :
    Succeeds (postfixed (expressionWithin levels)) c rest := by
  have hreads := (Expr.literal .null).readable.within 0 c.depth levels hlevels
  exact (hreads c rest (Nat.le_refl _) hdepth htokens hstops).succeeds hdepth

theorem succeeds_null_primary {inner : Parser Expr} (htokens : c.tokens = nullToken :: rest) :
    Succeeds (primary inner) c rest := by
  obtain ⟨t, d, ht, hnext, hd, _⟩ := exists_next htokens
  refine .of_read hnext ?_
  rw [ht]
  exact ⟨_, d, rfl, hd⟩

theorem succeeds_expect {d : Delimiter} {f : Unit → Parser α} {rest' : List Token}
    (htokens : c.tokens = .delimiter d :: rest)
    (hf : ∀ c' : Cursor, c'.tokens = rest → c'.depth = c.depth → Succeeds (f ⟨⟩) c' rest') :
    Succeeds (expect d >>= f) c rest' := by
  obtain ⟨t, c', ht, hnext, hrest, hdown⟩ := exists_next htokens
  have hread : expect d c = .ok (⟨⟩, c') := by
    rw [expect, bind_of_ok hnext, ht]
    simp only [beq_self_eq_true, if_true]
    rfl
  exact .of_read hread (hf c' hrest hdown)

end Null

section Prospects

variable (levels : Nat) (c : Cursor) (more : List PlacedToken) (hdepth : c.depth ≤ maxDepth)

include hdepth

theorem prospect_of_depth :
    Prospect True (¬ Stops topLevel (more.map (·.token))) (expressionWithin levels)
      (expressionWithin levels) c more :=
  prospect_expressionWithin levels (.of_depth hdepth)

theorem prospect_entry_of_depth :
    Prospect True (¬ Stops topLevel (more.map (·.token))) (entry (expressionWithin levels))
      (entry (expressionWithin levels)) c more :=
  prospect_entry (.expressionWithin levels) (fun _ hd => prospect_expressionWithin levels hd)
    (.of_depth hdepth)

theorem prospect_primary_of_depth :
    Prospect True (¬ True) (primary (expressionWithin levels)) (primary (expressionWithin levels)) c
      more :=
  (prospect_primary (.expressionWithin levels) (fun _ hd => prospect_expressionWithin levels hd)
    (wantsMore_expressionWithin levels) (.entry levels)
    (fun d hd => prospect_entry_of_depth levels d more hd.depth_le)
    (wantsMore_entry (wantsMore_expressionWithin levels)) (.of_depth hdepth)).mono id False.elim

end Prospects

theorem prospect_unaryFrom_of_depth (levels rounds : Nat) (c : Cursor) (more : List PlacedToken)
    (hdepth : c.depth ≤ maxDepth) :
    Prospect True (¬ Stops 0 (more.map (·.token)))
      (unaryFrom (postfixed (expressionWithin levels)) rounds)
      (unaryFrom (postfixed (expressionWithin levels)) rounds) c more :=
  prospect_unaryFrom (fun _ h => postfixed_of_nil h)
    (fun _ hd => prospect_postfixed (fun _ he => prospect_expressionWithin levels he) hd) rounds
    (.of_depth hdepth)

theorem prospect_chain_of_depth (levels looseness : Nat) (c : Cursor) (more : List PlacedToken)
    (hdepth : c.depth ≤ maxDepth) :
    Prospect True (¬ Stops (looseness + 1) (more.map (·.token)))
      (chain (unary (postfixed (expressionWithin levels))) looseness)
      (chain (unary (postfixed (expressionWithin levels))) looseness) c more :=
  prospect_chain
    (fun _ hd => prospect_unary (fun _ he => prospect_expressionWithin levels he) hd) looseness
    (.of_depth hdepth)

section Expressions

variable {floor levels : Nat} {operand inner : Parser Expr} {c : Cursor}

theorem mendable_chainFrom {looseness : Nat} (horderly : Orderly operand)
    (hprospect : ∀ (c : Cursor) (more : List PlacedToken), c.depth ≤ maxDepth →
      Prospect True (¬ Stops looseness (more.map (·.token))) operand operand c more)
    (hoperand : ∀ c : Cursor, floor ≤ c.depth → c.depth ≤ maxDepth →
      Mendable False (Stops looseness) operand c)
    (links : Nat) (lhs : Expr) (rounds : Nat) (hfloor : floor ≤ c.depth)
    (hdepth : c.depth ≤ maxDepth) (hlinks : links ≤ c.depth) (hrounds : maxDepth < links + rounds) :
    Mendable False (Stops (looseness + 1)) (chainFrom operand looseness links lhs rounds) c := by
  induction rounds generalizing links lhs c with
  | zero => exact .tooDeep
  | succ rounds ih =>
      by_cases hnil : c.rest = []
      · have hdone := chainFrom_of_stops operand links lhs rounds
          (stops_of_nil hnil (looseness + 1)) hlinks
        exact .of_ne (by rw [hdone]; exact nofun)
      rw [chainFrom_succ]
      refine .binaryOp? hnil fun op => ?_
      cases op with
      | none => exact .ascend
      | some op =>
          refine .discard_next hnil fun c₁ hnext => ?_
          have hdepth₁ := Orderly.discard_next.balanced.depth_eq hdepth hnext
          refine .descend fun hlt => ?_
          refine .bind horderly hlt (fun more => hprospect _ more hlt)
            (hoperand _ (Nat.le_succ_of_le (by omega)) hlt) (fun _ => ⟨[], ?_⟩)
            fun rhs c₂ hread _ => ?_
          · refine ⟨fun rest hstops => hstops.mono (Nat.le_succ _),
              fun rhs d rest hd hdown hstops => ?_⟩
            have hdeep : d.depth = c₁.depth + 1 := hdown
            obtain ⟨rounds, rfl⟩ : ∃ n, rounds = n + 1 := ⟨rounds - 1, by omega⟩
            have hrest : d.tokens = rest := hd
            exact ⟨_, _, chainFrom_of_stops operand (links + 1) _ rounds (hrest ▸ hstops) (by omega), hrest⟩
          · have hsame := horderly.balanced.depth_eq (c := { c₁ with depth := c₁.depth + 1 }) hlt hread
            have hdepth₂ : c₂.depth = c₁.depth + 1 := hsame
            exact ih (links + 1) (.binary op lhs rhs) (by omega) (by omega) (by omega) (by omega)

theorem mendable_chain
    (hoperand : ∀ c : Cursor, floor ≤ c.depth → c.depth ≤ maxDepth →
      Mendable False (Stops 1) (unary (postfixed (expressionWithin levels))) c)
    (looseness : Nat) (hfloor : floor ≤ c.depth) (hdepth : c.depth ≤ maxDepth) :
    Mendable False (Stops (looseness + 1))
      (chain (unary (postfixed (expressionWithin levels))) looseness) c := by
  induction looseness generalizing c with
  | zero => exact hoperand c hfloor hdepth
  | succ looseness ih =>
      have horderly := Orderly.chain levels looseness
      have hprospect := prospect_chain_of_depth levels looseness
      rw [chain]
      refine .bind horderly hdepth (fun more => hprospect c more hdepth) (ih hfloor hdepth)
        (fun _ => ⟨[], ?_⟩) fun lhs c' hread _ => ?_
      · refine ⟨fun rest hstops => hstops.mono (Nat.le_succ _), fun lhs d rest hd _ hstops => ?_⟩
        have hrest : d.tokens = rest := hd
        exact ⟨_, _, chainFrom_of_stops _ 0 lhs (maxRounds - 1) (hrest ▸ hstops) (Nat.zero_le _), hrest⟩
      · have hdepth' := horderly.balanced.depth_eq hdepth hread
        exact mendable_chainFrom horderly hprospect (fun d hd hd' => ih hd hd') 0 lhs maxRounds
          (by omega) (by omega) (Nat.zero_le _) (by decide)

theorem mendable_unaryFrom (hlevels : maxDepth < floor + levels)
    (hoperand : ∀ c : Cursor, floor ≤ c.depth → c.depth ≤ maxDepth →
      Mendable False (Stops 0) (postfixed (expressionWithin levels)) c)
    (rounds : Nat) (hfloor : floor ≤ c.depth) (hdepth : c.depth ≤ maxDepth) :
    Mendable False (Stops 0) (unaryFrom (postfixed (expressionWithin levels)) rounds) c := by
  induction rounds generalizing c with
  | zero => exact .tooDeep
  | succ rounds ih =>
      rw [unaryFrom_succ]
      by_cases hnil : c.rest = []
      · refine fun _ => .inr (.of_nil [nullToken] hnil fun d rest hd hdown hstops => ?_)
        have hnone : unaryOp? d = .ok (none, d) :=
          unaryOp?_of_opens ⟨nullToken, rest, hd, rfl, fun _ => rfl⟩
        exact .of_read hnone (succeeds_null_postfixed (by omega) (by omega) hd hstops)
      refine .unaryOp? hnil fun op => ?_
      cases op with
      | none => exact hoperand c hfloor hdepth
      | some op =>
          refine .discard_next hnil fun c₁ hnext => ?_
          have hdepth₁ := Orderly.discard_next.balanced.depth_eq hdepth hnext
          have horderly := (Orderly.postfixed levels).unaryFrom rounds
          have hprospect := prospect_unaryFrom_of_depth levels rounds
          have hnested : Mendable False (Stops 0)
              (nested (unaryFrom (postfixed (expressionWithin levels)) rounds)) c₁ :=
            .nested horderly (fun hlt more => hprospect _ more hlt)
              fun hlt => ih (Nat.le_succ_of_le (by omega)) hlt
          exact hnested.map

/-- The rounds for indices and calls last, since only a name can be called. -/
theorem mendable_linksFrom (horderly : Orderly inner)
    (hprospect : ∀ (c : Cursor) (more : List PlacedToken), c.depth ≤ maxDepth →
      Prospect True (¬ Stops topLevel (more.map (·.token))) inner inner c more)
    (hinner : ∀ c : Cursor, floor ≤ c.depth → c.depth ≤ maxDepth →
      Mendable False (Stops topLevel) inner c)
    (hwants : WantsMore inner) (links : Nat) (e : Expr) (rounds : Nat) (hfloor : floor ≤ c.depth)
    (hdepth : c.depth ≤ maxDepth) (hlinks : links ≤ c.depth) (hrounds : maxDepth < links + rounds)
    (hname : ∀ name : String, e = .var name → maxDepth + 1 < links + rounds) :
    Mendable False (Stops 0) (linksFrom inner links e rounds) c := by
  induction rounds generalizing links e c with
  | zero => exact .tooDeep
  | succ rounds ih =>
      by_cases hnil : c.rest = []
      · have hdone := linksFrom_of_stops inner links e rounds (stops_of_nil hnil 0) hlinks
        exact .of_ne (by rw [hdone]; exact nofun)
      have hclosed (links : Nat) (e : Expr) (d : Cursor) (rest : List Token) (hd : d.tokens = rest)
          (hlinks : links ≤ d.depth) (hpos : 0 < rounds) (hstops : Stops 0 rest) :
          Succeeds (linksFrom inner links e rounds) d rest := by
        obtain ⟨rounds, rfl⟩ : ∃ n, rounds = n + 1 := ⟨rounds - 1, by omega⟩
        exact ⟨_, _, linksFrom_of_stops inner links e rounds (hd ▸ hstops) hlinks, hd⟩
      rw [linksFrom_succ]
      refine .eat hnil (fun c₁ heat => ?_) fun _ => ?_
      · have hdepth₁ := Orderly.eat.balanced.depth_eq hdepth heat
        refine .descend fun hlt => ?_
        refine .bind horderly hlt (fun more => hprospect _ more hlt)
          (hinner _ (Nat.le_succ_of_le (by omega)) hlt) (fun _ => ⟨[.delimiter .closeBracket], ?_⟩)
          fun position c₂ hread hnil₂ => ?_
        · refine ⟨fun rest _ => .delimiter _ _ (by decide) (by decide),
            fun position d rest hd hdown hstops => ?_⟩
          have hdeep : d.depth = c₁.depth + 1 := hdown
          exact succeeds_expect hd fun d' hd' hdown' =>
            hclosed (links + 1) _ d' rest hd' (by omega) (by omega) hstops
        · have hsame := horderly.balanced.depth_eq (c := { c₁ with depth := c₁.depth + 1 }) hlt hread
          have hdepth₂ : c₂.depth = c₁.depth + 1 := hsame
          refine .expect hnil₂ fun c₃ hexpect => ?_
          have hdepth₃ := Orderly.expect.balanced.depth_eq (by omega) hexpect
          exact ih (links + 1) (.index e position) (by omega) (by omega) (by omega) (by omega) nofun
      · refine .atDelimiter hnil fun isCall => ?_
        cases isCall with
        | false => exact .ascend
        | true =>
            refine .next hnil fun t c₁ hnext => ?_
            have hdepth₁ := Orderly.next.balanced.depth_eq hdepth hnext
            cases e with
            | var name =>
                have hroom := hname name rfl
                have harguments (more : List PlacedToken) :
                    Prospect True (¬ True) (items inner .closeParen) (items inner .closeParen) c₁ more :=
                  (prospect_items horderly (fun d hd => hprospect d more hd.depth_le) hwants
                    (.of_depth (by omega)) fun _ => trivial).mono id False.elim
                refine .bind horderly.items (by omega) harguments
                  (mendable_items horderly hprospect hinner
                    (fun _ => .delimiter _ _ (by decide) (by decide)) (by omega) (by omega))
                  (fun _ => ⟨[], fun _ _ => trivial, fun arguments d rest hd hdown hstops => ?_⟩)
                  fun arguments c₂ hread _ => ?_
                · exact hclosed links _ d rest hd (by omega) (by omega) hstops
                · have hdepth₂ := horderly.items.balanced.depth_eq (by omega) hread
                  exact ih links (.call name arguments) (by omega) (by omega) (by omega) (by omega) nofun
            | _ => exact .throw nofun

theorem mendable_entry (hlevels : maxDepth < floor + levels)
    (hinner : ∀ c : Cursor, floor ≤ c.depth → c.depth ≤ maxDepth →
      Mendable False (Stops topLevel) (expressionWithin levels) c)
    (hfloor : floor ≤ c.depth) (hdepth : c.depth ≤ maxDepth) :
    Mendable False (Stops topLevel) (entry (expressionWithin levels)) c := by
  have horderly := Orderly.expressionWithin levels
  have hprospect := prospect_of_depth levels
  refine .bind horderly hdepth (fun more => hprospect c more hdepth) (hinner c hfloor hdepth)
    (fun hroom => ⟨[.delimiter .colon, nullToken], ?_⟩) fun key c₁ hread hnil => ?_
  · have hlt := depth_lt_of_ne_tooDeep (by omega) hroom
    refine ⟨fun rest _ => .delimiter _ _ (by decide) (by decide),
      fun key d rest hd hdown hstops => succeeds_expect hd fun d' hd' hdown' => ?_⟩
    have hvalue : Succeeds (expressionWithin levels) d' rest :=
      succeeds_null (by omega) (by omega) hd' hstops
    exact hvalue.bind horderly (by omega) fun value d'' hd'' _ => ⟨_, d'', rfl, hd''⟩
  · have hdepth₁ := horderly.balanced.depth_eq hdepth hread
    refine .expect hnil fun c₂ hexpect => ?_
    have hdepth₂ := Orderly.expect.balanced.depth_eq (by omega) hexpect
    exact (hinner c₂ (by omega) (by omega)).map

/-- What stands in brackets is completed and closed. -/
theorem mendable_primary (hlevels : maxDepth < floor + levels)
    (hinner : ∀ c : Cursor, floor ≤ c.depth → c.depth ≤ maxDepth →
      Mendable False (Stops topLevel) (expressionWithin levels) c)
    (hfloor : floor ≤ c.depth) (hdepth : c.depth ≤ maxDepth) :
    Mendable False (fun _ => True) (primary (expressionWithin levels)) c := by
  have horderly := Orderly.expressionWithin levels
  have hprospect := prospect_of_depth levels
  by_cases hnil : c.rest = []
  · exact fun _ => .inr (.of_nil [nullToken] hnil fun d rest hd _ _ => succeeds_null_primary hd)
  refine .next hnil fun t c₁ hnext => ?_
  have hdepth₁ := Orderly.next.balanced.depth_eq hdepth hnext
  obtain ⟨token, position⟩ := t
  cases token with
  | delimiter d =>
      cases d with
      | openParen =>
          refine .bind horderly (by omega) (fun more => hprospect c₁ more (by omega))
            (hinner c₁ (by omega) (by omega)) (fun _ => ⟨[.delimiter .closeParen], ?_⟩)
            fun e c₂ _ hnil₂ => .expect hnil₂ fun _ _ => .pure
          exact ⟨fun rest _ => .delimiter _ _ (by decide) (by decide), fun e d rest hd _ _ =>
            succeeds_expect hd fun d' hd' _ => ⟨e, d', rfl, hd'⟩⟩
      | openBracket =>
          exact (mendable_items horderly hprospect hinner
            (fun _ => .delimiter _ _ (by decide) (by decide)) (by omega) (by omega)).map
      | openMap =>
          exact (mendable_items (.entry levels) (prospect_entry_of_depth levels)
            (fun d hd hd' => mendable_entry hlevels hinner hd hd')
            (fun _ => .delimiter _ _ (by decide) (by decide)) (by omega) (by omega)).map
      | _ => exact .throw nofun
  | keyword k => cases k <;> first | exact .pure | exact .throw nofun
  | operator o => exact .throw nofun
  | _ => exact .pure

/-- Expressions can always be completed. -/
theorem mendable_expressionWithin (hlevels : maxDepth < floor + levels) (hfloor : floor ≤ c.depth)
    (hdepth : c.depth ≤ maxDepth) :
    Mendable False (Stops topLevel) (expressionWithin levels) c := by
  induction levels generalizing floor c with
  | zero => exact .tooDeep
  | succ levels ih =>
      have hinner (d : Cursor) (hd : floor + 1 ≤ d.depth) (hd' : d.depth ≤ maxDepth) :
          Mendable False (Stops topLevel) (expressionWithin levels) d :=
        @ih (floor + 1) d (by omega) hd hd'
      have hprospect := prospect_of_depth levels
      have hpostfixed (d : Cursor) (hd : floor + 1 ≤ d.depth) (hd' : d.depth ≤ maxDepth) :
          Mendable False (Stops 0) (postfixed (expressionWithin levels)) d := by
        have hwants := wantsMore_expressionWithin levels
        have horderly := Orderly.expressionWithin levels
        refine .bind (.primary levels) hd' (fun more => prospect_primary_of_depth levels d more hd')
          (mendable_primary (by omega) hinner hd hd')
          (fun _ => ⟨[], fun _ _ => trivial, fun e d' rest hrest _ hstops => ?_⟩)
          fun e d' hread _ => ?_
        · exact ⟨_, _, linksFrom_of_stops _ 0 e (maxRounds - 1) (hrest ▸ hstops) (Nat.zero_le _), hrest⟩
        · have hdepth' := (Orderly.primary levels).balanced.depth_eq hd' hread
          exact mendable_linksFrom horderly hprospect hinner hwants 0 e maxRounds (by omega)
            (by omega) (Nat.zero_le _) (by decide) fun _ _ => by decide
      have hunary (d : Cursor) (hd : floor + 1 ≤ d.depth) (hd' : d.depth ≤ maxDepth) :
          Mendable False (Stops 1) (unary (postfixed (expressionWithin levels))) d :=
        (mendable_unaryFrom (by omega) hpostfixed maxRounds hd hd').mono id
          fun _ hstops => hstops.mono (Nat.zero_le 1)
      exact .nested (.chain levels BinaryOp.loosest)
        (fun hlt more => prospect_chain_of_depth levels BinaryOp.loosest _ more hlt)
        fun hlt => mendable_chain hunary BinaryOp.loosest (Nat.succ_le_succ hfloor) hlt

end Expressions

end Parser

end ReplDaemon.Script
