import ReplDaemon.Proofs.Script.Program.Expressions

/-!
# Every expression is readable

The kinds of expressions one by one, and with them all expressions: each is read back from its tokens
in every place, with the levels that it needs.
-/

namespace ReplDaemon.Script

open ReplDaemon.Script.Parser

theorem Opens.starts {primary : Prop} {tokens : List Token} (h : Opens primary tokens) {d : Delimiter}
    (hclose : (Token.delimiter d).opens = false) : Starts d tokens := by
  obtain ⟨t, rest, htokens, hopens, _⟩ := h
  refine ⟨t, rest, htokens, ?_⟩
  rintro rfl
  rw [hclose] at hopens
  cases hopens

namespace Expr

/-- Expressions with commas between them are read up to the closing delimiter. -/
theorem reads_items {floor levels : Nat} (hlevels : maxDepth < floor + levels) {items : List Expr}
    (h : ∀ e ∈ items, e.ReadsWhole) (close : Delimiter) (hcomma : close ≠ .comma)
    (hclose : (Token.delimiter close).opens = false) :
    Reads floor (Parser.items (expressionWithin levels) close)
      (commaSeparated (itemTokens items) ++ [.delimiter close]) (fun _ => True) (itemNeed items)
      items := by
  have hstops (rest : List Token) : Stops topLevel (.delimiter close :: rest) := by
    refine .delimiter _ _ ?_ ?_
    · rintro rfl
      cases hclose
    · rintro rfl
      cases hclose
  rw [itemTokens_eq, itemNeed_eq]
  exact Parser.reads_items (fun _ => .delimiter _ _ (by decide) (by decide)) hstops hcomma
    (fun e _ => e.opens_tokens.starts hclose) fun e he => h e he floor levels hlevels

/-- An entry of a map is read. -/
theorem reads_entry {floor levels : Nat} (hlevels : maxDepth < floor + levels) {key value : Expr}
    (hkey : key.ReadsWhole) (hvalue : value.ReadsWhole) :
    Reads floor (entry (expressionWithin levels)) (key.tokens ++ .delimiter .colon :: value.tokens)
      (Stops topLevel) (max (key.need + 1) (value.need + 1)) (key, value) := by
  intro c rest hfloor hdepth htokens hstops
  rw [List.append_assoc] at htokens
  have hreadKey := hkey floor levels hlevels c _ hfloor hdepth htokens
    (.delimiter _ _ (by decide) (by decide))
  have hrest (d : Cursor) (_ : c.depth + (key.need + 1) ≤ maxDepth)
      (hd : d.tokens = .delimiter .colon :: value.tokens ++ rest) (hdown : d.depth = c.depth) :
      Becomes (do
        expect .colon
        let value ← expressionWithin levels
        return (key, value)) d (pure (key, value)) rest c.depth (c.depth + (value.need + 1)) := by
    apply becomes_expect hd
    intro d' hd' hdown'
    have hreadValue := hvalue floor levels hlevels d' rest (by omega) (by omega) hd' hstops
    exact .reaching (hreadValue.seq fun e _ he hup => .refl he (by omega)) (by omega)
  exact .reaching (hreadKey.seq hrest) (by omega)

/-- The entries of a map are read up to its end. -/
theorem reads_entries {floor levels : Nat} (hlevels : maxDepth < floor + levels)
    {entries : List (Expr × Expr)}
    (h : ∀ entry ∈ entries, entry.1.ReadsWhole ∧ entry.2.ReadsWhole) :
    Reads floor (Parser.items (entry (expressionWithin levels)) .closeBrace)
      (commaSeparated (entryTokens entries) ++ [.delimiter .closeBrace]) (fun _ => True)
      (entryNeed entries) entries := by
  rw [entryTokens_eq, entryNeed_eq]
  exact Parser.reads_items (fun _ => .delimiter _ _ (by decide) (by decide))
    (fun _ => .delimiter _ _ (by decide) (by decide)) (by decide)
    (fun entry _ => (entry.1.opens_tokens.append _).starts rfl)
    fun entry he => reads_entry hlevels (h entry he).1 (h entry he).2

theorem readsIndices_literal (l : Literal) : (literal l).ReadsIndices := by
  intro floor levels hlevels c rest hfloor hdepth htokens
  rw [postfixed_eq, primary, bind_assoc]
  apply becomes_next htokens
  intro t d ht hd hdown
  rw [ht]
  have hdone : Becomes (linksFrom (expressionWithin levels) 0 (literal l) maxRounds) d
      (linksFrom (expressionWithin levels) 0 (literal l) maxRounds) rest c.depth c.depth :=
    .reaching (.refl hd hdown) (by omega)
  rcases l with _ | (_ | _) | _ | _ | _ | _ <;> exact hdone

theorem readsIndices_var (name : String) : (var name).ReadsIndices := by
  intro floor levels hlevels c rest hfloor hdepth htokens
  rw [postfixed_eq, primary, bind_assoc]
  apply becomes_next htokens
  intro t d ht hd hdown
  rw [ht]
  have hdone : Becomes (linksFrom (expressionWithin levels) 0 (var name) maxRounds) d
      (linksFrom (expressionWithin levels) 0 (var name) maxRounds) rest c.depth c.depth :=
    .reaching (.refl hd hdown) (by omega)
  exact hdone

theorem readsIndices_list {items : List Expr} (h : ∀ e ∈ items, e.ReadsWhole) :
    (list items).ReadsIndices := by
  intro floor levels hlevels c rest hfloor hdepth htokens
  rw [postfixed_eq, primary, bind_assoc]
  apply becomes_next htokens
  intro t d ht hd hdown
  have hread := reads_items hlevels h .closeBracket (by decide) rfl d rest (by omega) (by omega) hd
    trivial
  rw [hdown] at hread
  rw [ht]
  have hlist : Becomes (do
      return list (← Parser.items (expressionWithin levels) .closeBracket)) d (pure (list items)) rest
      c.depth (c.depth + itemNeed items) := hread.bind _
  exact hlist.bind _

theorem readsIndices_map {entries : List (Expr × Expr)}
    (h : ∀ entry ∈ entries, entry.1.ReadsWhole ∧ entry.2.ReadsWhole) :
    (map entries).ReadsIndices := by
  intro floor levels hlevels c rest hfloor hdepth htokens
  rw [postfixed_eq, primary, bind_assoc]
  apply becomes_next htokens
  intro t d ht hd hdown
  have hread := reads_entries hlevels h d rest (by omega) (by omega) hd trivial
  rw [hdown] at hread
  rw [ht]
  have hmap : Becomes (do
      return map (← Parser.items (entry (expressionWithin levels)) .closeBrace)) d (pure (map entries))
      rest c.depth (c.depth + entryNeed entries) := hread.bind _
  exact hmap.bind _

theorem readsIndices_call (name : String) {arguments : List Expr}
    (h : ∀ e ∈ arguments, e.ReadsWhole) : (call name arguments).ReadsIndices := by
  intro floor levels hlevels c rest hfloor hdepth htokens
  rw [postfixed_eq, primary, bind_assoc]
  apply becomes_next htokens
  intro t d ht hd hdown
  have hread := reads_items hlevels h .closeParen (by decide) rfl
  have hcall := becomes_call hread 0 name (maxRounds - 1) (Nat.le_trans hfloor (Nat.le_of_eq hdown.symm))
    (by omega) hd
  rw [hdown] at hcall
  rw [ht]
  exact hcall

theorem readsIndices_index {base position : Expr} (hbase : base.ReadsIndices)
    (hposition : position.ReadsWhole) : (index base position).ReadsIndices := by
  intro floor levels hlevels c rest hfloor hdepth htokens
  have hfits : (index base position).level ≤ 0 := Nat.le_refl 0
  rw [tokensIn, enclosed, if_pos hfits, tokens, List.append_assoc, List.append_assoc] at htokens
  rw [needIn, needWithin, if_pos hfits, need]
  have hread := hbase floor levels hlevels c _ hfloor hdepth htokens
  have hindex (d : Cursor) (hle : c.depth + base.needIn 0 ≤ maxDepth)
      (hd : d.tokens =
        .delimiter .openBracket :: position.tokens ++ .delimiter .closeBracket :: rest)
      (hdeep : d.depth = c.depth + base.indices) :
      Becomes (linksFrom (expressionWithin levels) base.indices base (maxRounds - base.rounds)) d
        (linksFrom (expressionWithin levels) (base.indices + 1) (.index base position)
          (maxRounds - (base.rounds + 1)))
        rest (c.depth + (base.indices + 1)) (c.depth + (base.indices + 1) + (position.need + 1)) := by
    have hrounds := base.rounds_le
    have hindices := base.indices_le_needIn
    rw [maxRounds_sub (by omega : base.rounds ≤ maxDepth + 1), ← Nat.add_assoc, ← hdeep]
    exact becomes_index (hposition floor levels hlevels) _ base _ (by omega) (by omega) hd
  exact .reaching (hread.trans hindex) (by simp only [needIn]; omega)

/-- Parentheses take what is not tight enough. -/
theorem ReadsWhole.readsIndices {e : Expr} (h : e.ReadsWhole) (hlevel : 0 < e.level) :
    e.ReadsIndices := by
  intro floor levels hlevels c rest hfloor hdepth htokens
  have hnofit : ¬ e.level ≤ 0 := Nat.not_le.mpr hlevel
  have hindices : e.indices = 0 := by
    cases e with
    | index base position => exact absurd hlevel (Nat.lt_irrefl 0)
    | _ => rfl
  have hrounds : e.rounds = 0 := by
    cases e with
    | index base position => exact absurd hlevel (Nat.lt_irrefl 0)
    | call name arguments => exact absurd hlevel (Nat.lt_irrefl 0)
    | _ => rfl
  rw [tokensIn, enclosed, if_neg hnofit, List.append_assoc] at htokens
  rw [needIn, needWithin, if_neg hnofit, hindices, hrounds, postfixed_eq, primary, bind_assoc]
  apply becomes_next htokens
  intro t d ht hd hdown
  rw [ht]
  have hread := h floor levels hlevels d (.delimiter .closeParen :: rest) (by omega) (by omega) hd
    (.delimiter _ _ (by decide) (by decide))
  have hclose (d' : Cursor) (_ : d.depth + (e.need + 1) ≤ maxDepth)
      (hd' : d'.tokens = .delimiter .closeParen :: rest) (hdown' : d'.depth = d.depth) :
      Becomes (do
        expect .closeParen
        return e) d' (pure e) rest c.depth 0 :=
    becomes_expect hd' fun f hf hup => .refl hf (by omega)
  have hparens : Becomes (do
      let e ← expressionWithin levels
      expect .closeParen
      return e) d (pure e) rest c.depth (c.depth + (e.need + 1)) :=
    .reaching (hread.seq hclose) (by omega)
  exact hparens.bind _

/-- An expression is readable if it is read in every place. -/
structure Readable (e : Expr) : Prop where
  whole : e.ReadsWhole
  indices : e.ReadsIndices
  operand : e.ReadsOperand
  chain : ∀ tighter : Nat, e.ReadsChain tighter
  within : ∀ allowed : Nat, e.ReadsIn allowed

/-- It is enough to read an expression as a whole, as a base, as an operand and, if it is a chain, as a
part of a longer one. -/
theorem Readable.of_parts {e : Expr} (hwhole : e.ReadsWhole) (hindices : e.ReadsIndices)
    (hoperand : e.ReadsOperand) (hchain : ∀ tighter, e.level = tighter + 2 → e.ReadsChain tighter) :
    e.Readable := by
  have hreads (tighter : Nat) : e.ReadsIn (tighter + 1) ∧ e.ReadsChain tighter := by
    have chain (tighter : Nat) (h : e.ReadsIn (tighter + 1)) : e.ReadsChain tighter := by
      by_cases hlevel : e.level = tighter + 2
      · exact hchain tighter hlevel
      · exact h.readsChain hlevel
    induction tighter with
    | zero => exact ⟨hoperand.readsIn, chain 0 hoperand.readsIn⟩
    | succ tighter ih => exact ⟨ih.2.readsIn, chain (tighter + 1) ih.2.readsIn⟩
  refine ⟨hwhole, hindices, hoperand, fun tighter => (hreads tighter).2, fun allowed => ?_⟩
  cases allowed with
  | zero => exact hindices.readsIn
  | succ tighter => exact (hreads tighter).1

theorem ReadsIndices.readable {e : Expr} (h : e.ReadsIndices) (hlevel : e.level = 0) :
    e.Readable := by
  have hoperand : e.ReadsOperand := h.readsIn.readsOperand (by omega)
  have hwhole : e.ReadsWhole :=
    (hoperand.readsIn.of_le (by omega) (by omega) (by decide)).readsWhole
  exact .of_parts hwhole h hoperand fun tighter hlevel' => by omega

theorem Readable.unary {e : Expr} (h : e.Readable) (op : UnaryOp) :
    (Expr.unary op e).Readable := by
  have hoperand : (Expr.unary op e).ReadsOperand := h.operand.unary op
  have hwhole : (Expr.unary op e).ReadsWhole :=
    (hoperand.readsIn.of_le (by decide) (Nat.le_refl 1) (by decide)).readsWhole
  exact .of_parts hwhole (hwhole.readsIndices (Nat.succ_pos 0)) hoperand
    fun tighter hlevel => by cases hlevel

theorem Readable.binary {lhs rhs : Expr} (hlhs : lhs.Readable) (hrhs : rhs.Readable)
    (op : BinaryOp) : (Expr.binary op lhs rhs).Readable := by
  obtain ⟨tighter, hop⟩ : ∃ tighter, op.looseness = tighter + 1 :=
    ⟨op.looseness - 1, by have h := op.looseness_pos; omega⟩
  have hlevel : (Expr.binary op lhs rhs).level = tighter + 2 := congrArg (· + 1) hop
  have hchain : (Expr.binary op lhs rhs).ReadsChain tighter :=
    (hlhs.chain tighter).binary (hrhs.within (tighter + 1)) hop
  have htop : tighter + 2 ≤ topLevel := hlevel ▸ level_le _
  have hwhole : (Expr.binary op lhs rhs).ReadsWhole :=
    (hchain.readsIn.of_le (by omega) (by omega) htop).readsWhole
  have hindices : (Expr.binary op lhs rhs).ReadsIndices := hwhole.readsIndices (by omega)
  refine .of_parts hwhole hindices (hindices.readsIn.readsOperand (by omega)) fun other hother => ?_
  obtain rfl : tighter = other := by omega
  exact hchain

theorem sizeOf_entry_lt {key value : Expr} {entries : List (Expr × Expr)}
    (h : (key, value) ∈ entries) :
    sizeOf key < 1 + sizeOf entries ∧ sizeOf value < 1 + sizeOf entries := by
  have hlt := List.sizeOf_lt_of_mem h
  simp only [Prod.mk.sizeOf_spec] at hlt
  omega

/-- Every expression is readable. -/
theorem readable : (e : Expr) → e.Readable
  | .literal l => (readsIndices_literal l).readable rfl
  | .var name => (readsIndices_var name).readable rfl
  | .list items => (readsIndices_list fun e _ => (readable e).whole).readable rfl
  | .map entries =>
    (readsIndices_map fun (key, value) h =>
      have _hkey := (sizeOf_entry_lt h).1
      have _hvalue := (sizeOf_entry_lt h).2
      ⟨(readable key).whole, (readable value).whole⟩).readable rfl
  | .unary op e => (readable e).unary op
  | .binary op lhs rhs => (readable lhs).binary (readable rhs) op
  | .call name arguments => (readsIndices_call name fun e _ => (readable e).whole).readable rfl
  | .index base position =>
    (readsIndices_index (readable base).indices (readable position).whole).readable rfl
termination_by e => sizeOf e

end Expr

end ReplDaemon.Script
