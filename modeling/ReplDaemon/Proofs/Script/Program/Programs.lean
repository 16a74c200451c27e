import ReplDaemon.Proofs.Script.Program.Statements

/-!
# Reading programs

Blocks and whole programs are read back from their tokens, with as many levels as they need. A program
that needs too many is rejected as nested too deep, and for no other reason.
-/

namespace ReplDaemon.Script

open ReplDaemon.Script.Parser

namespace Stmt

theorem noElse_allTokens (body : List Stmt) {rest : List Token} (h : NoElse rest) :
    NoElse (allTokens body ++ rest) := by
  cases body with
  | nil => exact h
  | cons s body =>
      obtain ⟨t, tail, htokens, _, helse⟩ := s.exists_head
      rw [allTokens, htokens]
      intro he
      exact helse (Option.some.inj he)

/-- The statements of a block are read up to its closing brace. -/
theorem becomes_blockFrom {floor levels : Nat} (hlevels : maxDepth < floor + levels)
    {body : List Stmt} (hbody : ∀ s ∈ body, s.ReadsBack) (found : List Stmt)
    (rounds : List PlacedToken) {c : Cursor} {rest : List Token} (hfloor : floor ≤ c.depth)
    (hdepth : c.depth ≤ maxDepth)
    (htokens : c.tokens = allTokens body ++ .delimiter .closeBrace :: rest)
    (hrounds : c.tokens.length ≤ rounds.length) :
    Becomes (blockFrom (blockWithin levels) found rounds) c (pure (found.reverse ++ body)) rest
      c.depth (c.depth + allNeed body) := by
  induction body generalizing found rounds c with
  | nil =>
      cases rounds with
      | nil => simp [htokens] at hrounds
      | cons _ rounds =>
          rw [blockFrom]
          apply becomes_eat htokens
          intro d hd hdown
          rw [if_pos rfl, List.append_nil]
          exact .reaching (.refl hd hdown) (by rw [allNeed]; omega)
  | cons s body ih =>
      obtain ⟨t, tail, hhead, hbrace, _⟩ := s.exists_head
      rw [allTokens, List.append_assoc] at htokens
      have hcons : c.tokens =
          t :: (tail ++ (allTokens body ++ .delimiter .closeBrace :: rest)) := by
        rw [htokens, hhead]
        rfl
      cases rounds with
      | nil => simp [hcons] at hrounds
      | cons _ rounds =>
          have hopen : startsWith .closeBrace c.tokens = false := by
            rw [hcons]
            exact Starts.startsWith ⟨t, [], rfl, hbrace⟩ _
          rw [blockFrom]
          refine .after (eat_apply hopen) ?_
          simp only [Bool.false_eq_true, if_false]
          refine .after (peek_of_tokens hcons) ?_
          have hnoElse : NoElse (allTokens body ++ .delimiter .closeBrace :: rest) :=
            noElse_allTokens body (by simp [NoElse])
          have hread := hbody s List.mem_cons_self floor levels hlevels c _ hfloor hdepth htokens
            hnoElse
          have hrest (d : Cursor) (_ : c.depth + s.need ≤ maxDepth)
              (hd : d.tokens = allTokens body ++ .delimiter .closeBrace :: rest)
              (hdown : d.depth = c.depth) :
              Becomes (blockFrom (blockWithin levels) (s :: found) rounds) d
                (pure (found.reverse ++ s :: body)) rest c.depth (c.depth + allNeed body) := by
            have hlength : d.tokens.length ≤ rounds.length := by
              rw [hd]
              rw [hcons] at hrounds
              simp only [List.length_cons, List.length_append] at hrounds ⊢
              omega
            have hfrom := ih (fun u hu => hbody u (List.mem_cons_of_mem _ hu)) (s :: found) rounds
              (by omega) (by omega) hd hlength
            rw [List.reverse_cons, List.append_assoc, List.singleton_append, hdown] at hfrom
            exact hfrom
          exact .reaching (hread.seq hrest) (by rw [allNeed]; omega)

/-- A block of statements that are read is read. -/
theorem readsBlock {body : List Stmt} (hbody : ∀ s ∈ body, s.ReadsBack) : ReadsBlock body := by
  intro floor levels hlevels
  cases levels with
  | zero => exact .of_deep (by omega)
  | succ levels =>
      intro c rest hfloor hdepth htokens _
      rw [blockTokens, List.cons_append, List.append_assoc] at htokens
      rw [blockWithin]
      apply becomes_expect htokens
      intro d hd hdown
      have hinside : Reads (floor + 1) (do blockFrom (blockWithin levels) [] (← remaining))
          (allTokens body ++ [.delimiter .closeBrace]) (fun _ => True) (allNeed body) body := by
        intro e rest hfloor hdepth htokens _
        rw [List.append_assoc] at htokens
        have hremaining : remaining e = .ok (e.rest, e) := rfl
        exact .after hremaining (becomes_blockFrom (by omega) hbody [] e.rest hfloor hdepth htokens
          (Nat.le_of_eq (List.length_map _)))
      have hread := hinside.nested d rest (by omega) (by omega)
        (by rw [hd, List.append_assoc]) trivial
      rw [hdown] at hread
      exact hread

/-- Every statement is read back. -/
theorem readsBack : (s : Stmt) → s.ReadsBack
  | .declare name value => readsBack_declare name value
  | .assign target value => readsBack_assign target value
  | .ifThen condition _ => readsBack_ifThen condition (readsBlock fun s _ => readsBack s)
  | .ifElse condition _ _ =>
    readsBack_ifElse condition (readsBlock fun s _ => readsBack s)
      (readsBlock fun s _ => readsBack s)
  | .whileLoop condition _ => readsBack_whileLoop condition (readsBlock fun s _ => readsBack s)
  | .evaluate e => readsBack_evaluate e

end Stmt

namespace Program

theorem noElse_resultTokens (result : Option Expr) : NoElse (resultTokens result) := by
  cases result with
  | none => simp [NoElse, resultTokens]
  | some e =>
      obtain ⟨t, rest, htokens, hopens, _⟩ := e.opens_tokens
      rw [NoElse, resultTokens, Option.elim, htokens]
      rintro he
      cases Option.some.inj he
      cases hopens

/-- The result of a program is read where the tokens end. -/
theorem becomes_result (result : Option Expr) (found : List Stmt) (rounds : List PlacedToken)
    {c : Cursor} (hdepth : c.depth ≤ maxDepth) (htokens : c.tokens = resultTokens result)
    (hrounds : c.tokens.length ≤ rounds.length) :
    Becomes (programFrom found rounds) c (pure { statements := found.reverse, result }) [] c.depth
      (c.depth + resultNeed result) := by
  cases result with
  | none =>
      have hdone : Becomes (pure { statements := found.reverse, result := none }) c
          (pure { statements := found.reverse, result := none } : Parser Program) [] c.depth
          (c.depth + 0) := .reaching (.refl htokens rfl) (by omega)
      cases rounds with
      | nil => exact hdone
      | cons _ rounds =>
          have hpeek : peek c = .ok (none, c) := by
            rw [peek_apply, htokens]
            rfl
          rw [programFrom]
          exact .after hpeek hdone
  | some e =>
      obtain ⟨t, tail, hhead, _, _⟩ := e.opens_tokens
      have hcons : c.tokens = t :: tail := htokens.trans hhead
      cases rounds with
      | nil => simp [hcons] at hrounds
      | cons _ rounds =>
          rw [programFrom]
          refine .after (peek_of_tokens hcons) ?_
          have hend (start : Position) (d : Cursor) (hd : d.tokens = []) (hdown : d.depth = c.depth) :
              Becomes (afterExpression start e) d (pure (.evaluate e, true)) [] c.depth 0 := by
            have hpeek : peek d = .ok (none, d) := by
              rw [peek_apply, hd]
              rfl
            exact .after hpeek (.after (terminator_of_end hd) (.refl hd hdown))
          have hread := Stmt.becomes_expressionStatement block hdepth
            (htokens.trans (List.append_nil _).symm) (.nil _) hend
          have hread' : Becomes (statement block) c (pure (.evaluate e, true)) [] c.depth
              (c.depth + (e.need + 1)) := hread.reaching (by omega)
          exact hread'.bind _

/-- The statements of a program and its result are read up to the end. -/
theorem becomes_programFrom (statements : List Stmt) (result : Option Expr) (found : List Stmt)
    (rounds : List PlacedToken) {c : Cursor} (hdepth : c.depth ≤ maxDepth)
    (htokens : c.tokens = Stmt.allTokens statements ++ resultTokens result)
    (hrounds : c.tokens.length ≤ rounds.length) :
    Becomes (programFrom found rounds) c
      (pure { statements := found.reverse ++ statements, result }) [] c.depth
      (c.depth + max (Stmt.allNeed statements) (resultNeed result)) := by
  induction statements generalizing found rounds c with
  | nil =>
      rw [List.append_nil, Stmt.allNeed, Nat.zero_max]
      exact becomes_result result found rounds hdepth htokens hrounds
  | cons s statements ih =>
      obtain ⟨t, tail, hhead, _⟩ := s.exists_head
      rw [Stmt.allTokens, List.append_assoc] at htokens
      have hcons : c.tokens = t :: (tail ++ (Stmt.allTokens statements ++ resultTokens result)) := by
        rw [htokens, hhead]
        rfl
      cases rounds with
      | nil => simp [hcons] at hrounds
      | cons _ rounds =>
          rw [programFrom]
          refine .after (peek_of_tokens hcons) ?_
          have hread := s.readsBack 0 (maxDepth + 1) (by omega) c _ (Nat.zero_le _) hdepth htokens
            (Stmt.noElse_allTokens statements (noElse_resultTokens result))
          have hrest (d : Cursor) (_ : c.depth + s.need ≤ maxDepth)
              (hd : d.tokens = Stmt.allTokens statements ++ resultTokens result)
              (hdown : d.depth = c.depth) :
              Becomes (programFrom (s :: found) rounds) d
                (pure { statements := found.reverse ++ s :: statements, result }) [] c.depth
                (c.depth + max (Stmt.allNeed statements) (resultNeed result)) := by
            have hlength : d.tokens.length ≤ rounds.length := by
              rw [hd]
              rw [hcons] at hrounds
              simp only [List.length_cons, List.length_append] at hrounds ⊢
              omega
            have hfrom := ih (s :: found) rounds (by omega) hd hlength
            rw [List.reverse_cons, List.append_assoc, List.singleton_append, hdown] at hfrom
            exact hfrom
          refine .reaching (hread.seq fun d hle hd hdown => (?_ : Becomes _ d _ [] c.depth
            (c.depth + max (Stmt.allNeed statements) (resultNeed result))))
            (by rw [Stmt.allNeed]; omega)
          cases s <;> exact hrest d hle hd hdown

/-- Tokens that spell a program are read as this program if it does not need too many levels; else
they are rejected as nested too deep. -/
theorem ofTokens_of_tokens {tokens : List PlacedToken} {p : Program}
    (h : tokens.map (·.token) = p.tokens) :
    p.need ≤ maxDepth ∧ ofTokens tokens = .ok p ∨
      maxDepth < p.need ∧ ∃ position : Position, ofTokens tokens = .error (.tooDeep position) := by
  have hread := becomes_programFrom p.statements p.result [] tokens (c := .start tokens)
    (Nat.zero_le maxDepth) h (Nat.le_of_eq (List.length_map _))
  have hreach : (Cursor.start tokens).depth +
      max (Stmt.allNeed p.statements) (resultNeed p.result) = p.need := Nat.zero_add _
  rw [hreach] at hread
  have hrun : ofTokens tokens =
      (programFrom [] tokens (.start tokens)).map Prod.fst := rfl
  rcases hread with ⟨hle, d, heq, _⟩ | ⟨hlt, position, heq⟩
  · refine .inl ⟨hle, ?_⟩
    rw [hrun, heq]
    rfl
  · refine .inr ⟨hlt, position, ?_⟩
    rw [hrun, heq]
    rfl

end Program

end ReplDaemon.Script
