import Mathlib.Tactic
import ReplDaemon.Script.Token.Lexer

/-!
# Single tokens

A token takes at least one character and lies within the text that it is read from, and what it is does
not depend on anything behind the end of its line.
-/

namespace ReplDaemon.Script

theorem isDigit_newline : Char.isDigit '\n' = false := rfl

theorem isWordPart_newline : isWordPart '\n' = false := by decide +kernel

theorem takeWhile_newline {p : Char → Bool} (h : p '\n' = false) (cs behind : List Char) :
    (cs ++ '\n' :: behind).takeWhile p = cs.takeWhile p := by
  induction cs with
  | nil => rw [List.nil_append, List.takeWhile_cons, h]; rfl
  | cons c cs ih => rw [List.cons_append, List.takeWhile_cons, List.takeWhile_cons, ih]

theorem dropWhile_newline {p : Char → Bool} (h : p '\n' = false) (cs behind : List Char) :
    (cs ++ '\n' :: behind).dropWhile p = cs.dropWhile p ++ '\n' :: behind := by
  induction cs with
  | nil => rw [List.nil_append, List.dropWhile_cons, h]; rfl
  | cons c cs ih =>
      rw [List.cons_append, List.dropWhile_cons, List.dropWhile_cons, ih]
      split <;> rfl

/-- A token with at least one character, within so many characters. -/
def Lexeme.Within (length : Nat) (l : Lexeme) : Prop :=
  0 < l.2 ∧ l.2 ≤ length

theorem scanInteger_within {digits : List Char} {l : Lexeme} (hdigits : digits ≠ [])
    (h : scanNumber.integer digits = some l) : l.Within digits.length := by
  rw [scanNumber.integer] at h
  split at h
  · cases h
    exact ⟨List.length_pos_iff.mpr hdigits, Nat.le_refl _⟩
  · cases h

theorem scanNumber_within {c : Char} {cs : List Char} {l : Lexeme} (hc : c.isDigit = true)
    (h : scanNumber (c :: cs) = some l) : l.Within (c :: cs).length := by
  have hwhole : (c :: cs).takeWhile Char.isDigit ≠ [] := by simp [hc]
  have hlength : ((c :: cs).takeWhile Char.isDigit).length +
      ((c :: cs).dropWhile Char.isDigit).length = (c :: cs).length := by
    rw [← List.length_append, List.takeWhile_append_dropWhile]
  have hinteger (hscan : scanNumber.integer ((c :: cs).takeWhile Char.isDigit) = some l) :
      l.Within (c :: cs).length := by
    obtain ⟨hpos, hle⟩ := scanInteger_within hwhole hscan
    exact ⟨hpos, by omega⟩
  rw [scanNumber] at h
  dsimp only at h
  split at h
  · next rest hrest =>
      split at h
      · exact hinteger h
      · cases h
        have hfraction := (List.takeWhile_prefix Char.isDigit (l := rest)).length_le
        rw [hrest, List.length_cons] at hlength
        exact ⟨by dsimp only; omega, by dsimp only; omega⟩
  · exact hinteger h

theorem scanText_within {content : String} {taken : Nat} {cs : List Char} {l : Lexeme}
    (h : scanText content taken cs = some l) : taken < l.2 ∧ l.2 ≤ taken + cs.length := by
  induction content, taken, cs using scanText.induct with
  | case1 content taken rest =>
      cases h
      simp
  | case2 content taken e rest c hescaped ih =>
      rw [scanText, hescaped] at h
      obtain ⟨hlt, hle⟩ := ih h
      simp only [List.length_cons]
      omega
  | case3 content taken e rest hescaped =>
      rw [scanText, hescaped] at h
      cases h
  | case4 content taken c rest hclose hescape hbad =>
      rw [scanText.eq_3 _ _ _ _ hclose hescape, if_pos hbad] at h
      cases h
  | case5 content taken c rest hclose hescape hbad ih =>
      rw [scanText.eq_3 _ _ _ _ hclose hescape, if_neg hbad] at h
      obtain ⟨hlt, hle⟩ := ih h
      simp only [List.length_cons]
      omega
  | case6 => cases h

theorem scanCharacter_within {cs : List Char} {l : Lexeme} (h : scanCharacter cs = some l) :
    0 < l.2 ∧ l.2 ≤ cs.length + 1 := by
  unfold scanCharacter at h
  split at h
  · obtain ⟨c, -, rfl⟩ := Option.map_eq_some_iff.mp h
    simp
  · split at h
    · cases h
    · cases h
      simp
  · cases h

theorem isWordPart_of_isWordStart {c : Char} (h : isWordStart c = true) : isWordPart c = true := by
  simp only [isWordStart, isWordPart, Bool.or_eq_true] at h ⊢
  tauto

theorem scanWord_snd (cs : List Char) : (scanWord cs).2 = (cs.takeWhile isWordPart).length := by
  unfold scanWord
  dsimp only
  split <;> rfl

theorem scanSymbol_within {cs : List Char} {l : Lexeme} (h : scanSymbol cs = some l) :
    l.Within cs.length := by
  unfold scanSymbol at h
  split at h <;> cases h <;> simp [Lexeme.Within]

/-- A token lies within the text. -/
theorem scanToken_within {c : Char} {cs : List Char} {l : Lexeme} (h : scanToken c cs = some l) :
    l.Within (cs.length + 1) := by
  unfold scanToken at h
  split at h
  · next hdigit => exact scanNumber_within hdigit h
  · split at h
    · obtain ⟨hlt, hle⟩ := scanText_within h
      exact ⟨Nat.zero_lt_of_lt hlt, Nat.add_comm 1 _ ▸ hle⟩
    · split at h
      · exact scanCharacter_within h
      · split at h
        · next hstart =>
            cases h
            rw [Lexeme.Within, scanWord_snd]
            refine ⟨?_, (List.takeWhile_prefix isWordPart (l := c :: cs)).length_le⟩
            rw [List.takeWhile_cons, isWordPart_of_isWordStart hstart]
            exact Nat.succ_pos _
        · exact scanSymbol_within h

theorem scanNumber_newline (cs behind : List Char) :
    scanNumber (cs ++ '\n' :: behind) = scanNumber cs := by
  unfold scanNumber
  rw [takeWhile_newline isDigit_newline, dropWhile_newline isDigit_newline]
  rcases hrest : cs.dropWhile Char.isDigit with _ | ⟨d, rest⟩
  · rfl
  · rw [List.cons_append]
    by_cases hdot : d = '.'
    · subst hdot
      simp only [takeWhile_newline isDigit_newline]
    · split
      · next heq => exact absurd (List.cons.inj heq).1 hdot
      · split
        · next heq => exact absurd (List.cons.inj heq).1 hdot
        · rfl

theorem scanText_newline (content : String) (taken : Nat) (cs behind : List Char) :
    scanText content taken (cs ++ '\n' :: behind) = scanText content taken cs := by
  induction content, taken, cs using scanText.induct with
  | case1 content taken rest => rfl
  | case2 content taken e rest c hescaped ih =>
      rw [List.cons_append, List.cons_append, scanText, scanText, hescaped]
      exact ih
  | case3 content taken e rest hescaped =>
      rw [List.cons_append, List.cons_append, scanText, scanText, hescaped]
  | case4 content taken c rest hclose hescape hbad =>
      rw [scanText.eq_3 _ _ _ _ hclose hescape, if_pos hbad, List.cons_append]
      by_cases hbackslash : c = '\\'
      · subst hbackslash
        cases rest with
        | nil => rfl
        | cons e rest => exact absurd rfl (hescape e rest rfl)
      · rw [scanText.eq_3 _ _ _ _ hclose fun e more h => absurd h hbackslash, if_pos hbad]
  | case5 content taken c rest hclose hescape hbad ih =>
      have hbackslash : c ≠ '\\' := fun h => hbad (by simp [h])
      rw [scanText.eq_3 _ _ _ _ hclose hescape, if_neg hbad, List.cons_append,
        scanText.eq_3 _ _ _ _ hclose fun e more h => absurd h hbackslash, if_neg hbad]
      exact ih
  | case6 content taken => rfl

theorem scanCharacter_cons_cons (c d : Char) (rest : List Char) :
    scanCharacter (c :: d :: rest) =
      if c = '\\' ∧ rest.head? = some '\'' then (escaped? d).map fun c => (.char c, 4)
      else if d = '\'' ∧ c ≠ '\\' ∧ c ≠ '\'' ∧ c ≠ '\n' then some (.char c, 3)
      else none := by
  by_cases hescape : c = '\\' ∧ rest.head? = some '\''
  · obtain ⟨rfl, hhead⟩ := hescape
    obtain ⟨behind, rfl⟩ := List.head?_eq_some_iff.mp hhead
    rw [if_pos ⟨rfl, hhead⟩]
    rfl
  · have hnot : ∀ tail, c = '\\' → rest = '\'' :: tail → False := by
      rintro tail rfl rfl
      exact hescape ⟨rfl, rfl⟩
    rw [if_neg hescape]
    by_cases hclose : d = '\''
    · subst hclose
      rw [scanCharacter.eq_2 _ _ hnot]
      by_cases hgood : c ≠ '\\' ∧ c ≠ '\'' ∧ c ≠ '\n'
      · rw [if_neg (by simpa [and_assoc] using hgood), if_pos ⟨rfl, hgood⟩]
      · rw [if_pos (by grind), if_neg fun h => hgood h.2]
    · rw [if_neg fun h => hclose h.1, scanCharacter.eq_3]
      · rintro e tail h
        cases h
        exact hnot _ rfl rfl
      · rintro e tail h
        cases h
        exact hclose rfl

theorem scanCharacter_newline (cs behind : List Char) :
    scanCharacter (cs ++ '\n' :: behind) = scanCharacter cs := by
  rcases cs with _ | ⟨c, _ | ⟨d, _ | ⟨e, rest⟩⟩⟩
  · cases behind with
    | nil => rfl
    | cons d rest =>
        rw [List.nil_append, scanCharacter_cons_cons, if_neg (by simp), if_neg (by simp)]
        rfl
  · rw [List.cons_append, List.nil_append, scanCharacter_cons_cons, ite_eq_right_iff.mpr]
    · rw [if_neg (by simp)]
      simp [scanCharacter]
    · rintro ⟨rfl, -⟩
      rw [if_neg (by simp)]
      rfl
  · have hnil : ¬ (c = '\\' ∧ ([] : List Char).head? = some '\'') := by simp
    have hcons : ¬ (c = '\\' ∧ ([] ++ '\n' :: behind).head? = some '\'') := by simp
    rw [List.cons_append, List.cons_append, scanCharacter_cons_cons, scanCharacter_cons_cons,
      if_neg hnil, if_neg hcons]
  · rw [List.cons_append, List.cons_append, scanCharacter_cons_cons, scanCharacter_cons_cons]
    rfl

/-- A symbol is known from its first two characters. -/
theorem scanSymbol_congr {c : Char} {rest rest' : List Char} {l : Lexeme}
    (hhead : ∀ d, d ≠ '\n' → (rest.head? = some d ↔ rest'.head? = some d))
    (h : scanSymbol (c :: rest) = some l) : scanSymbol (c :: rest') = some l := by
  have hpair (d : Char) (hd : d ≠ '\n') (tail : List Char) (hrest : rest = d :: tail) :
      ∃ tail', rest' = d :: tail' :=
    List.head?_eq_some_iff.mp ((hhead d hd).mp (hrest ▸ rfl))
  have hsingle (d : Char) (hd : d ≠ '\n') (hrest : ∀ tail, rest = d :: tail → False)
      (tail : List Char) (hrest' : rest' = d :: tail) : False := by
    obtain ⟨tail, htail⟩ := List.head?_eq_some_iff.mp ((hhead d hd).mpr (hrest' ▸ rfl))
    exact hrest tail htail
  unfold scanSymbol at h
  split at h <;> rename_i heq <;> cases h <;> cases heq
  case h_1 | h_2 | h_3 | h_4 | h_5 | h_6 | h_7 =>
    obtain ⟨tail', rfl⟩ := hpair _ (by decide) _ rfl
    rfl
  case h_8 | h_9 | h_15 | h_16 =>
    have hnot := hsingle '=' (by decide) (by assumption)
    rw [scanSymbol]
    exact hnot
  all_goals rfl

theorem scanSymbol_newline (c : Char) (cs behind : List Char) :
    scanSymbol (c :: cs ++ '\n' :: behind) = scanSymbol (c :: cs) := by
  have hhead (d : Char) (hd : d ≠ '\n') :
      (cs ++ '\n' :: behind).head? = some d ↔ cs.head? = some d := by
    cases cs with
    | nil => simp [hd.symm]
    | cons e rest => rfl
  refine Option.ext fun l => ⟨scanSymbol_congr hhead, scanSymbol_congr fun d hd => (hhead d hd).symm⟩

/-- No token reaches over the end of its line. -/
theorem scanToken_newline (c : Char) (cs behind : List Char) :
    scanToken c (cs ++ '\n' :: behind) = scanToken c cs := by
  have hword : scanWord (c :: cs ++ '\n' :: behind) = scanWord (c :: cs) := by
    rw [scanWord, scanWord, takeWhile_newline isWordPart_newline]
  unfold scanToken
  rw [← List.cons_append, scanNumber_newline, scanText_newline, scanCharacter_newline, hword,
    scanSymbol_newline]

end ReplDaemon.Script
