import ReplDaemon.Proofs.Number
import ReplDaemon.Proofs.Value.Spelled

/-!
# Texts of scalars

The text of a string, a character or an integer can be cut off in one way only from what stands behind it,
if that is read outside of strings and begins with a comma or a blank. A string may end in a backslash that
is not escaped, so where it ends is not seen from its text alone; it is decided by what stands behind it,
up to the end.
-/

namespace ReplDaemon.Value

open Number

/-- What may stand behind the text of a value: it is read outside of strings, and it begins with a comma
or a blank, if it does not end there. -/
structure Rest (t : List Char) : Prop where
  outside : ∀ p, Outside p t
  head : ∀ c ∈ t.head?, c = ',' ∨ c = ' '

theorem Rest.head_ne {t : List Char} (h : Rest t) {c : Char} (hc : c ≠ ',' ∧ c ≠ ' ') :
    t.head? ≠ some c := by
  intro hhead
  have hcase := h.head c hhead
  tauto

section Strings

/-- The inside of a string. -/
def stringBody (s : List Char) : List Char :=
  s.flatMap fun c => if c = '"' then ['\\', '"'] else [c]

theorem inside_stringBody (s : List Char) {t : List Char} (ht : Rest t) (p : Char) :
    Inside p (stringBody s ++ '"' :: t) := by
  induction s generalizing p with
  | nil => exact .closes (ht.head_ne (by decide)) (ht.outside _)
  | cons c cs ih =>
      by_cases hc : c = '"'
      · subst hc
        exact .char (by decide) (.mark (ih _))
      · simp only [stringBody, List.flatMap_cons, if_neg hc]
        exact .char hc (ih c)

/-- The first character of what is left of a string. -/
theorem head_stringBody (c : Char) (cs t : List Char) :
    (stringBody (c :: cs) ++ t).head? = some (if c = '"' then '\\' else c) := by
  by_cases hc : c = '"' <;> simp [stringBody, hc]

/-- A string that goes on behind a mark where another one ends: the rest of this one would be read outside
of strings and inside of one. -/
theorem stringBody_mark_ne (cs cs' : List Char) {t u : List Char} (ht : Rest t) (hu : Rest u) :
    '"' :: (stringBody cs ++ '"' :: t) ≠ stringBody cs' ++ '"' :: u := by
  intro h
  cases cs' with
  | nil =>
      have hu' : u = stringBody cs ++ '"' :: t := (List.cons.inj h).2.symm
      exact (hu.outside '"').not_inside (hu' ▸ inside_stringBody cs ht '"')
  | cons c cs' =>
      have hhead := head_stringBody c cs' ('"' :: u)
      rw [← h] at hhead
      by_cases hc : c = '"' <;> simp [hc] at hhead
      exact hc hhead.symm

/-- Strings with the same text and something behind it are the same. -/
theorem stringBody_cancel {s s' t u : List Char} (ht : Rest t) (hu : Rest u)
    (h : stringBody s ++ '"' :: t = stringBody s' ++ '"' :: u) : s = s' ∧ t = u := by
  induction s generalizing s' with
  | nil =>
      cases s' with
      | nil => simpa [stringBody] using h
      | cons c cs =>
          have hhead := head_stringBody c cs ('"' :: u)
          rw [← h] at hhead
          by_cases hc : c = '"' <;> simp [stringBody, hc] at hhead
          exact absurd hhead.symm hc
  | cons c cs ih =>
      cases s' with
      | nil =>
          have hhead := head_stringBody c cs ('"' :: t)
          rw [h] at hhead
          by_cases hc : c = '"' <;> simp [stringBody, hc] at hhead
          exact absurd hhead.symm hc
      | cons c' cs' =>
          by_cases hc : c = '"' <;> by_cases hc' : c' = '"' <;>
            simp only [stringBody, List.flatMap_cons, hc, hc', if_true, if_false, List.cons_append,
              List.nil_append, List.cons.injEq, true_and] at h
          · obtain ⟨rfl, rfl⟩ := ih h
            exact ⟨by rw [hc, hc'], rfl⟩
          · exact absurd h.2 (stringBody_mark_ne cs cs' ht hu)
          · exact absurd h.2.symm (stringBody_mark_ne cs' cs hu ht)
          · obtain ⟨rfl, rfl⟩ := ih h.2
            exact ⟨by rw [h.1], rfl⟩

end Strings

section Characters

/-- The code points of characters that are spelled out: the single mark, and all up to the blank. -/
def spelledOut : List Nat :=
  39 :: List.range 33

/-- How long the spelling of a character is can be seen from what stands behind the backslash. -/
theorem spelling_of_mem :
    ∀ n ∈ spelledOut, let spelling := (characterBody (.ofNat n)).toList
      spelling.head? = some '\\' ∧ '"' ∉ spelling ∧
        spelling.length = (if spelling[1]? = some 'x' then 4 else 2) ∧
        (spelling[1]? = some '\'' → spelling = ['\\', '\'']) := by
  decide +kernel

theorem spelling_injective :
    ∀ m ∈ spelledOut, ∀ n ∈ spelledOut,
      characterBody (.ofNat m) = characterBody (.ofNat n) → m = n := by
  decide +kernel

/-- A character that is not spelled out stands for itself. -/
theorem characterBody_of_not_mem {c : Char} (h : c.toNat ∉ spelledOut) :
    (characterBody c).toList = [c] := by
  have hlarge : 32 < c.toNat := by
    simp only [spelledOut, List.mem_cons, List.mem_range, not_or] at h
    omega
  unfold characterBody
  split
  case h_9 => simp [hlarge]
  all_goals exact absurd (by decide) h

theorem characterBody_cancel_of_mem {c d : Char} (hc : c.toNat ∈ spelledOut)
    (hd : d.toNat ∈ spelledOut) {t u : List Char}
    (h : (characterBody c).toList ++ t = (characterBody d).toList ++ u) : c = d ∧ t = u := by
  obtain ⟨-, -, hlength, -⟩ := spelling_of_mem _ hc
  obtain ⟨-, -, hlength', -⟩ := spelling_of_mem _ hd
  rw [Char.ofNat_toNat] at hlength hlength'
  have hsecond : (characterBody c).toList[1]? = (characterBody d).toList[1]? := by
    have hleft : ((characterBody c).toList ++ t)[1]? = (characterBody c).toList[1]? :=
      List.getElem?_append_left (by split at hlength <;> omega)
    rw [← hleft, h, List.getElem?_append_left (by split at hlength' <;> omega)]
  rw [hsecond, ← hlength'] at hlength
  obtain ⟨hbody, ht⟩ := List.append_inj h hlength
  have hcode := spelling_injective _ hc _ hd (by simpa using String.toList_inj.mp hbody)
  exact ⟨Char.toNat_inj.mp hcode, ht⟩

/-- A backslash between single marks is not taken for the spelling of a single mark, as no single mark
stands behind the text of a value. -/
theorem characterBody_ne {c d : Char} (hc : c.toNat ∈ spelledOut) (hd : d.toNat ∉ spelledOut)
    (t : List Char) {u : List Char} (hu : Rest u) :
    (characterBody c).toList ++ '\'' :: t ≠ (characterBody d).toList ++ '\'' :: u := by
  intro h
  obtain ⟨hhead, -, hlength, hsingle⟩ := spelling_of_mem _ hc
  rw [Char.ofNat_toNat] at hhead hlength hsingle
  rw [characterBody_of_not_mem hd] at h
  rcases hbody : (characterBody c).toList with _ | ⟨a, _ | ⟨b, rest⟩⟩
  · simp [hbody] at hhead
  · simp [hbody] at hlength
  · simp only [hbody, List.cons_append, List.nil_append, List.cons.injEq] at h
    obtain ⟨-, rfl, hrest⟩ := h
    have hspelling : a = '\\' ∧ rest = [] := by simpa [hbody] using hsingle (by simp [hbody])
    have hsecond : u.head? = some '\'' := by simp [← hrest, hspelling.2]
    exact hu.head_ne (by decide) hsecond

theorem characterBody_cancel {c d : Char} {t u : List Char} (ht : Rest t) (hu : Rest u)
    (h : (characterBody c).toList ++ '\'' :: t = (characterBody d).toList ++ '\'' :: u) :
    c = d ∧ t = u := by
  by_cases hc : c.toNat ∈ spelledOut <;> by_cases hd : d.toNat ∈ spelledOut
  · simpa using characterBody_cancel_of_mem hc hd h
  · exact absurd h (characterBody_ne hc hd t hu)
  · exact absurd h.symm (characterBody_ne hd hc u ht)
  · simpa [characterBody_of_not_mem hc, characterBody_of_not_mem hd] using h

end Characters

section Integers

theorem digits_cancel {m n : Nat} {t u : List Char} (ht : Rest t) (hu : Rest u)
    (h : Nat.toDigits 10 m ++ t = Nat.toDigits 10 n ++ u) : m = n ∧ t = u := by
  have hspan {n : Nat} {t : List Char} (ht : Rest t) :
      (Nat.toDigits 10 n ++ t).takeWhile Char.isDigit = Nat.toDigits 10 n := by
    have hrest : t.takeWhile Char.isDigit = [] := by
      cases t with
      | nil => rfl
      | cons c t => rcases ht.head c rfl with rfl | rfl <;> rfl
    rw [List.takeWhile_append_of_pos (isDigit_of_mem n), hrest, List.append_nil]
  have hdigits : Nat.toDigits 10 m = Nat.toDigits 10 n := by rw [← hspan ht, h, hspan hu]
  have hnumber := congrArg (Nat.ofDigitChars 10 · 0) hdigits
  refine ⟨by simpa using hnumber, ?_⟩
  rw [hdigits] at h
  exact List.append_cancel_left h

/-- No number begins with a sign. -/
theorem digits_ne_sign (n : Nat) (t u : List Char) : Nat.toDigits 10 n ++ t ≠ '-' :: u := by
  intro h
  obtain ⟨c, cs, hdigits, hc⟩ := exists_digit n
  simp only [hdigits, List.cons_append, List.cons.injEq] at h
  exact absurd (h.1 ▸ hc) (by decide)

theorem integer_cancel {i j : Int} {t u : List Char} (ht : Rest t) (hu : Rest u)
    (h : (toString i).toList ++ t = (toString j).toList ++ u) : i = j ∧ t = u := by
  cases i with
  | ofNat m =>
      cases j with
      | ofNat n =>
          simp only [toList_toString_ofNat] at h
          simpa using digits_cancel ht hu h
      | negSucc n =>
          simp only [toList_toString_ofNat, toList_toString_negSucc, List.cons_append] at h
          exact absurd h (digits_ne_sign m _ _)
  | negSucc m =>
      cases j with
      | ofNat n =>
          simp only [toList_toString_ofNat, toList_toString_negSucc, List.cons_append] at h
          exact absurd h.symm (digits_ne_sign n _ _)
      | negSucc n =>
          simp only [toList_toString_negSucc, List.cons_append, List.cons.injEq, true_and] at h
          simpa using digits_cancel ht hu h

end Integers

end ReplDaemon.Value
