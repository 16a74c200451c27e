import ReplDaemon.Proofs.Number
import ReplDaemon.Proofs.Script.Token.Scan

/-!
# Tokens written down

Every token but a floating point number has one way to be written in a source: an integer in decimal, a
text or a character with the marks that need it behind a backslash, everything else as it is spelt. What
is written is read again, as long as white space or nothing stands behind it.
-/

namespace ReplDaemon.Script

/-- A character inside a literal: the line break, the mark that closes the literal and the backslash are
behind a backslash, everything else stands for itself. -/
def inLiteral (mark c : Char) : List Char :=
  if c = '\n' then ['\\', 'n'] else if c = mark ∨ c = '\\' then ['\\', c] else [c]

/-- How a token is written. -/
def Token.written : Token → List Char
  | .int i => (toString i.toInt).toList
  | .float x => (Number.floatText x).toList
  | .text s => '"' :: s.toList.flatMap (inLiteral '"') ++ ['"']
  | .char c => '\'' :: inLiteral '\'' c ++ ['\'']
  | .identifier name => name.toList
  | .keyword k => k.text.toList
  | .operator o => o.text.toList
  | .delimiter d => d.text.toList

/-- Whether characters make up a word. -/
def IsWord : List Char → Prop
  | [] => False
  | c :: cs => isWordStart c = true ∧ cs.all isWordPart = true

instance (cs : List Char) : Decidable (IsWord cs) :=
  match cs with
  | [] => .isFalse id
  | _ :: _ => inferInstanceAs (Decidable (_ ∧ _))

/-- Tokens that are read again as they are written: no floating point numbers, no signs, and no names
but words that are not reserved. -/
def Token.Writable : Token → Prop
  | .int i => 0 ≤ i.toInt
  | .float _ => False
  | .identifier name => IsWord name.toList ∧ ∀ k : Keyword, name ≠ k.text
  | _ => True

/-- Whether nothing or white space comes next. -/
def Apart : List Char → Prop
  | [] => True
  | c :: _ => Text.isBlank c = true

/-- The code points of white space. -/
def blankCodes : List Nat :=
  [9, 10, 11, 12, 13, 0x20, 0x85, 0xA0, 0x1680, 0x2000, 0x2001, 0x2002, 0x2003, 0x2004, 0x2005,
    0x2006, 0x2007, 0x2008, 0x2009, 0x200A, 0x2028, 0x2029, 0x202F, 0x205F, 0x3000]

theorem toNat_mem_blankCodes {c : Char} (h : Text.isBlank c = true) : c.toNat ∈ blankCodes := by
  simp only [Text.isBlank, Bool.or_eq_true, Bool.and_eq_true, decide_eq_true_eq, beq_iff_eq] at h
  simp only [blankCodes, List.mem_cons, List.not_mem_nil, or_false]
  omega

/-- What no code point of white space has, no white space has. -/
theorem eq_false_of_isBlank {p : Char → Bool} (hp : ∀ n ∈ blankCodes, p (Char.ofNat n) = false)
    {c : Char} (h : Text.isBlank c = true) : p c = false := by
  have hc := hp c.toNat (toNat_mem_blankCodes h)
  rwa [Char.ofNat_toNat] at hc

/-- No word holds white space. -/
theorem isWordPart_of_isBlank {c : Char} (h : Text.isBlank c = true) : isWordPart c = false :=
  eq_false_of_isBlank (by decide +kernel) h

/-- No word starts with a digit or a quotation mark. -/
theorem isWordStart_eq_false {c : Char} (h : c.isDigit = true ∨ c = '"' ∨ c = '\'') :
    isWordStart c = false := by
  rcases h with hdigit | rfl | rfl
  · have hdigits : ∀ n < 58, 48 ≤ n → isWordStart (Char.ofNat n) = false := by decide +kernel
    have hrange : 48 ≤ c.toNat ∧ c.toNat ≤ 57 := by
      simpa [Char.isDigit, UInt32.le_iff_toNat_le] using hdigit
    have hc := hdigits c.toNat (by omega) hrange.1
    rwa [Char.ofNat_toNat] at hc
  · decide
  · decide

/-- What white space lacks shows that a character is none. -/
theorem isBlank_eq_false {p : Char → Bool} (hp : ∀ c, Text.isBlank c = true → p c = false)
    {c : Char} (hc : p c = true) : Text.isBlank c = false := by
  by_contra hblank
  exact Bool.false_ne_true ((hp c (by simpa using hblank)).symm.trans hc)

namespace Apart

variable {behind : List Char}

/-- A run of characters ends where white space begins. -/
theorem span {p : Char → Bool} (hp : ∀ c, Text.isBlank c = true → p c = false) {cs : List Char}
    (hcs : ∀ c ∈ cs, p c = true) (h : Apart behind) :
    (cs ++ behind).takeWhile p = cs ∧ (cs ++ behind).dropWhile p = behind := by
  have hbehind : behind.takeWhile p = [] ∧ behind.dropWhile p = behind := by
    cases behind with
    | nil => simp
    | cons c rest => simp [hp c h]
  simp [List.takeWhile_append_of_pos hcs, List.dropWhile_append_of_pos hcs, hbehind]

theorem not_cons (h : Apart behind) {c : Char} (hc : Text.isBlank c = false) (rest : List Char) :
    behind ≠ c :: rest := by
  rintro rfl
  exact Bool.false_ne_true (hc.symm.trans h)

end Apart

theorem digitsValue_toDigits (n : Nat) : digitsValue (Nat.toDigits 10 n) = n := by
  have h := Nat.ofDigitChars_ten_toDigits (n := n)
  simpa [digitsValue, Nat.ofDigitChars_eq_foldl, Nat.mul_comm] using h

theorem isDigit_of_isBlank {c : Char} (h : Text.isBlank c = true) : c.isDigit = false :=
  eq_false_of_isBlank (by decide +kernel) h

/-- An integer that is not negative is written with the digits of a number that fits. -/
theorem exists_digits {i : Int64} (hi : 0 ≤ i.toInt) :
    ∃ n, (Token.int i).written = Nat.toDigits 10 n ∧
      scanNumber.integer (Nat.toDigits 10 n) = some (.int i, (Nat.toDigits 10 n).length) := by
  obtain ⟨n, hn⟩ := Int.eq_ofNat_of_zero_le hi
  have hfits : n ≤ Int64.maxValue.toInt.toNat := by
    have hmax := i.toInt_le
    omega
  have hback : Int64.ofNat n = i := by
    rw [← Int64.ofInt_eq_ofNat, ← hn, Int64.ofInt_toInt]
  refine ⟨n, ?_, ?_⟩
  · simp only [Token.written, hn]
    exact Number.toList_toString_ofNat n
  · simp only [scanNumber.integer, digitsValue_toDigits, if_pos hfits, hback]

/-- The digits of a number are read again. -/
theorem scanNumber_toDigits (n : Nat) {behind : List Char} (h : Apart behind) :
    scanNumber (Nat.toDigits 10 n ++ behind) = scanNumber.integer (Nat.toDigits 10 n) := by
  obtain ⟨htake, hdrop⟩ := h.span (fun _ => isDigit_of_isBlank) (Number.isDigit_of_mem n)
  rw [scanNumber, htake, hdrop]
  split
  · next rest => exact absurd rfl (h.not_cons (by decide) rest)
  · rfl

/-- The inside of a literal is read again. -/
theorem scanText_written (content : String) (taken : Nat) (cs behind : List Char) :
    scanText content taken (cs.flatMap (inLiteral '"') ++ '"' :: behind) =
      some (.text (content ++ String.ofList cs), taken + (cs.flatMap (inLiteral '"')).length + 1) := by
  induction cs generalizing content taken with
  | nil => simp [scanText]
  | cons c cs ih =>
      have hcontent : content ++ String.ofList (c :: cs) = content.push c ++ String.ofList cs := by
        simp [String.ext_iff]
      rw [hcontent, List.flatMap_cons, List.append_assoc]
      by_cases hbreak : c = '\n'
      · subst hbreak
        simp only [inLiteral, if_pos, List.cons_append, List.nil_append, scanText, escaped?, ih]
        simp
        omega
      · by_cases hmark : c = '"' ∨ c = '\\'
        · have hback : escaped? c = some c := by rcases hmark with rfl | rfl <;> rfl
          simp only [inLiteral, if_neg hbreak, if_pos hmark, List.cons_append, List.nil_append,
            scanText, hback, ih]
          simp
          omega
        · obtain ⟨hclose, hescape⟩ := not_or.mp hmark
          simp only [inLiteral, if_neg hbreak, if_neg hmark, List.cons_append, List.nil_append]
          rw [scanText.eq_3 _ _ _ _ (fun h => hclose h) (fun e rest h => absurd h hescape),
            if_neg (by simp [hbreak, hescape]), ih]
          simp
          omega

/-- A character is read again. -/
theorem scanCharacter_written (c : Char) (behind : List Char) :
    scanCharacter (inLiteral '\'' c ++ '\'' :: behind) =
      some (.char c, (inLiteral '\'' c).length + 2) := by
  by_cases hbreak : c = '\n'
  · subst hbreak
    rfl
  · by_cases hmark : c = '\'' ∨ c = '\\'
    · rcases hmark with rfl | rfl <;> rfl
    · obtain ⟨hclose, hescape⟩ := not_or.mp hmark
      simp [inLiteral, hbreak, hclose, hescape, scanCharacter_cons_cons]

theorem IsWord.parts {cs : List Char} (h : IsWord cs) : ∀ c ∈ cs, isWordPart c = true := by
  cases cs with
  | nil => exact h.elim
  | cons c cs => simpa [isWordPart_of_isWordStart h.1] using List.all_eq_true.mp h.2

/-- Words that are not reserved are read as names, reserved words as keywords. -/
theorem scanWord_append {name : String} (hword : IsWord name.toList) {behind : List Char}
    (h : Apart behind) :
    scanWord (name.toList ++ behind) =
      ((match Keyword.ofText? name with
        | some k => .keyword k
        | none => .identifier name), name.toList.length) := by
  obtain ⟨htake, -⟩ := h.span (fun c => isWordPart_of_isBlank) hword.parts
  simp only [scanWord, htake, String.ofList_toList]
  cases Keyword.ofText? name <;> rfl

theorem Keyword.ofText?_text (k : Keyword) : ofText? k.text = some k := by
  cases k <;> decide

theorem Keyword.ofText?_eq_none_iff {name : String} :
    ofText? name = none ↔ ∀ k : Keyword, name ≠ k.text := by
  refine ⟨?_, fun h => by simp [ofText?, (h _).symm]⟩
  rintro h k rfl
  simp [ofText?_text] at h

instance (t : Token) : Decidable t.Writable :=
  match t with
  | .int i => inferInstanceAs (Decidable (0 ≤ i.toInt))
  | .float _ => .isFalse id
  | .identifier name =>
    have : Decidable (∀ k : Keyword, name ≠ k.text) := decidable_of_iff _ Keyword.ofText?_eq_none_iff
    inferInstanceAs (Decidable (IsWord name.toList ∧ ∀ k : Keyword, name ≠ k.text))
  | .text _ | .char _ | .keyword _ | .operator _ | .delimiter _ => .isTrue trivial

theorem Keyword.isWord_text (k : Keyword) : IsWord k.text.toList := by
  cases k <;> simp [IsWord, Keyword.text] <;> decide

/-- Operators are read again: nothing that could make them longer comes next. -/
theorem scanSymbol_operator (o : Operator) {behind : List Char} (h : Apart behind) :
    scanSymbol (o.text.toList ++ behind) = some (.operator o, o.text.toList.length) := by
  -- An operator of one character is told from a longer one by what comes behind it.
  have hequal : ∀ rest, behind ≠ '=' :: rest := h.not_cons (by decide)
  cases o <;> simp [Operator.text, scanSymbol]

theorem scanSymbol_delimiter (d : Delimiter) (behind : List Char) :
    scanSymbol (d.text.toList ++ behind) = some (.delimiter d, d.text.toList.length) := by
  cases d <;> rfl

/-- No token but an operator or a delimiter starts with the first character of one. -/
theorem Operator.exists_start (o : Operator) :
    ∃ c cs, o.text.toList = c :: cs ∧ Text.isBlank c = false ∧ (c = '/' → cs = []) ∧
      ∀ rest, scanToken c rest = scanSymbol (c :: rest) := by
  cases o <;> exact ⟨_, _, rfl, by decide, by decide, fun _ => rfl⟩

theorem Delimiter.exists_start (d : Delimiter) :
    ∃ c cs, d.text.toList = c :: cs ∧ Text.isBlank c = false ∧ c ≠ '/' ∧
      ∀ rest, scanToken c rest = scanSymbol (c :: rest) := by
  cases d <;> exact ⟨_, _, rfl, by decide, by decide, fun _ => rfl⟩

theorem scanToken_of_isDigit {c : Char} (h : c.isDigit = true) (cs : List Char) :
    scanToken c cs = scanNumber (c :: cs) :=
  if_pos h

theorem scanToken_of_isWordStart {c : Char} (h : isWordStart c = true) (cs : List Char) :
    scanToken c cs = some (scanWord (c :: cs)) := by
  have hother : ¬ (c.isDigit = true ∨ c = '"' ∨ c = '\'') := by
    intro hc
    exact Bool.false_ne_true ((isWordStart_eq_false hc).symm.trans h)
  simp only [not_or] at hother
  simp [scanToken, hother, h]

/-- A token as it is written: it begins neither with white space nor with a comment, and it is read as
long as nothing or white space stands behind it. -/
def Token.ReadAgain (t : Token) (behind : List Char) : Prop :=
  ∃ c cs, t.written = c :: cs ∧ Text.isBlank c = false ∧
    ¬ (c = '/' ∧ (cs ++ behind).head? = some '/') ∧
    scanToken c (cs ++ behind) = some (t, t.written.length)

theorem Token.readAgain_word {name : String} (hname : IsWord name.toList) {t : Token}
    (hwritten : t.written = name.toList)
    (ht : (match Keyword.ofText? name with
      | some k => .keyword k
      | none => .identifier name) = t) {behind : List Char} (h : Apart behind) :
    t.ReadAgain behind := by
  have hscan := scanWord_append hname h
  cases hstart : name.toList with
  | nil => simp [hstart, IsWord] at hname
  | cons c cs =>
      have hc : isWordStart c = true := by
        rw [hstart] at hname
        exact hname.1
      refine ⟨c, cs, hwritten.trans hstart, ?_, ?_, ?_⟩
      · exact isBlank_eq_false (fun _ => isWordPart_of_isBlank) (isWordPart_of_isWordStart hc)
      · rintro ⟨rfl, -⟩
        exact absurd hc (by decide)
      · rw [scanToken_of_isWordStart hc, ← List.cons_append, ← hstart, hscan, ht, hwritten]

/-- Every token that can be written is read again. -/
theorem Token.Writable.readAgain {t : Token} (ht : t.Writable) {behind : List Char}
    (h : Apart behind) : t.ReadAgain behind := by
  cases t with
  | int i =>
      obtain ⟨n, hwritten, hinteger⟩ := exists_digits ht
      have hscan := scanNumber_toDigits n h
      obtain ⟨c, cs, hstart, hc⟩ := Number.exists_digit n
      refine ⟨c, cs, hwritten.trans hstart, isBlank_eq_false (fun _ => isDigit_of_isBlank) hc, ?_, ?_⟩
      · rintro ⟨rfl, -⟩
        exact absurd hc (by decide)
      · rw [scanToken_of_isDigit hc, ← List.cons_append, ← hstart, hscan, hinteger, hwritten]
  | float x => exact ht.elim
  | text s =>
      refine ⟨'"', _, rfl, by decide, by simp, ?_⟩
      have hscan := scanText_written "" 1 s.toList behind
      simp only [String.empty_append, String.ofList_toList] at hscan
      show scanText "" 1 _ = _
      simp [hscan, written, Nat.add_comm 1]
  | char c =>
      refine ⟨'\'', _, rfl, by decide, by simp, ?_⟩
      show scanCharacter _ = _
      simp [scanCharacter_written, written]
  | identifier name => exact readAgain_word ht.1 rfl (by rw [Keyword.ofText?_eq_none_iff.mpr ht.2]) h
  | keyword k => exact readAgain_word k.isWord_text rfl (by rw [k.ofText?_text]) h
  | operator o =>
      obtain ⟨c, cs, htext, hblank, hslash, hscan⟩ := o.exists_start
      refine ⟨c, cs, htext, hblank, ?_, ?_⟩
      · rintro ⟨hc, hcomment⟩
        rw [hslash hc] at hcomment
        obtain ⟨rest, hrest⟩ := List.head?_eq_some_iff.mp hcomment
        exact h.not_cons (by decide) rest hrest
      · rw [hscan, ← List.cons_append, ← htext, scanSymbol_operator o h]
        rfl
  | delimiter d =>
      obtain ⟨c, cs, htext, hblank, hslash, hscan⟩ := d.exists_start
      refine ⟨c, cs, htext, hblank, fun hc => hslash hc.1, ?_⟩
      rw [hscan, ← List.cons_append, ← htext, scanSymbol_delimiter d]
      rfl

end ReplDaemon.Script
