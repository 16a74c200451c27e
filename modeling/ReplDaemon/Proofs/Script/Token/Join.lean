import ReplDaemon.Proofs.Script.Token.Scan

/-!
# Texts joined at a line break

The tokens of two texts with a line break between them are the tokens of the first one, and then those
of the second one, as many lines further down.
-/

namespace ReplDaemon.Script

/-- The place behind some characters. -/
def Position.past (p : Position) (cs : List Char) : Position :=
  cs.foldl Position.after p

/-- A place so many lines further down. -/
def Position.down (lines : Nat) (p : Position) : Position :=
  ⟨p.line + lines, p.column⟩

/-- A token so many lines further down. -/
def PlacedToken.down (lines : Nat) (t : PlacedToken) : PlacedToken :=
  { t with position := t.position.down lines }

/-- An error so many lines further down. -/
def LexError.down (lines : Nat) : LexError → LexError
  | .unterminatedText p => .unterminatedText (p.down lines)
  | .integerOutOfRange p => .integerOutOfRange (p.down lines)
  | .unexpected c p => .unexpected c (p.down lines)

theorem Position.after_down (lines : Nat) (p : Position) (c : Char) :
    (p.down lines).after c = (p.after c).down lines := by
  unfold after down
  split
  · rw [Nat.add_right_comm]
  · rfl

theorem LexError.at_down (lines : Nat) (p : Position) (c : Char) :
    LexError.at (p.down lines) c = (LexError.at p c).down lines := by
  unfold LexError.at
  split
  · rfl
  · split <;> rfl

theorem Position.past_newline (p : Position) (cs : List Char) :
    p.past (cs ++ ['\n']) = ⟨p.line + (cs.count '\n' + 1), 1⟩ := by
  unfold past
  rw [List.foldl_append, List.foldl_cons, List.foldl_nil, after, if_pos rfl]
  congr 1
  rw [← Nat.add_assoc]
  congr 1
  induction cs generalizing p with
  | nil => rfl
  | cons c cs ih =>
      rw [List.foldl_cons, ih, after]
      by_cases hc : c = '\n'
      · rw [if_pos hc, hc, List.count_cons_self]
        dsimp only
        omega
      · rw [if_neg hc, List.count_cons_of_ne hc]

/-- What reading a character comes to: perhaps a token that starts there, and where the reading stands
then; or nothing, if no token does. -/
def Scanning.read (s : Scanning) (c : Char) (cs : List Char) : Option (Option Token × Scanning) :=
  match s with
  | .inside (left + 1) => some (none, .inside left)
  | .comment => some (none, if c = '\n' then .between else .comment)
  | .between | .inside 0 =>
    if Text.isBlank c then some (none, .between)
    else if c = '/' ∧ cs.head? = some '/' then some (none, .comment)
    else (scanToken c cs).map fun (token, length) => (some token, .inside (length - 1))

/-- Whether the token that is being read ends within so many characters. -/
def Scanning.Fits (length : Nat) (s : Scanning) : Prop :=
  ∀ left, s = .inside left → left ≤ length

theorem tokensFrom_cons (found : List PlacedToken) (position : Position) (s : Scanning) (c : Char)
    (cs : List Char) :
    tokensFrom found position s (c :: cs) =
      match s.read c cs with
      | none => .error (.at position c)
      | some (token, s) =>
        tokensFrom ((token.map fun t => ⟨t, position⟩).toList ++ found) (position.after c) s cs := by
  have hbetween (s : Scanning) (hs : s = .between ∨ s = .inside 0) :
      tokensFrom found position s (c :: cs) =
        match s.read c cs with
        | none => .error (.at position c)
        | some (token, s) =>
          tokensFrom ((token.map fun t => ⟨t, position⟩).toList ++ found) (position.after c) s cs := by
    rcases hs with rfl | rfl <;>
    · rw [tokensFrom, Scanning.read]
      split
      · rfl
      · split
        · rfl
        · cases scanToken c cs <;> rfl
  rcases s with _ | (_ | left) | _
  · exact hbetween _ (.inl rfl)
  · exact hbetween _ (.inr rfl)
  · rfl
  · rfl

theorem Scanning.read_newline (s : Scanning) (c : Char) (cs behind : List Char) :
    s.read c (cs ++ '\n' :: behind) = s.read c cs := by
  have hcomment : (cs ++ '\n' :: behind).head? = some '/' ↔ cs.head? = some '/' := by
    cases cs <;> simp
  rcases s with _ | (_ | left) | _
  · simp only [read, scanToken_newline, hcomment]
  · simp only [read, scanToken_newline, hcomment]
  · rfl
  · rfl

theorem Scanning.fits_of_read {s s' : Scanning} {c : Char} {cs : List Char} {token : Option Token}
    (hfits : s.Fits (cs.length + 1)) (h : s.read c cs = some (token, s')) : s'.Fits cs.length := by
  have hbetween (s : Scanning) (hs : s = .between ∨ s = .inside 0)
      (h : s.read c cs = some (token, s')) : s'.Fits cs.length := by
    have hread : (if Text.isBlank c then some (none, .between)
        else if c = '/' ∧ cs.head? = some '/' then some (none, .comment)
        else (scanToken c cs).map fun (token, length) => (some token, .inside (length - 1))) =
        some (token, s') := by
      rcases hs with rfl | rfl <;> exact h
    split at hread
    · cases hread
      exact nofun
    · split at hread
      · cases hread
        exact nofun
      · obtain ⟨l, hscan, hl⟩ := Option.map_eq_some_iff.mp hread
        cases hl
        rintro left hleft
        cases hleft
        exact Nat.sub_le_of_le_add (scanToken_within hscan).2
  rcases s with _ | (_ | left) | _
  · exact hbetween _ (.inl rfl) h
  · exact hbetween _ (.inr rfl) h
  · cases h
    rintro n hn
    cases hn
    exact Nat.le_of_succ_le_succ (hfits _ rfl)
  · cases h
    split <;> exact nofun

theorem Scanning.read_end {s : Scanning} (hfits : s.Fits 0) (behind : List Char) :
    s.read '\n' behind = some (none, .between) := by
  rcases s with _ | (_ | left) | _
  · rfl
  · rfl
  · exact absurd (hfits _ rfl) (Nat.not_succ_le_zero left)
  · rfl

/-- The reading of a text ends with its last line, whatever stands behind that. -/
theorem tokensFrom_newline (found : List PlacedToken) (position : Position) {s : Scanning}
    (cs behind : List Char) (hfits : s.Fits cs.length) :
    tokensFrom found position s (cs ++ '\n' :: behind) =
      (tokensFrom found position s cs >>= fun ts =>
        tokensFrom ts.reverse (position.past (cs ++ ['\n'])) .between behind) := by
  induction cs generalizing found position s with
  | nil =>
      rw [List.nil_append, tokensFrom_cons, Scanning.read_end hfits, tokensFrom]
      show _ = tokensFrom found.reverse.reverse (position.after '\n') .between behind
      rw [List.reverse_reverse]
      rfl
  | cons c cs ih =>
      rw [List.cons_append, tokensFrom_cons, tokensFrom_cons, Scanning.read_newline]
      cases hread : s.read c cs with
      | none => rfl
      | some r => exact ih _ _ (Scanning.fits_of_read hfits hread)

/-- The tokens found before come first. -/
theorem tokensFrom_found (found : List PlacedToken) (position : Position) (s : Scanning)
    (cs : List Char) :
    tokensFrom found position s cs = (tokensFrom [] position s cs).map (found.reverse ++ ·) := by
  induction cs generalizing found position s with
  | nil => simp [tokensFrom, Except.map]
  | cons c cs ih =>
      rw [tokensFrom_cons, tokensFrom_cons]
      cases s.read c cs with
      | none => rfl
      | some r =>
          obtain ⟨token, s'⟩ := r
          dsimp only
          rw [ih, ih (_ ++ [])]
          cases tokensFrom [] (position.after c) s' cs with
          | error e => rfl
          | ok ts => cases token <;> simp [Except.map]

/-- A text further down has the same tokens further down. -/
theorem tokensFrom_down (lines : Nat) (position : Position) (s : Scanning) (cs : List Char) :
    tokensFrom [] (position.down lines) s cs =
      ((tokensFrom [] position s cs).map (·.map (·.down lines))).mapError (·.down lines) := by
  induction cs generalizing position s with
  | nil => rfl
  | cons c cs ih =>
      rw [tokensFrom_cons, tokensFrom_cons]
      cases s.read c cs with
      | none =>
          rw [LexError.at_down]
          rfl
      | some r =>
          obtain ⟨token, s'⟩ := r
          dsimp only
          rw [tokensFrom_found, tokensFrom_found (_ ++ []) (position.after c), Position.after_down, ih]
          cases tokensFrom [] (position.after c) s' cs with
          | error e => rfl
          | ok ts => cases token <;> rfl

/-- Behind a line break a text is read like by itself, from the place where it starts. -/
theorem tokens_eq_bind (a b : String) :
    tokens (a ++ "\n" ++ b) = tokens a >>= fun ta =>
      tokensFrom ta.reverse (Position.start.down (a.toList.count '\n' + 1)) .between b.toList := by
  have htext : (a ++ "\n" ++ b).toList = a.toList ++ '\n' :: b.toList := by simp
  have hplace : Position.start.past (a.toList ++ ['\n']) =
      Position.start.down (a.toList.count '\n' + 1) := Position.past_newline _ _
  have hfits : Scanning.between.Fits a.toList.length := nofun
  rw [← hplace, tokens, tokens, htext]
  exact tokensFrom_newline [] _ _ _ hfits

/-- What is read of a text some lines further down, behind other tokens. -/
theorem tokensFrom_start_down (found : List PlacedToken) (lines : Nat) (b : String) :
    tokensFrom found (Position.start.down lines) .between b.toList =
      (((tokens b).map (·.map (·.down lines))).mapError (·.down lines)).map
        (found.reverse ++ ·) := by
  rw [tokensFrom_found, tokensFrom_down]
  rfl

/-- The tokens of texts with a line break between them are those of the one and of the other, in the
lines where these are. -/
theorem tokens_newline {a b : String} {ta tb : List PlacedToken} (ha : tokens a = .ok ta)
    (hb : tokens b = .ok tb) :
    tokens (a ++ "\n" ++ b) = .ok (ta ++ tb.map (·.down (a.toList.count '\n' + 1))) := by
  rw [tokens_eq_bind, ha]
  show tokensFrom ta.reverse _ .between b.toList = _
  rw [tokensFrom_start_down, hb, List.reverse_reverse]
  rfl

end ReplDaemon.Script
