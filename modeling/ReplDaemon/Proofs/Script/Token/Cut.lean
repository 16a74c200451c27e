import ReplDaemon.Proofs.Fault
import ReplDaemon.Proofs.Script.Token.Join

/-!
# Texts cut into tokens

A text is cut where its white space, its comments and its tokens end, by counting bytes. The cuts are
made at boundaries of characters, and the tokens are those that are found by reading character by
character.
-/

namespace ReplDaemon.Script

open Fault

/-- What a text begins with, given what is left of it. -/
def consumed (text rest : List Char) : Except Fault (List Char) := do
  let bytes ← minus (byteLength text) (byteLength rest)
  let (before, _) ← cut text bytes
  return before

/-- How many bytes there are in front of the first line break. -/
def lineBytes? : List Char → Option Nat
  | [] => none
  | c :: cs => if c = '\n' then some 0 else (lineBytes? cs).map (c.utf8Size + ·)

theorem eq_append_of_cut {text before behind : List Char} {bytes : Nat}
    (h : cut text bytes = .ok (before, behind)) : text = before ++ behind := by
  induction text generalizing before bytes with
  | nil =>
      cases bytes with
      | zero => cases h; rfl
      | succ n => cases h
  | cons c cs ih =>
      cases bytes with
      | zero => cases h; rfl
      | succ n =>
          rw [cut_cons c cs n.succ_pos] at h
          split at h
          · rcases hcut : cut cs (n + 1 - c.utf8Size) with f | ⟨before', behind'⟩
            · rw [hcut] at h
              cases h
            · rw [hcut] at h
              cases h
              exact congrArg (c :: ·) (ih hcut)
          · cases h

/-- What is left of a text behind white space and comments. -/
def behindTrivia (text : List Char) : Except Fault (List Char) :=
  match _htrimmed : text.dropWhile Text.isBlank with
  | '/' :: '/' :: comment =>
    match lineBytes? comment with
    | none => .ok []
    | some bytes =>
      match _hcut : cut comment bytes with
      | .error f => .error f
      | .ok (_, rest) => behindTrivia rest
  | trimmed => .ok trimmed
termination_by text.length
decreasing_by
  have htrimmed := (List.dropWhile_suffix Text.isBlank (l := text)).length_le
  have hrest := congrArg List.length (eq_append_of_cut _hcut)
  rw [_htrimmed, List.length_cons, List.length_cons] at htrimmed
  rw [List.length_append] at hrest
  omega

/-- The white space and the comments that a text begins with, and what is left of it. -/
def skipTrivia (text : List Char) : Except Fault (List Char × List Char) := do
  let rest ← behindTrivia text
  let skipped ← consumed text rest
  return (skipped, rest)

theorem consumed_append (before behind : List Char) :
    consumed (before ++ behind) behind = .ok before := by
  rw [consumed, byteLength_append, minus_of_le (Nat.le_add_left _ _), Nat.add_sub_cancel]
  show (cut (before ++ behind) (byteLength before) >>= _) = _
  rw [cut_append]
  rfl

theorem Position.past_append (p : Position) (cs ds : List Char) :
    p.past (cs ++ ds) = (p.past cs).past ds :=
  List.foldl_append

theorem tokensFrom_blanks (found : List PlacedToken) (position : Position) (text : List Char) :
    tokensFrom found position .between text =
      tokensFrom found (position.past (text.takeWhile Text.isBlank)) .between
        (text.dropWhile Text.isBlank) := by
  induction text generalizing position with
  | nil => rfl
  | cons c cs ih =>
      by_cases hblank : Text.isBlank c = true
      · rw [List.takeWhile_cons_of_pos hblank, List.dropWhile_cons_of_pos hblank, tokensFrom,
          if_pos hblank, ih]
        rfl
      · rw [List.takeWhile_cons_of_neg hblank, List.dropWhile_cons_of_neg hblank]
        rfl

theorem tokensFrom_comment_of_none {comment : List Char} (h : lineBytes? comment = none)
    (found : List PlacedToken) (position : Position) :
    tokensFrom found position .comment comment = .ok found.reverse := by
  induction comment generalizing position with
  | nil => rfl
  | cons c cs ih =>
      rw [lineBytes?] at h
      split at h
      · cases h
      · next hc =>
          rw [tokensFrom, if_neg hc]
          exact ih (Option.map_eq_none_iff.mp h) _

theorem tokensFrom_comment_of_some {comment : List Char} {bytes : Nat}
    (h : lineBytes? comment = some bytes) :
    ∃ line rest, comment = line ++ rest ∧ byteLength line = bytes ∧
      ∀ found position, tokensFrom found position .comment comment =
        tokensFrom found (position.past line) .between rest := by
  induction comment generalizing bytes with
  | nil => cases h
  | cons c cs ih =>
      rw [lineBytes?] at h
      split at h
      · next hc =>
          cases h
          refine ⟨[], c :: cs, rfl, rfl, fun found position => ?_⟩
          rw [tokensFrom, if_pos hc, hc]
          exact (if_pos rfl).symm
      · next hc =>
          obtain ⟨n, hn, rfl⟩ := Option.map_eq_some_iff.mp h
          obtain ⟨line, rest, rfl, rfl, htokens⟩ := ih hn
          refine ⟨c :: line, rest, rfl, rfl, fun found position => ?_⟩
          rw [tokensFrom, if_neg hc, htokens]
          rfl

theorem behindTrivia_of_none {text comment : List Char}
    (htrimmed : text.dropWhile Text.isBlank = '/' :: '/' :: comment)
    (hline : lineBytes? comment = none) : behindTrivia text = .ok [] := by
  rw [behindTrivia]
  split
  · next heq =>
      cases heq.symm.trans htrimmed
      rw [hline]
  · next hother => exact absurd htrimmed (hother comment)

theorem behindTrivia_of_some {text line rest : List Char}
    (htrimmed : text.dropWhile Text.isBlank = '/' :: '/' :: (line ++ rest))
    (hline : lineBytes? (line ++ rest) = some (byteLength line)) :
    behindTrivia text = behindTrivia rest := by
  rw [behindTrivia]
  split
  · next heq =>
      cases heq.symm.trans htrimmed
      rw [hline]
      dsimp only
      split
      · next hcut => cases hcut.symm.trans (cut_append line rest)
      · next hcut =>
          cases hcut.symm.trans (cut_append line rest)
          rfl
  · next hother => exact absurd htrimmed (hother _)

theorem behindTrivia_of_solid {text : List Char}
    (h : ∀ comment, text.dropWhile Text.isBlank ≠ '/' :: '/' :: comment) :
    behindTrivia text = .ok (text.dropWhile Text.isBlank) := by
  rw [behindTrivia]
  split
  · next heq => exact absurd heq (h _)
  · rfl

/-- Where a text goes on behind its white space and comments, it begins with neither. -/
def Solid : List Char → Prop
  | [] => True
  | c :: cs => Text.isBlank c = false ∧ ¬ (c = '/' ∧ cs.head? = some '/')

theorem solid_dropWhile {text : List Char}
    (h : ∀ comment, text.dropWhile Text.isBlank ≠ '/' :: '/' :: comment) :
    Solid (text.dropWhile Text.isBlank) := by
  have hhead := List.head?_dropWhile_not Text.isBlank text
  cases htrimmed : text.dropWhile Text.isBlank with
  | nil => trivial
  | cons c cs =>
      rw [htrimmed] at hhead
      refine ⟨hhead, ?_⟩
      rintro ⟨rfl, hslash⟩
      obtain ⟨comment, rfl⟩ := List.head?_eq_some_iff.mp hslash
      exact h comment htrimmed

/-- Skipping white space and comments is reading them. -/
theorem behindTrivia_spec (text : List Char) :
    ∃ skipped rest, text = skipped ++ rest ∧ behindTrivia text = .ok rest ∧ Solid rest ∧
      ∀ found position, tokensFrom found position .between text =
        tokensFrom found (position.past skipped) .between rest := by
  have htext : text.takeWhile Text.isBlank ++ text.dropWhile Text.isBlank = text :=
    List.takeWhile_append_dropWhile
  by_cases hcomment : ∃ comment, text.dropWhile Text.isBlank = '/' :: '/' :: comment
  · obtain ⟨comment, htrimmed⟩ := hcomment
    have hslashes (found : List PlacedToken) (position : Position) :
        tokensFrom found position .between ('/' :: '/' :: comment) =
          tokensFrom found (position.past ['/', '/']) .comment comment := by
      rw [tokensFrom, if_neg (by decide), if_pos ⟨rfl, rfl⟩, tokensFrom, if_neg (by decide)]
      rfl
    cases hline : lineBytes? comment with
    | none =>
        refine ⟨text, [], (List.append_nil text).symm, behindTrivia_of_none htrimmed hline, trivial,
          fun found position => ?_⟩
        rw [tokensFrom_blanks, htrimmed, hslashes, tokensFrom_comment_of_none hline, tokensFrom]
    | some bytes =>
        obtain ⟨line, rest, rfl, rfl, htokens⟩ := tokensFrom_comment_of_some hline
        have hshorter : rest.length < text.length := by
          have hlength := congrArg List.length htext
          rw [htrimmed] at hlength
          simp only [List.length_append, List.length_cons] at hlength
          omega
        obtain ⟨skipped, behind, rfl, hbehind, hsolid, hskipped⟩ := behindTrivia_spec rest
        refine ⟨text.takeWhile Text.isBlank ++ '/' :: '/' :: line ++ skipped, behind, ?_,
          (behindTrivia_of_some htrimmed hline).trans hbehind, hsolid, fun found position => ?_⟩
        · refine htext.symm.trans ?_
          rw [htrimmed]
          simp
        · rw [tokensFrom_blanks, htrimmed, hslashes, htokens, hskipped, Position.past_append,
            Position.past_append]
          rfl
  · have hsolid : ∀ comment, text.dropWhile Text.isBlank ≠ '/' :: '/' :: comment :=
      fun comment h => hcomment ⟨comment, h⟩
    exact ⟨_, _, htext.symm, behindTrivia_of_solid hsolid, solid_dropWhile hsolid,
      fun found position => tokensFrom_blanks found position text⟩
termination_by text.length

theorem skipTrivia_spec (text : List Char) :
    ∃ skipped rest, text = skipped ++ rest ∧ skipTrivia text = .ok (skipped, rest) ∧ Solid rest ∧
      ∀ found position, tokensFrom found position .between text =
        tokensFrom found (position.past skipped) .between rest := by
  obtain ⟨skipped, rest, rfl, hbehind, hsolid, htokens⟩ := behindTrivia_spec text
  refine ⟨skipped, rest, rfl, ?_, hsolid, htokens⟩
  rw [skipTrivia, hbehind]
  show (consumed (skipped ++ rest) rest >>= _) = _
  rw [consumed_append]
  rfl

/-- The tokens of what is left of a text, behind those found so far, last one first. -/
def cutFrom (found : List PlacedToken) (position : Position) (remaining : List Char) :
    Except Fault (Except LexError (List PlacedToken)) :=
  match _hskip : skipTrivia remaining with
  | .error f => .error f
  | .ok (_, []) => .ok (.ok found.reverse)
  | .ok (skipped, c :: cs) =>
    let position := position.past skipped
    match _hscan : scanToken c cs with
    | none => .ok (.error (.at position c))
    | some (token, length) =>
      let rest := (c :: cs).drop length
      match consumed (c :: cs) rest with
      | .error f => .error f
      | .ok taken => cutFrom (⟨token, position⟩ :: found) (position.past taken) rest
termination_by remaining.length
decreasing_by
  obtain ⟨skipped', rest', rfl, hspec, -⟩ := skipTrivia_spec remaining
  cases hspec.symm.trans _hskip
  have hpos : 0 < length := (scanToken_within _hscan).1
  simp only [List.length_drop, List.length_append, List.length_cons]
  omega

/-- The tokens of a source text, cut out of it. -/
def tokensCut (source : String) : Except Fault (Except LexError (List PlacedToken)) :=
  cutFrom [] .start source.toList

theorem tokensFrom_inside (found : List PlacedToken) (position : Position) (left : Nat)
    (cs : List Char) :
    tokensFrom found position (.inside left) cs =
      tokensFrom found (position.past (cs.take left)) .between (cs.drop left) := by
  induction left generalizing position cs with
  | zero =>
      cases cs with
      | nil => rfl
      | cons c cs =>
          show _ = tokensFrom found position .between (c :: cs)
          rw [tokensFrom_cons, tokensFrom_cons]
          rfl
  | succ left ih =>
      cases cs with
      | nil => rfl
      | cons c cs =>
          rw [tokensFrom, ih]
          rfl

/-- Reading goes on behind a token. -/
theorem tokensFrom_token {c : Char} {cs : List Char} (hsolid : Solid (c :: cs)) {token : Token}
    {length : Nat} (hscan : scanToken c cs = some (token, length)) (found : List PlacedToken)
    (position : Position) :
    tokensFrom found position .between (c :: cs) =
      tokensFrom (⟨token, position⟩ :: found) (position.past ((c :: cs).take length)) .between
        ((c :: cs).drop length) := by
  obtain ⟨n, rfl⟩ := Nat.exists_eq_add_one_of_ne_zero (scanToken_within hscan).1.ne'
  rw [tokensFrom, if_neg (by rw [hsolid.1]; exact Bool.false_ne_true), if_neg hsolid.2, hscan]
  exact tokensFrom_inside _ _ _ _

/-- All cuts are made at boundaries, and the tokens are those that are read. -/
theorem cutFrom_eq (found : List PlacedToken) (position : Position) (remaining : List Char) :
    cutFrom found position remaining = .ok (tokensFrom found position .between remaining) := by
  obtain ⟨skipped, rest, hremaining, hskip, hsolid, htokens⟩ := skipTrivia_spec remaining
  rw [cutFrom, htokens]
  split
  · next heq => cases heq.symm.trans hskip
  · next heq =>
      cases heq.symm.trans hskip
      rfl
  · next skipped' c cs heq =>
      cases heq.symm.trans hskip
      dsimp only
      split
      · next hscan =>
          rw [tokensFrom, if_neg (by rw [hsolid.1]; exact Bool.false_ne_true), if_neg hsolid.2,
            hscan]
      · next token length hscan =>
          have hconsumed := consumed_append ((c :: cs).take length) ((c :: cs).drop length)
          rw [List.take_append_drop] at hconsumed
          have hshorter : cs.length + 1 - length < remaining.length := by
            have hpos : 0 < length := (scanToken_within hscan).1
            rw [hremaining, List.length_append, List.length_cons]
            omega
          rw [hconsumed, tokensFrom_token hsolid hscan]
          exact cutFrom_eq _ _ _
termination_by remaining.length

theorem tokensCut_eq (source : String) : tokensCut source = .ok (tokens source) :=
  cutFrom_eq [] .start source.toList

end ReplDaemon.Script
