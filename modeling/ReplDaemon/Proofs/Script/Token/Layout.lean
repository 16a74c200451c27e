import ReplDaemon.Proofs.Script.Token.Cut
import ReplDaemon.Proofs.Script.Token.Writing

/-!
# Sources written token by token

Tokens are written in order, with white space in front, between and behind. Reading such a source gives
just these tokens, each in the line and column where it was written.
-/

namespace ReplDaemon.Script

/-- Tokens in order, each with what stands behind it. -/
def layOut (parts : List (Token × List Char)) : List Char :=
  parts.flatMap fun (t, gap) => t.written ++ gap

/-- The line and the column behind a text: one more than it has line breaks, and one more than it has
characters behind the last of them. -/
def placeBehind (front : List Char) : Position :=
  ⟨front.count '\n' + 1, (front.reverse.takeWhile (· ≠ '\n')).length + 1⟩

/-- Tokens in order, each with the place where it is written behind what stands in front. -/
def placedBehind (front : List Char) : List (Token × List Char) → List PlacedToken
  | [] => []
  | (t, gap) :: rest => ⟨t, placeBehind front⟩ :: placedBehind (front ++ t.written ++ gap) rest

/-- Going through a text character by character leads to the line and the column behind it. -/
theorem past_eq_placeBehind (front : List Char) :
    Position.start.past front = placeBehind front := by
  induction front using List.reverseRecOn with
  | nil => rfl
  | append_singleton cs c ih =>
      rw [Position.past_append, ih]
      show (placeBehind cs).after c = _
      by_cases hc : c = '\n' <;> simp [Position.after, placeBehind, hc]

/-- White space is skipped. -/
theorem tokensFrom_gap (found : List PlacedToken) (position : Position) {gap : List Char}
    (hgap : gap.all Text.isBlank = true) (behind : List Char) :
    tokensFrom found position .between (gap ++ behind) =
      tokensFrom found (position.past gap) .between behind := by
  rw [List.all_eq_true] at hgap
  rw [tokensFrom_blanks, tokensFrom_blanks found _ behind, List.takeWhile_append_of_pos hgap,
    List.dropWhile_append_of_pos hgap, Position.past_append]

/-- A token that is read again where it is written comes next. -/
theorem Token.ReadAgain.tokensFrom {t : Token} {behind : List Char} (h : t.ReadAgain behind)
    (found : List PlacedToken) (position : Position) :
    Script.tokensFrom found position .between (t.written ++ behind) =
      Script.tokensFrom (⟨t, position⟩ :: found) (position.past t.written) .between behind := by
  obtain ⟨c, cs, hwritten, hblank, hcomment, hscan⟩ := h
  have hsolid : Solid (c :: (cs ++ behind)) := ⟨hblank, hcomment⟩
  have hnext := tokensFrom_token hsolid hscan found position
  rw [← List.cons_append, ← hwritten] at hnext
  simpa using hnext

/-- What is laid out is read, token by token. -/
theorem tokensFrom_layOut (found : List PlacedToken) (front : List Char)
    {parts : List (Token × List Char)}
    (htokens : ∀ part ∈ parts, part.1.Writable ∧ part.2.all Text.isBlank = true)
    (hgaps : ∀ part ∈ parts.dropLast, part.2 ≠ []) :
    tokensFrom found (placeBehind front) .between (layOut parts) =
      .ok (found.reverse ++ placedBehind front parts) := by
  induction parts generalizing found front with
  | nil => simp [layOut, placedBehind, tokensFrom]
  | cons part rest ih =>
      obtain ⟨t, gap⟩ := part
      obtain ⟨⟨ht, hgap⟩, hrest⟩ := List.forall_mem_cons.mp htokens
      have happart : Apart (gap ++ layOut rest) := by
        cases gap with
        | cons c gap => exact List.all_eq_true.mp hgap c (by simp)
        | nil =>
            cases rest with
            | nil => trivial
            | cons next rest => exact absurd rfl (hgaps (t, []) (by simp))
      have hlast : ∀ part ∈ rest.dropLast, part.2 ≠ [] := by
        cases rest with
        | nil => simp
        | cons next rest => exact fun part hpart => hgaps part (by simp [hpart])
      have hplace : ((placeBehind front).past t.written).past gap =
          placeBehind (front ++ t.written ++ gap) := by
        simp only [← past_eq_placeBehind, ← Position.past_append, List.append_assoc]
      calc tokensFrom found (placeBehind front) .between (layOut ((t, gap) :: rest))
          = tokensFrom found (placeBehind front) .between (t.written ++ (gap ++ layOut rest)) := by
            simp [layOut]
        _ = tokensFrom (⟨t, placeBehind front⟩ :: found) (placeBehind (front ++ t.written ++ gap))
              .between (layOut rest) := by
            rw [(ht.readAgain happart).tokensFrom, tokensFrom_gap _ _ hgap, hplace]
        _ = .ok (found.reverse ++ placedBehind front ((t, gap) :: rest)) := by
            rw [ih _ _ hrest hlast]
            simp [placedBehind]

/-- Tokens that are written in order, with white space between them, in front and behind, are read again,
each with the line and the column where it is written. -/
theorem tokens_layOut {lead : List Char} {parts : List (Token × List Char)}
    (hlead : lead.all Text.isBlank = true)
    (htokens : ∀ part ∈ parts, part.1.Writable ∧ part.2.all Text.isBlank = true)
    (hgaps : ∀ part ∈ parts.dropLast, part.2 ≠ []) :
    tokens (.ofList (lead ++ layOut parts)) = .ok (placedBehind lead parts) := by
  rw [tokens, String.toList_ofList, tokensFrom_gap _ _ hlead, past_eq_placeBehind,
    tokensFrom_layOut _ _ htokens hgaps]
  rfl

/-- A source over three lines, with a comment and the marks of literals inside a text. -/
theorem tokens_layOut_marks :
    let lead := ['\n', ' ']
    let parts : List (Token × List Char) :=
      [(.identifier "größe", ['\u00a0']), (.operator .assign, ['\r', '\n', '\t']),
        (.text "// \"\\'\n", [' ']), (.operator .divide, [' ']), (.char '\'', ['\n']),
        (.int 9223372036854775807, [])]
    (lead.all Text.isBlank = true ∧
      (∀ part ∈ parts, part.1.Writable ∧ part.2.all Text.isBlank = true) ∧
      ∀ part ∈ parts.dropLast, part.2 ≠ []) ∧
      tokens "\n größe\u00a0=\r\n\t\"// \\\"\\\\'\\n\" / '\\''\n9223372036854775807" =
        .ok [⟨.identifier "größe", ⟨2, 2⟩⟩, ⟨.operator .assign, ⟨2, 8⟩⟩, ⟨.text "// \"\\'\n", ⟨3, 2⟩⟩,
          ⟨.operator .divide, ⟨3, 15⟩⟩, ⟨.char '\'', ⟨3, 17⟩⟩, ⟨.int 9223372036854775807, ⟨4, 1⟩⟩] := by
  intro lead parts
  have hlead : lead.all Text.isBlank = true := by decide
  have htokens : ∀ part ∈ parts, part.1.Writable ∧ part.2.all Text.isBlank = true := by
    decide +kernel
  have hgaps : ∀ part ∈ parts.dropLast, part.2 ≠ [] := by simp [parts]
  have hread := tokens_layOut hlead htokens hgaps
  have htext : String.ofList (lead ++ layOut parts) =
      "\n größe\u00a0=\r\n\t\"// \\\"\\\\'\\n\" / '\\''\n9223372036854775807" := by decide +kernel
  rw [htext] at hread
  refine ⟨⟨hlead, htokens, hgaps⟩, hread.trans ?_⟩
  rfl

end ReplDaemon.Script
