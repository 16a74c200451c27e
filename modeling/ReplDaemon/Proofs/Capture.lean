import Mathlib.Tactic
import ReplDaemon.Capture

/-!
# What a capture keeps

A capture keeps all that is written into it as long as this fits its limit. Of anything longer it keeps
so much that not even four bytes more would fit; so with the notice that it was cut, it shows more than
its limit.
-/

namespace ReplDaemon.Capture

/-- A capture after some texts were written into it. -/
def written (limit : Nat) (texts : List String) : Capture :=
  texts.foldl write (empty limit)

theorem written_append (limit : Nat) (texts texts' : List String) :
    written limit (texts ++ texts') = texts'.foldl write (written limit texts) :=
  List.foldl_append

theorem written_concat (limit : Nat) (texts : List String) (text : String) :
    written limit (texts ++ [text]) = (written limit texts).write text :=
  written_append limit texts [text]

theorem write_of_truncated {c : Capture} (h : c.truncated = true) (s : String) : c.write s = c :=
  if_pos h

/-- What is left out fits no more, and it was a character at least. -/
theorem utf8ByteSize_appendFitting (text : String) (room : Nat) (cs : List Char) :
    (appendFitting text room cs).utf8ByteSize ≤ text.utf8ByteSize + room ∧
      (room < (String.ofList cs).utf8ByteSize →
        text.utf8ByteSize + room < (appendFitting text room cs).utf8ByteSize + 4) := by
  induction cs generalizing text room with
  | nil => simp [appendFitting]
  | cons c cs ih =>
      have hsize : (String.ofList (c :: cs)).utf8ByteSize =
          c.utf8Size + (String.ofList cs).utf8ByteSize := by
        rw [String.ofList_cons, String.utf8ByteSize_append, String.utf8ByteSize_singleton]
      rw [appendFitting]
      split
      · next hfits =>
          obtain ⟨hle, hlt⟩ := ih (text.push c) (room - c.utf8Size)
          rw [String.utf8ByteSize_push] at hle hlt
          rw [hsize]
          refine ⟨by omega, fun hroom => ?_⟩
          have hrest := hlt (by omega)
          omega
      · next hfits =>
          have hfour := c.utf8Size_le_four
          exact ⟨Nat.le_add_right _ _, fun _ => by omega⟩

/-- A capture as it is after texts that fit its limit, or after others. -/
inductive Keeps (limit : Nat) (whole : String) (c : Capture) : Prop
  | all (fits : whole.utf8ByteSize ≤ limit) (eq : c = { limit, text := whole, truncated := false })
  | some (exceeds : limit < whole.utf8ByteSize) (truncated : c.truncated = true)
      (full : limit < c.text.utf8ByteSize + 4)

/-- What one more text does to a capture. -/
theorem Keeps.write {limit : Nat} {whole : String} {c : Capture} (h : Keeps limit whole c)
    (s : String) : Keeps limit (whole ++ s) (c.write s) := by
  have hsize : (whole ++ s).utf8ByteSize = whole.utf8ByteSize + s.utf8ByteSize :=
    String.utf8ByteSize_append
  cases h with
  | all fits eq =>
      subst eq
      unfold Capture.write
      rw [if_neg Bool.false_ne_true]
      dsimp only
      split
      · exact .all (by omega) rfl
      · have hfull := (utf8ByteSize_appendFitting whole (limit - whole.utf8ByteSize) s.toList).2
        rw [String.ofList_toList] at hfull
        have hlt := hfull (by omega)
        refine .some (by omega) rfl ?_
        dsimp only
        omega
  | some exceeds truncated full =>
      rw [write_of_truncated truncated]
      exact .some (by omega) truncated full

theorem keeps_written (limit : Nat) (texts : List String) :
    Keeps limit (String.join texts) (written limit texts) := by
  induction texts using List.reverseRecOn with
  | nil => exact .all (Nat.zero_le limit) rfl
  | append_singleton texts text ih =>
      have hjoin : String.join (texts ++ [text]) = String.join texts ++ text := by simp
      rw [hjoin, written_concat]
      exact ih.write text

/-- Texts that fit are shown as they are. -/
theorem shown_written {limit : Nat} {texts : List String}
    (h : (String.join texts).utf8ByteSize ≤ limit) :
    (written limit texts).shown = String.join texts := by
  cases keeps_written limit texts with
  | all _ eq =>
      rw [eq]
      rfl
  | some exceeds => exact absurd h (Nat.not_le.mpr exceeds)

/-- Texts that do not fit are shown cut, with a notice behind them. -/
theorem shown_written_of_lt {limit : Nat} {texts : List String}
    (h : limit < (String.join texts).utf8ByteSize) :
    ∃ kept, (written limit texts).shown = kept ++ notice ∧ limit < kept.utf8ByteSize + 4 := by
  cases keeps_written limit texts with
  | all fits => exact absurd fits (Nat.not_le.mpr h)
  | some _ truncated full => exact ⟨_, if_pos truncated, full⟩

/-- With something behind it, what is shown fits exactly if everything would. -/
theorem utf8ByteSize_shown_written_le_iff (limit : Nat) (texts : List String) (behind : String) :
    ((written limit texts).shown ++ behind).utf8ByteSize ≤ limit ↔
      (String.join texts ++ behind).utf8ByteSize ≤ limit := by
  rw [String.utf8ByteSize_append, String.utf8ByteSize_append]
  rcases Nat.lt_or_ge limit (String.join texts).utf8ByteSize with hlt | hle
  · obtain ⟨kept, hshown, hfull⟩ := shown_written_of_lt hlt
    have hnotice : notice.utf8ByteSize = 19 := by decide
    rw [hshown, String.utf8ByteSize_append]
    omega
  · rw [shown_written hle]

/-- The end of a line that was written shows, even where the output was cut. -/
theorem newline_mem_shown_writeLine (o : Capture) (s : String) :
    '\n' ∈ (o.writeLine s).shown.toList := by
  have hnotice : '\n' ∈ notice.toList := by decide
  rw [writeLine]
  generalize o.write s = c
  unfold write
  split
  · next htruncated => simp [shown, htruncated, hnotice]
  · simp only
    split
    · next htruncated _ => simp [shown, htruncated]
    · simp [shown, hnotice]

/-- Lines, each with the text that ends it. -/
def lineTexts (lines : List String) : List String :=
  lines.flatMap fun line => [line, "\n"]

/-- As soon as there is a line, it shows that one has ended. -/
theorem newline_mem_shown_lineTexts (limit : Nat) {lines : List String} (h : lines ≠ []) :
    '\n' ∈ (written limit (lineTexts lines)).shown.toList := by
  obtain ⟨front, last, rfl⟩ := (List.eq_nil_or_concat lines).resolve_left h
  rw [List.concat_eq_append, lineTexts, List.flatMap_append, written_append]
  exact newline_mem_shown_writeLine _ _

end ReplDaemon.Capture
