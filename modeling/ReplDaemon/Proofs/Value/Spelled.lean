import Mathlib.Tactic
import ReplDaemon.Value.Text

/-!
# The text of a value, character by character

The text of a container is that of its parts with commas and braces around them. How a text is read turns
on its double quotation marks: outside of a string one stands behind a blank, where it opens a string, or
between single marks; inside of a string it stands behind a backslash or closes the string. No text can
be read both ways.
-/

namespace ReplDaemon.Value

mutual

/-- The literal-like text of a value. -/
def spelled : Value → List Char
  | .list items => '{' :: ' ' :: (spelledItems [] items ++ [' ', '}'])
  | .map entries => '{' :: (spelledEntries [] entries ++ ['}'])
  | .iterable _ elements _ => '{' :: ' ' :: (spelledItems [] elements ++ [' ', '}'])
  | v => v.format.toList

/-- The texts of items, the first one behind `gap` and the others behind a comma. -/
def spelledItems (gap : List Char) : List Value → List Char
  | [] => []
  | v :: vs => gap ++ spelled v ++ spelledItems [',', ' '] vs

/-- The texts of entries, each in braces of its own. -/
def spelledEntries (gap : List Char) : List (Value × Value) → List Char
  | [] => []
  | (k, v) :: es =>
    gap ++ '{' :: ' ' :: (spelled k ++ ',' :: ' ' :: (spelled v ++ ' ' :: '}' ::
      spelledEntries [',', ' '] es))

end

mutual

/-- Writing a value appends its text. -/
theorem toList_write (out : String) : (v : Value) → (write out v).toList = out.toList ++ spelled v
  | .null | .bool _ | .int _ | .float _ | .text _ | .char _ | .sealed _ _ | .native _ => by
      simp [write, spelled, Value.format]
  | .list items => by
      simp [write, spelled, toList_writeItems]
  | .map entries => by
      simp [write, spelled, toList_writeEntries]
  | .iterable _ elements _ => by
      simp [write, spelled, toList_writeItems]

theorem toList_writeItems (out gap : String) :
    (items : List Value) →
      (writeItems out gap items).toList = out.toList ++ spelledItems gap.toList items
  | [] => by simp [writeItems, spelledItems]
  | v :: vs => by
      simp [writeItems, spelledItems, toList_writeItems, toList_write]

theorem toList_writeEntries (out gap : String) :
    (entries : List (Value × Value)) →
      (writeEntries out gap entries).toList = out.toList ++ spelledEntries gap.toList entries
  | [] => by simp [writeEntries, spelledEntries]
  | (k, v) :: es => by
      simp [writeEntries, spelledEntries, toList_writeEntries, toList_write]

end

theorem toList_format (v : Value) : v.format.toList = v.spelled := by
  simp [format, toList_write]

mutual

/-- A text that is read outside of a string, behind a character. -/
inductive Outside : Char → List Char → Prop
  | nil {p : Char} : Outside p []
  | char {p c : Char} {t : List Char} (notMark : c ≠ '"') (rest : Outside c t) : Outside p (c :: t)
  | literal {t : List Char} (rest : Outside '\'' t) : Outside '\'' ('"' :: '\'' :: t)
  | opens {t : List Char} (rest : Inside '"' t) : Outside ' ' ('"' :: t)

/-- A text that is read inside of a string, behind a character, up to the end of the string and on. -/
inductive Inside : Char → List Char → Prop
  | char {p c : Char} {t : List Char} (notMark : c ≠ '"') (rest : Inside c t) : Inside p (c :: t)
  | mark {t : List Char} (rest : Inside '"' t) : Inside '\\' ('"' :: t)
  | closes {p : Char} {t : List Char} (single : t.head? ≠ some '\'') (rest : Outside '"' t) :
    Inside p ('"' :: t)

end

/-- No text can be read both outside and inside of a string. -/
theorem Outside.not_inside {p : Char} {t : List Char} (hout : Outside p t) : ¬ Inside p t := by
  induction t generalizing p with
  | nil => nofun
  | cons c t ih =>
      intro hin
      cases hout with
      | char hmark hout =>
          cases hin with
          | char _ hin => exact ih hout hin
          | mark _ => exact hmark rfl
          | closes _ _ => exact hmark rfl
      | literal hout =>
          cases hin with
          | char hmark _ => exact hmark rfl
          | closes hsingle _ => exact hsingle rfl
      | opens hin' =>
          cases hin with
          | char hmark _ => exact hmark rfl
          | closes _ hout => exact ih hout hin'

end ReplDaemon.Value
