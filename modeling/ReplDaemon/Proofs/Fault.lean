import Mathlib.Tactic
import ReplDaemon.Capture

/-!
# Operations that are not defined everywhere

Indexing, subtracting and cutting a text are only defined within bounds. Here they are given as what
they are: operations that come to a fault outside of them. Output is cut by looking for a character
boundary from the limit downwards; there always is one, and the cut is the one that captures make.
-/

namespace ReplDaemon

/-- What an operation is not defined for. -/
inductive Fault where
  /-- An index that is not below the length. -/
  | index (index length : Nat)
  /-- A difference below zero. -/
  | difference (minuend subtrahend : Nat)
  /-- A number of bytes that does not end a character of the text. -/
  | boundary (bytes : Nat)
  /-- A case that is not meant to occur. -/
  | unreachable
  deriving Repr, DecidableEq

namespace Fault

variable {α : Type}

/-- The item at an index. -/
def item (items : List α) (i : Nat) : Except Fault α :=
  if h : i < items.length then .ok items[i] else .error (.index i items.length)

/-- The items with another one at an index. -/
def setItem (items : List α) (i : Nat) (a : α) : Except Fault (List α) :=
  if i < items.length then .ok (items.set i a) else .error (.index i items.length)

/-- A difference of numbers that are not negative. -/
def minus (a b : Nat) : Except Fault Nat :=
  if b ≤ a then .ok (a - b) else .error (.difference a b)

/-- The bytes that a text takes. -/
def byteLength (text : List Char) : Nat :=
  (text.map Char.utf8Size).sum

/-- Whether a character or the end of a text is so many bytes from its start. -/
def isBoundary : List Char → Nat → Bool
  | _, 0 => true
  | [], _ + 1 => false
  | c :: cs, bytes + 1 => c.utf8Size ≤ bytes + 1 && isBoundary cs (bytes + 1 - c.utf8Size)

/-- The characters that the first bytes of a text are, and those behind them. -/
def cut : List Char → Nat → Except Fault (List Char × List Char)
  | text, 0 => .ok ([], text)
  | [], bytes + 1 => .error (.boundary (bytes + 1))
  | c :: cs, bytes + 1 =>
    if c.utf8Size ≤ bytes + 1 then
      (cut cs (bytes + 1 - c.utf8Size)).map fun (before, behind) => (c :: before, behind)
    else .error (.boundary (bytes + 1))

theorem item_of_lt {items : List α} {i : Nat} (h : i < items.length) : item items i = .ok items[i] :=
  dif_pos h

theorem setItem_of_lt {items : List α} {i : Nat} (h : i < items.length) (a : α) :
    setItem items i a = .ok (items.set i a) :=
  if_pos h

theorem minus_of_le {a b : Nat} (h : b ≤ a) : minus a b = .ok (a - b) :=
  if_pos h

@[simp] theorem byteLength_nil : byteLength [] = 0 := rfl

@[simp] theorem byteLength_cons (c : Char) (cs : List Char) :
    byteLength (c :: cs) = c.utf8Size + byteLength cs := rfl

@[simp] theorem byteLength_append (before behind : List Char) :
    byteLength (before ++ behind) = byteLength before + byteLength behind := by
  simp [byteLength]

theorem isBoundary_zero (text : List Char) : isBoundary text 0 = true := by
  cases text <;> rfl

theorem cut_zero (text : List Char) : cut text 0 = .ok ([], text) := by
  cases text <;> rfl

theorem isBoundary_cons (c : Char) (cs : List Char) {bytes : Nat} (h : 0 < bytes) :
    isBoundary (c :: cs) bytes = (decide (c.utf8Size ≤ bytes) && isBoundary cs (bytes - c.utf8Size)) := by
  obtain ⟨n, rfl⟩ := Nat.exists_eq_add_one_of_ne_zero (Nat.pos_iff_ne_zero.mp h)
  rfl

theorem cut_cons (c : Char) (cs : List Char) {bytes : Nat} (h : 0 < bytes) :
    cut (c :: cs) bytes =
      if c.utf8Size ≤ bytes then
        (cut cs (bytes - c.utf8Size)).map fun (before, behind) => (c :: before, behind)
      else .error (.boundary bytes) := by
  obtain ⟨n, rfl⟩ := Nat.exists_eq_add_one_of_ne_zero (Nat.pos_iff_ne_zero.mp h)
  rfl

/-- A text may be cut behind any of its characters. -/
theorem cut_append (before behind : List Char) :
    cut (before ++ behind) (byteLength before) = .ok (before, behind) := by
  induction before with
  | nil => exact cut_zero behind
  | cons c cs ih =>
      have hpos : 0 < c.utf8Size := c.utf8Size_pos
      rw [List.cons_append, byteLength_cons, cut_cons c _ (Nat.lt_add_right _ hpos),
        if_pos (Nat.le_add_right _ _), Nat.add_sub_cancel_left, ih]
      rfl

end Fault

namespace Capture

open Fault

/-- The last boundary of a text that is no further than some bytes from its start. -/
def boundaryFrom (text : List Char) : (bytes : Nat) → Except Fault Nat
  | 0 => if isBoundary text 0 then .ok 0 else minus 0 1
  | bytes + 1 => if isBoundary text (bytes + 1) then .ok (bytes + 1) else boundaryFrom text bytes

/-- Writes a text, or what is left of it up to the last boundary within the room there is. -/
def writeCut (c : Capture) (s : String) : Except Fault Capture :=
  if c.truncated then .ok c
  else
    let room := c.limit - c.text.utf8ByteSize
    if s.utf8ByteSize ≤ room then .ok { c with text := c.text ++ s }
    else do
      let bytes ← boundaryFrom s.toList room
      let (before, _) ← cut s.toList bytes
      return { c with text := c.text ++ String.ofList before, truncated := true }

/-- Writes a line. -/
def writeLineCut (c : Capture) (s : String) : Except Fault Capture := do
  (← c.writeCut s).writeCut "\n"

/-- From within the first character, the last boundary is the start. -/
theorem boundaryFrom_of_lt {c : Char} (cs : List Char) {bytes : Nat} (h : bytes < c.utf8Size) :
    boundaryFrom (c :: cs) bytes = .ok 0 := by
  induction bytes with
  | zero => exact if_pos (isBoundary_zero _)
  | succ n ih =>
      rw [boundaryFrom, isBoundary_cons c cs n.succ_pos, decide_eq_false (Nat.not_le.mpr h),
        Bool.false_and, if_neg Bool.false_ne_true]
      exact ih (Nat.lt_of_succ_lt h)

theorem boundaryFrom_nil (bytes : Nat) : boundaryFrom [] bytes = .ok 0 := by
  induction bytes with
  | zero => rfl
  | succ n ih => exact ih

/-- From behind the first character, the last boundary is that of the text behind it. -/
theorem boundaryFrom_cons (c : Char) (cs : List Char) (bytes : Nat) :
    boundaryFrom (c :: cs) (c.utf8Size + bytes) =
      (boundaryFrom cs bytes).map (c.utf8Size + ·) := by
  have hpos : 0 < c.utf8Size := c.utf8Size_pos
  have hboundary (bytes : Nat) : isBoundary (c :: cs) (c.utf8Size + bytes) = isBoundary cs bytes := by
    rw [isBoundary_cons c cs (Nat.lt_add_right _ hpos), decide_eq_true (Nat.le_add_right _ _),
      Bool.true_and, Nat.add_sub_cancel_left]
  induction bytes with
  | zero =>
      obtain ⟨n, hn⟩ := Nat.exists_eq_add_one_of_ne_zero (Nat.pos_iff_ne_zero.mp hpos)
      have hzero := hboundary 0
      rw [Nat.add_zero, hn, isBoundary_zero] at hzero
      rw [Nat.add_zero, hn, boundaryFrom, if_pos (isBoundary_zero cs), boundaryFrom, if_pos hzero]
      rfl
  | succ n ih =>
      rw [← Nat.add_assoc, boundaryFrom, boundaryFrom, Nat.add_assoc, hboundary (n + 1)]
      split
      · rfl
      · exact ih

/-- The text up to the last boundary within the room is what fits into the room. -/
theorem exists_fitting (room : Nat) (text : List Char) :
    ∃ before behind, text = before ++ behind ∧
      boundaryFrom text room = .ok (byteLength before) ∧
      ∀ written, appendFitting written room text = written ++ String.ofList before := by
  induction text generalizing room with
  | nil => exact ⟨[], [], rfl, boundaryFrom_nil room, fun _ => String.append_empty.symm⟩
  | cons c cs ih =>
      by_cases hfits : c.utf8Size ≤ room
      · obtain ⟨rest, rfl⟩ := Nat.exists_eq_add_of_le hfits
        obtain ⟨before, behind, rfl, hboundary, happend⟩ := ih rest
        refine ⟨c :: before, behind, rfl, ?_, fun written => ?_⟩
        · rw [boundaryFrom_cons, hboundary]
          rfl
        · rw [appendFitting, if_pos hfits, Nat.add_sub_cancel_left, happend, ← String.toList_inj]
          simp
      · refine ⟨[], c :: cs, rfl, boundaryFrom_of_lt cs (Nat.not_le.mp hfits), fun written => ?_⟩
        rw [appendFitting, if_neg hfits]
        exact String.append_empty.symm

/-- Output is always cut at a boundary. -/
theorem writeCut_eq (c : Capture) (s : String) : c.writeCut s = .ok (c.write s) := by
  unfold writeCut write
  split
  · rfl
  · dsimp only
    split
    · rfl
    · obtain ⟨before, behind, htext, hboundary, happend⟩ :=
        exists_fitting (c.limit - c.text.utf8ByteSize) s.toList
      rw [hboundary, happend, htext]
      show (cut (before ++ behind) (byteLength before) >>= _) = _
      rw [cut_append]
      rfl

theorem writeLineCut_eq (c : Capture) (s : String) : c.writeLineCut s = .ok (c.writeLine s) := by
  rw [writeLineCut, writeCut_eq]
  exact writeCut_eq (c.write s) "\n"

end Capture

end ReplDaemon
