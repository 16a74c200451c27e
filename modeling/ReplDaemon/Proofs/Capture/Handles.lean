import Mathlib.Data.List.Basic
import ReplDaemon.Proofs.Capture

/-!
# Captures behind handles

Several handles may be on one capture, and whoever has one may write, clear the capture or take the text
out. What is taken out depends on nothing but the whole text written since the capture was last empty:
it is all of it if that is within the limit, and otherwise the longest part in front that is, with the
notice. How the text was cut into writes, and which handles they went through, does not matter.
-/

namespace ReplDaemon

/-- Some items, and for every handle the number of its item. -/
structure Shelf (α : Type) where
  items : List α
  handles : List Nat

namespace Shelf

variable {α β Use Reply : Type}

/-- What happens to items: one more is there with its first handle, a handle gets another one on the same
item, or an item is used through a handle. -/
inductive Event (Use : Type) where
  | begin
  | clone (handle : Nat)
  | use (handle : Nat) (use : Use)

/-- No items and no handles. -/
def bare : Shelf α where
  items := []
  handles := []

/-- The item behind a handle, with its number. -/
def item? (s : Shelf α) (handle : Nat) : Option (Nat × α) :=
  s.handles[handle]?.bind fun n => s.items[n]?.map (n, ·)

/-- What happens to the items, and the reply. Items are `fresh` at first, and `use` tells what becomes of
one that is used. -/
def step (fresh : α) (use : α → Use → Option Reply × α) (s : Shelf α) :
    Event Use → Option Reply × Shelf α
  | .begin =>
    (none, { items := s.items ++ [fresh], handles := s.handles ++ [s.items.length] })
  | .clone handle => (none, { s with handles := s.handles ++ s.handles[handle]?.toList })
  | .use handle u =>
    match s.item? handle with
    | none => (none, s)
    | some (n, a) => ((use a u).1, { s with items := s.items.set n (use a u).2 })

/-- The replies to what happens, one after the other. -/
def replies (fresh : α) (use : α → Use → Option Reply × α) (s : Shelf α) :
    List (Event Use) → List (Option Reply)
  | [] => []
  | event :: rest =>
    let (reply, s) := s.step fresh use event
    reply :: s.replies fresh use rest

/-- Each item is another one's picture. -/
def map (f : β → α) (s : Shelf β) : Shelf α where
  items := s.items.map f
  handles := s.handles

section

variable {f : β → α} {fresh : α} {fresh' : β} {use : α → Use → Option Reply × α}
  {use' : β → Use → Option Reply × β}

theorem step_map (hfresh : f fresh' = fresh)
    (huse : ∀ (b : β) (u : Use), use (f b) u = ((use' b u).1, f (use' b u).2)) (s : Shelf β)
    (event : Event Use) :
    (s.map f).step fresh use event =
      ((s.step fresh' use' event).1, (s.step fresh' use' event).2.map f) := by
  cases event with
  | begin => simp [step, map, hfresh]
  | clone handle => rfl
  | use handle u =>
      have hitem : (s.map f).item? handle = (s.item? handle).map fun (n, b) => (n, f b) := by
        unfold item? map
        cases s.handles[handle]? with
        | none => rfl
        | some n => simp [Function.comp_def]
      rw [step, step, hitem]
      cases s.item? handle with
      | none => rfl
      | some found => simp [huse, map]

/-- Items that are pictures of others, before and after each use, give the same replies. -/
theorem replies_map (hfresh : f fresh' = fresh)
    (huse : ∀ (b : β) (u : Use), use (f b) u = ((use' b u).1, f (use' b u).2)) (s : Shelf β)
    (events : List (Event Use)) :
    (s.map f).replies fresh use events = s.replies fresh' use' events := by
  induction events generalizing s with
  | nil => rfl
  | cons event rest ih =>
      rw [replies, replies, step_map hfresh huse]
      exact congrArg _ (ih _)

end

end Shelf

namespace Capture

/-- Behind some characters, the others have the room that these leave; and once one of them does not fit,
the others do not count. -/
theorem appendFitting_append (text : String) (room : Nat) (cs ds : List Char) :
    appendFitting text room (cs ++ ds) =
      if (String.ofList cs).utf8ByteSize ≤ room then
        appendFitting (text ++ .ofList cs) (room - (String.ofList cs).utf8ByteSize) ds
      else appendFitting text room cs := by
  induction cs generalizing text room with
  | nil => simp
  | cons c cs ih =>
      have hsize : (String.ofList (c :: cs)).utf8ByteSize =
          c.utf8Size + (String.ofList cs).utf8ByteSize := by
        rw [String.ofList_cons, String.utf8ByteSize_append, String.utf8ByteSize_singleton]
      have htext : text.push c ++ .ofList cs = text ++ .ofList (c :: cs) := by
        rw [String.ofList_cons, ← String.append_assoc, String.append_singleton]
      rw [List.cons_append, appendFitting, appendFitting, ih, hsize, htext, Nat.sub_sub]
      by_cases hfits : c.utf8Size ≤ room
      · rw [if_pos hfits, if_pos hfits]
        by_cases hrest : (String.ofList cs).utf8ByteSize ≤ room - c.utf8Size
        · rw [if_pos hrest, if_pos (by omega)]
        · rw [if_neg hrest, if_neg (by omega)]
      · rw [if_neg hfits, if_neg hfits, if_neg (by omega)]

/-- What is appended are characters in front that fit, up to one that does not. -/
theorem exists_appendFitting (text : String) (room : Nat) (cs : List Char) :
    ∃ front behind : List Char, cs = front ++ behind ∧
      appendFitting text room cs = text ++ .ofList front ∧
      (String.ofList front).utf8ByteSize ≤ room ∧
      ∀ c ∈ behind.head?, room < (String.ofList front).utf8ByteSize + c.utf8Size := by
  induction cs generalizing text room with
  | nil => exact ⟨[], [], rfl, String.append_empty.symm, Nat.zero_le _, nofun⟩
  | cons c cs ih =>
      rw [appendFitting]
      split
      · next hfits =>
          obtain ⟨front, behind, rfl, htext, hroom, hnext⟩ := ih (text.push c) (room - c.utf8Size)
          have hsize : (String.ofList (c :: front)).utf8ByteSize =
              c.utf8Size + (String.ofList front).utf8ByteSize := by
            rw [String.ofList_cons, String.utf8ByteSize_append, String.utf8ByteSize_singleton]
          refine ⟨c :: front, behind, rfl, ?_, by omega, fun d hd => ?_⟩
          · rw [htext, String.ofList_cons, ← String.append_assoc, String.append_singleton]
          · have hlt := hnext d hd
            omega
      · next hfits =>
          refine ⟨[], c :: cs, rfl, String.append_empty.symm, Nat.zero_le _, fun d hd => ?_⟩
          cases hd
          exact Nat.lt_of_not_le (by simpa using hfits)

/-- A text in front of another one that is within the limit, and reaches as far as any other such text. -/
structure LongestPrefix (limit : Nat) (whole front : String) : Prop where
  leads : ∃ behind : String, whole = front ++ behind
  fits : front.utf8ByteSize ≤ limit
  longest : ∀ other behind : String, whole = other ++ behind → other.utf8ByteSize ≤ limit →
    ∃ more : String, front = other ++ more

/-- All that fits of a text is the longest part in front of it that does. -/
theorem longestPrefix_appendFitting (limit : Nat) (whole : String) :
    LongestPrefix limit whole (appendFitting "" limit whole.toList) := by
  obtain ⟨front, behind, hwhole, htext, hroom, hnext⟩ :=
    exists_appendFitting "" limit whole.toList
  rw [String.empty_append] at htext
  rw [htext]
  refine ⟨⟨.ofList behind, ?_⟩, hroom, fun other rest heq hfits => ?_⟩
  · rw [← String.ofList_append, ← hwhole, String.ofList_toList]
  · rw [heq, String.toList_append] at hwhole
    rcases List.append_eq_append_iff.mp hwhole with ⟨more, hfront, -⟩ | ⟨more, hother, hbehind⟩
    · exact ⟨.ofList more, by rw [hfront, String.ofList_append, String.ofList_toList]⟩
    · -- The other one would reach over the character that does not fit any more.
      cases more with
      | nil =>
          rw [List.append_nil] at hother
          exact ⟨"", by rw [← hother, String.ofList_toList, String.append_empty]⟩
      | cons c more =>
          have hlt := hnext c (by rw [hbehind]; rfl)
          have hsize : other.utf8ByteSize = (String.ofList front).utf8ByteSize +
              (c.utf8Size + (String.ofList more).utf8ByteSize) := by
            rw [← String.ofList_toList (s := other), hother, String.ofList_append,
              String.utf8ByteSize_append, String.ofList_cons, String.utf8ByteSize_append,
              String.utf8ByteSize_singleton]
          omega

/-- A capture into which a text has been written. -/
def holding (limit : Nat) (whole : String) : Capture :=
  if whole.utf8ByteSize ≤ limit then { limit, text := whole, truncated := false }
  else { limit, text := appendFitting "" limit whole.toList, truncated := true }

theorem holding_empty (limit : Nat) : holding limit "" = empty limit :=
  if_pos (Nat.zero_le limit)

theorem holding_of_le {limit : Nat} {whole : String} (h : whole.utf8ByteSize ≤ limit) :
    holding limit whole = { limit, text := whole, truncated := false } :=
  if_pos h

theorem holding_of_lt {limit : Nat} {whole : String} (h : limit < whole.utf8ByteSize) :
    holding limit whole =
      { limit, text := appendFitting "" limit whole.toList, truncated := true } :=
  if_neg (Nat.not_le.mpr h)

/-- Text is written behind text as if both had been written at once. -/
theorem write_holding (limit : Nat) (whole s : String) :
    (holding limit whole).write s = holding limit (whole ++ s) := by
  have hsize : (whole ++ s).utf8ByteSize = whole.utf8ByteSize + s.utf8ByteSize :=
    String.utf8ByteSize_append
  have happend := appendFitting_append "" limit whole.toList s.toList
  rw [String.ofList_toList, String.empty_append, ← String.toList_append] at happend
  rcases Nat.lt_or_ge limit whole.utf8ByteSize with hlt | hle
  · rw [holding_of_lt hlt, write_of_truncated rfl, holding_of_lt (by omega), happend,
      if_neg (by omega)]
  · rw [holding_of_le hle, write, if_neg Bool.false_ne_true]
    dsimp only
    split
    · rw [holding_of_le (by omega)]
    · rw [holding_of_lt (by omega), happend, if_pos hle]

theorem writeLine_holding (limit : Nat) (whole s : String) :
    (holding limit whole).writeLine s = holding limit (whole ++ s ++ "\n") := by
  rw [writeLine, write_holding, write_holding]

theorem foldl_write_holding (limit : Nat) (whole : String) (pieces : List String) :
    pieces.foldl write (holding limit whole) = holding limit (whole ++ String.join pieces) := by
  induction pieces generalizing whole with
  | nil => simp
  | cons piece pieces ih =>
      rw [List.foldl_cons, write_holding, ih, String.join_cons, String.append_assoc]

theorem clear_holding (limit : Nat) (whole : String) :
    (holding limit whole).clear = holding limit "" := by
  rw [clear, holding_empty]
  unfold holding
  split <;> rfl

/-- Only a capture into which nothing was written is empty, also if there is no room for anything. -/
theorem isEmpty_holding (limit : Nat) (whole : String) :
    (holding limit whole).isEmpty = (whole == "") := by
  rcases Nat.lt_or_ge limit whole.utf8ByteSize with hlt | hle
  · have hwhole : whole ≠ "" := by
      rintro rfl
      exact absurd hlt (Nat.not_lt_zero limit)
    rw [holding_of_lt hlt]
    simp [isEmpty, hwhole]
  · rw [holding_of_le hle, Bool.eq_iff_iff]
    simp [isEmpty]

/-- What shows of a text: all of it if it is within the limit, and otherwise the longest part in front that
is, with the notice. -/
inductive Shows (limit : Nat) (whole : String) : String → Prop
  | all (fits : whole.utf8ByteSize ≤ limit) : Shows limit whole whole
  | cut {front : String} (exceeds : limit < whole.utf8ByteSize)
      (longest : LongestPrefix limit whole front) : Shows limit whole (front ++ notice)

theorem shows_holding (limit : Nat) (whole : String) :
    Shows limit whole (holding limit whole).shown := by
  rcases Nat.lt_or_ge limit whole.utf8ByteSize with hlt | hle
  · rw [holding_of_lt hlt]
    exact .cut hlt (longestPrefix_appendFitting limit whole)
  · rw [holding_of_le hle]
    exact .all hle

/-- What is done through a handle. -/
inductive Use where
  | write (s : String)
  | writeLine (s : String)
  | format (pieces : List String)
  | clear
  | take
  | isEmpty

/-- What is replied to someone who takes the text out or asks whether there is none. -/
inductive Reply where
  | taken (text : String)
  | empty (isEmpty : Bool)
  deriving DecidableEq

/-- What a use does to a capture. A formatted text is written in pieces. -/
def use (c : Capture) : Use → Option Reply × Capture
  | .write s => (none, c.write s)
  | .writeLine s => (none, c.writeLine s)
  | .format pieces => (none, pieces.foldl write c)
  | .clear => (none, c.clear)
  | .take => (some (.taken c.take.1), c.take.2)
  | .isEmpty => (some (.empty c.isEmpty), c)

/-- What a use does to the whole text written, where `shown` tells what is shown of it. -/
def useWhole (shown : String → String) (whole : String) : Use → Option Reply × String
  | .write s => (none, whole ++ s)
  | .writeLine s => (none, whole ++ s ++ "\n")
  | .format pieces => (none, whole ++ String.join pieces)
  | .clear => (none, "")
  | .take => (some (.taken (shown whole)), "")
  | .isEmpty => (some (.empty (whole == "")), whole)

theorem use_holding (limit : Nat) (whole : String) (u : Use) :
    (holding limit whole).use u =
      ((useWhole (fun whole => (holding limit whole).shown) whole u).1,
        holding limit (useWhole (fun whole => (holding limit whole).shown) whole u).2) := by
  cases u with
  | write s => rw [use, write_holding, useWhole]
  | writeLine s => rw [use, writeLine_holding, useWhole]
  | format pieces => rw [use, foldl_write_holding, useWhole]
  | clear => rw [use, clear_holding, useWhole]
  | take => rw [use, take, clear_holding, useWhole]
  | isEmpty => rw [use, isEmpty_holding, useWhole]

/-- Captures of any limit, whatever is done through whichever of their handles, reply as if each kept the
whole text that was written into it since it was cleared or taken out last, and showed of it all that is
within the limit. -/
theorem replies_whole (limit : Nat) :
    ∃ shown : String → String, (∀ whole, Shows limit whole (shown whole)) ∧
      ∀ events : List (Shelf.Event Use),
        Shelf.replies (empty limit) use .bare events =
          Shelf.replies "" (useWhole shown) .bare events :=
  ⟨fun whole => (holding limit whole).shown, shows_holding limit, fun events =>
    Shelf.replies_map (holding_empty limit) (use_holding limit) .bare events⟩

/-- A character of two bytes that would reach over the limit, and something behind it. -/
example : Shelf.replies (empty 5) use .bare
      [.begin, .clone 0, .use 0 (.write "abcd"), .use 1 (.format ["é", "é"]), .use 0 (.write "x"),
        .use 1 .take, .use 0 .isEmpty] =
    [none, none, none, none, none, some (.taken "abcd\n(output truncated)"),
      some (.empty true)] := by
  decide

end Capture

end ReplDaemon
