import ReplDaemon.Script.Program.Parser

/-!
# Readers and their depth

What a reader started at some depth ensures if it succeeds: the depth behind it, and a property of what
it reads. One rule for each way in which readers are put together.
-/

namespace ReplDaemon.Script

namespace Parser

variable {α β : Type}

theorem bind_of_ok {p : Parser α} {f : α → Parser β} {c d : Cursor} {a : α} (h : p c = .ok (a, d)) :
    (p >>= f) c = f a d := by
  change (p c >>= fun x => f x.1 x.2) = f a d
  rw [h]
  rfl

theorem bind_of_error {p : Parser α} {f : α → Parser β} {c : Cursor} {e : ParseError}
    (h : p c = .error e) : (p >>= f) c = .error e := by
  change (p c >>= fun x => f x.1 x.2) = .error e
  rw [h]
  rfl

theorem terminator_eq_bind :
    terminator = (do
      match ← peek with
      | none => return true
      | some (.delimiter .semicolon) =>
        discard next
        return false
      | some (.delimiter .closeBrace) => return false
      | some _ => reject (.delimiter .semicolon) (← next)) := by
  funext c
  obtain ⟨rest, last, depth⟩ := c
  cases rest with
  | nil => rfl
  | cons t rest =>
      obtain ⟨token, position⟩ := t
      cases token with
      | delimiter close => cases close <;> rfl
      | int | float | text | char | keyword | identifier | operator => rfl

/-- What the reader `p` reads at the depth `d` has the property `post`, and the depth is `d'`
behind it. -/
def Ensures (d d' : Nat) (p : Parser α) (post : α → Prop) : Prop :=
  ∀ (c c' : Cursor) (a : α), c.depth = d → p c = .ok (a, c') → c'.depth = d' ∧ post a

namespace Ensures

variable {d d' d'' levels : Nat} {p : Parser α} {post post' : α → Prop} {close : Delimiter}

theorem pure {a : α} (h : post a) : Ensures d d (Pure.pure a) post := by
  intro c c' b hd hread
  cases hread
  exact ⟨hd, h⟩

theorem error {e : Cursor → ParseError} : Ensures d d' (fun c => .error (e c) : Parser α) post := by
  intro c c' a _ hread
  cases hread

theorem bind {f : α → Parser β} {goal : β → Prop} (h : Ensures d d' p post)
    (hf : ∀ a : α, post a → Ensures d' d'' (f a) goal) : Ensures d d'' (p >>= f) goal := by
  intro c c' b hd hread
  cases hp : p c with
  | error e =>
      rw [bind_of_error hp] at hread
      cases hread
  | ok x =>
      rw [bind_of_ok hp] at hread
      obtain ⟨hd', ha⟩ := h c x.2 x.1 hd hp
      exact hf x.1 ha x.2 c' b hd' hread

theorem mono (h : Ensures d d' p post) (himp : ∀ a : α, post a → post' a) :
    Ensures d d' p post' :=
  fun c c' a hd hread => ⟨(h c c' a hd hread).1, himp a (h c c' a hd hread).2⟩

theorem next : Ensures d d Parser.next fun _ => True := by
  intro c c' t hd hread
  unfold Parser.next at hread
  split at hread
  · cases hread
  · cases hread
    exact ⟨hd, trivial⟩

theorem discard (h : Ensures d d' p post) :
    Ensures d d' (Functor.discard p : Parser PUnit) fun _ => True :=
  h.bind fun _ _ => .pure trivial

theorem get : Ensures d d (MonadState.get : Parser Cursor) fun _ => True := by
  intro c c' t hd hread
  cases hread
  exact ⟨hd, trivial⟩

theorem peek : Ensures d d Parser.peek fun _ => True := by
  intro c c' t hd hread
  cases hread
  exact ⟨hd, trivial⟩

theorem remaining : Ensures d d Parser.remaining fun _ => True := by
  intro c c' t hd hread
  cases hread
  exact ⟨hd, trivial⟩

theorem descend : Ensures d (d + 1) Parser.descend fun _ => d < maxDepth := by
  intro c c' a hd hread
  unfold Parser.descend at hread
  split at hread
  · next hlt =>
      cases hread
      exact ⟨congrArg (· + 1) hd, hd ▸ hlt⟩
  · cases hread

theorem ascend : Ensures (d + levels) d (Parser.ascend levels) fun _ => True := by
  intro c c' a hd hread
  unfold Parser.ascend at hread
  split at hread
  · cases hread
    refine ⟨?_, trivial⟩
    rw [hd, Nat.add_sub_cancel]
  · cases hread

/-- What is read one level deeper. -/
theorem nested (h : d < maxDepth → Ensures (d + 1) (d + 1) p post) :
    Ensures d d (Parser.nested p) fun a => d < maxDepth ∧ post a :=
  descend.bind fun _ hlt => (h hlt).bind fun _ ha => ascend.bind fun _ _ => .pure ⟨hlt, ha⟩

theorem atDelimiter : Ensures d d (Parser.atDelimiter close) fun _ => True := by
  apply peek.bind
  intro t _
  split <;> exact .pure trivial

theorem eat : Ensures d d (Parser.eat close) fun _ => True := by
  apply atDelimiter.bind
  intro found _
  split
  · exact next.discard.bind fun _ _ => .pure trivial
  · exact .pure trivial

theorem expect : Ensures d d (Parser.expect close) fun _ => True := by
  apply next.bind
  intro t _
  split
  · split
    · exact .pure trivial
    · exact .error
  · exact .error

theorem name : Ensures d d Parser.name fun _ => True := by
  apply next.bind
  intro t _
  split
  · exact .pure trivial
  · exact .error

theorem terminator : Ensures d d Parser.terminator fun _ => True := by
  intro c c' ended hd hread
  unfold Parser.terminator at hread
  split at hread
  · cases hread
    exact ⟨hd, trivial⟩
  · split at hread
    · cases hread
      exact ⟨hd, trivial⟩
    · cases hread
      exact ⟨hd, trivial⟩
    · cases hread

theorem binaryOp? {looseness : Nat} : Ensures d d (Parser.binaryOp? looseness) fun _ => True := by
  apply peek.bind
  intro t _
  split <;> exact .pure trivial

theorem unaryOp? : Ensures d d Parser.unaryOp? fun _ => True := by
  apply peek.bind
  intro t _
  split <;> exact .pure trivial

/-- The items behind the first one are all like the item. -/
theorem itemsFrom (h : Ensures d d p post) (found : List α) (rounds : List PlacedToken)
    (hfound : ∀ a ∈ found, post a) :
    Ensures d d (Parser.itemsFrom p close found rounds) fun list => ∀ a ∈ list, post a := by
  have hdone : ∀ a ∈ found.reverse, post a := fun a ha => hfound a (List.mem_reverse.mp ha)
  induction rounds generalizing found with
  | nil => exact .error
  | cons _ rounds ih =>
      apply eat.bind
      intro closed _
      split
      · exact .pure hdone
      · apply expect.bind
        intro _ _
        apply eat.bind
        intro closed' _
        split
        · exact .pure hdone
        · apply h.bind
          intro a ha
          have hnext : ∀ b ∈ a :: found, post b := by
            intro b hb
            rcases List.mem_cons.mp hb with rfl | hb
            · exact ha
            · exact hfound b hb
          exact ih (a :: found) hnext fun b hb => hnext b (List.mem_reverse.mp hb)

theorem items (h : Ensures d d p post) :
    Ensures d d (Parser.items p close) fun list => ∀ a ∈ list, post a := by
  apply eat.bind
  intro closed _
  split
  · exact .pure fun a ha => absurd ha List.not_mem_nil
  · apply h.bind
    intro a ha
    apply remaining.bind
    intro rounds _
    apply h.itemsFrom [a] rounds
    intro b hb
    rw [List.mem_singleton.mp hb]
    exact ha

end Ensures

end Parser

end ReplDaemon.Script
