import ReplDaemon.Proofs.Capture
import ReplDaemon.Proofs.Number
import ReplDaemon.Proofs.Script.Nesting
import ReplDaemon.Proofs.Script.Passage
import ReplDaemon.Proofs.Supervisor.Texts

/-!
# What evaluations print and say

Programs print whole lines. And what an evaluation says behind its output, a value or an error, never
begins with a parenthesis: all values of the language are written as literals are.
-/

namespace ReplDaemon

/-- A text that does not begin with a parenthesis. -/
def Unparenthesized (text : String) : Prop :=
  text.toList.head? ≠ some '('

namespace Unparenthesized

theorem of_not_mem {text : String} (h : '(' ∉ text.toList) : Unparenthesized text :=
  fun hhead => h (List.mem_of_mem_head? hhead)

/-- The beginning of a text decides. -/
theorem of_front {c : Char} {front : List Char} {text : String} (hc : c ≠ '(')
    (h : c :: front <+: text.toList) : Unparenthesized text := by
  obtain ⟨rest, hrest⟩ := h
  intro hhead
  rw [← hrest] at hhead
  exact hc (Option.some.inj hhead)

theorem append {s : String} {c : Char} (hs : s.toList.head? = some c) (hc : c ≠ '(') (t : String) :
    Unparenthesized (s ++ t) := by
  rw [Unparenthesized, String.toList_append, List.head?_append, hs]
  exact fun h => hc (Option.some.inj h)

end Unparenthesized

namespace Number

theorem not_mem_decimal (d : Decimal) : '(' ∉ d.text.toList := by
  have hdigits : '(' ∉ Nat.toDigits 10 d.digits := not_mem_toDigits (by decide) d.digits
  have hzeros (n : Nat) : '(' ∉ List.replicate n '0' :=
    fun h => absurd (List.eq_of_mem_replicate h) (by decide)
  unfold Decimal.text
  dsimp only
  split
  · rw [String.toList_ofList, List.mem_append, not_or]
    exact ⟨hdigits, hzeros _⟩
  · have hpadded (n : Nat) : '(' ∉ List.replicate n '0' ++ Nat.toDigits 10 d.digits := by
      rw [List.mem_append, not_or]
      exact ⟨hzeros n, hdigits⟩
    rw [String.toList_ofList, List.mem_append, List.mem_cons, not_or, not_or]
    exact ⟨fun h => hpadded _ (List.mem_of_mem_take h), by decide,
      fun h => hpadded _ (List.mem_of_mem_drop h)⟩

theorem not_mem_floatText (x : Float) : '(' ∉ (floatText x).toList := by
  unfold floatText
  split
  · decide
  · split <;> decide
  · next d _ =>
      have hmagnitude : '(' ∉ (if d.mantissa = 0 then "0" else (shortest d).text).toList := by
        split
        · decide
        · exact not_mem_decimal _
      dsimp only
      split
      · rw [String.toList_append, List.mem_append, not_or]
        exact ⟨by decide, hmagnitude⟩
      · exact hmagnitude

end Number

namespace Value

theorem prefix_append (s t : String) : s.toList <+: (s ++ t).toList := by
  rw [String.toList_append]
  exact List.prefix_append _ _

mutual

/-- Writing a value appends to what is there. -/
theorem prefix_write (out : String) : (v : Value) → out.toList <+: (write out v).toList
  | .null | .bool _ | .int _ | .float _ | .text _ | .char _ | .sealed _ _ | .native _ =>
    prefix_append out _
  | .list items =>
    (prefix_append out _).trans ((prefix_writeItems _ "" items).trans (prefix_append _ _))
  | .map entries =>
    (prefix_append out _).trans ((prefix_writeEntries _ "" entries).trans (prefix_append _ _))
  | .iterable _ elements _ =>
    (prefix_append out _).trans ((prefix_writeItems _ "" elements).trans (prefix_append _ _))

theorem prefix_writeItems (out gap : String) :
    (items : List Value) → out.toList <+: (writeItems out gap items).toList
  | [] => List.prefix_refl _
  | v :: vs =>
    (prefix_append out gap).trans ((prefix_write _ v).trans (prefix_writeItems _ ", " vs))

theorem prefix_writeEntries (out gap : String) :
    (entries : List (Value × Value)) → out.toList <+: (writeEntries out gap entries).toList
  | [] => List.prefix_refl _
  | (k, v) :: es =>
    (prefix_append out gap).trans <| (prefix_append _ _).trans <| (prefix_write _ k).trans <|
      (prefix_append _ _).trans <| (prefix_write _ v).trans <| (prefix_append _ _).trans <|
        prefix_writeEntries _ ", " es

end

/-- The values of the language: scalars, and containers of such values. -/
inductive OfScript : Value → Prop
  | scalar {v : Value} (isScalar : v.isScalar = true) : OfScript v
  | list {items : List Value} (parts : ∀ v ∈ items, OfScript v) : OfScript (.list items)
  | map {entries : List (Value × Value)} (keys : ∀ e ∈ entries, OfScript e.1)
      (values : ∀ e ∈ entries, OfScript e.2) : OfScript (.map entries)

theorem ofScript_list_iff {items : List Value} :
    OfScript (.list items) ↔ ∀ v ∈ items, OfScript v := by
  refine ⟨fun h => ?_, .list⟩
  cases h with
  | scalar isScalar => cases isScalar
  | list parts => exact parts

theorem ofScript_map_iff {entries : List (Value × Value)} :
    OfScript (.map entries) ↔ ∀ e ∈ entries, OfScript e.1 ∧ OfScript e.2 := by
  refine ⟨fun h => ?_, fun h => .map (fun e he => (h e he).1) fun e he => (h e he).2⟩
  cases h with
  | scalar isScalar => cases isScalar
  | map keys values => exact fun e he => ⟨keys e he, values e he⟩

/-- The literal of a value does not begin with a parenthesis. -/
theorem OfScript.format {v : Value} (h : OfScript v) : Unparenthesized v.format := by
  cases h with
  | @list items _ =>
      have hopen := (prefix_writeItems ("" ++ "\x7b ") "" items).trans (prefix_append _ " \x7d")
      exact .of_front (by decide) hopen
  | @map entries _ _ =>
      have hopen := (prefix_writeEntries ("" ++ "\x7b") "" entries).trans (prefix_append _ "\x7d")
      exact .of_front (by decide) hopen
  | scalar isScalar =>
      unfold Value.format
      cases v with
      | null => exact .of_not_mem (by decide)
      | bool b => cases b <;> exact .of_not_mem (by decide)
      | int i =>
          rw [write, String.empty_append]
          exact .of_not_mem (Number.not_mem_toString (by decide) (by decide) _)
      | float x =>
          rw [write, String.empty_append]
          exact .of_not_mem (Number.not_mem_floatText x)
      | text s =>
          rw [write, String.empty_append, quoted, String.append_assoc]
          exact .append rfl (by decide) _
      | char c =>
          rw [write, String.empty_append, quotedCharacter, String.append_assoc]
          exact .append rfl (by decide) _
      | list | map | iterable | sealed | native => cases isScalar

end Value

namespace Context

/-- The output of the one context becomes that of the other by lines written into it. -/
def Prints (c d : Context) : Prop :=
  ∃ lines : List String, d.output = (Capture.lineTexts lines).foldl Capture.write c.output

theorem passage_prints : Passage Prints where
  refl c := ⟨[], rfl⟩
  trans {c d e} h h' := by
    obtain ⟨lines, hd⟩ := h
    obtain ⟨lines', he⟩ := h'
    refine ⟨lines ++ lines', ?_⟩
    rw [he, hd, Capture.lineTexts, Capture.lineTexts, Capture.lineTexts, List.flatMap_append,
      List.foldl_append]
  later c _ _ := ⟨[], rfl⟩
  print c s := ⟨[s], rfl⟩

end Context

namespace Script

/-- Operations make nothing but values of the language. -/
theorem kept_ofScript : Kept Value.OfScript Value.OfScript where
  scalar := .scalar
  ofPart h := h
  nest h _ := h
  list_iff := Value.ofScript_list_iff
  noEntries := Value.ofScript_map_iff.mpr nofun
  entry h hmem := Value.ofScript_map_iff.mp h _ hmem
  assign h hkey hvalue hassigned :=
    Value.ofScript_map_iff.mpr <|
      forall_mem_assignKey hassigned (Value.ofScript_map_iff.mp h) (fun _ => hkey) hvalue

/-- Evaluations print lines. -/
theorem evaluate_prints (source : String) (vars : Bindings) (context : Context) :
    context.Prints (evaluate source vars context).context := by
  unfold evaluate evaluateWithin
  cases tokens source with
  | error e => exact Context.passage_prints.refl context
  | ok ts =>
      dsimp only
      cases Program.ofTokens ts with
      | error e => exact Context.passage_prints.refl context
      | ok p => exact p.run_built.passes Context.passage_prints _ ⟨vars, context⟩

theorem unparenthesized_syntaxError (e : String) : Unparenthesized ("syntax error: " ++ e) :=
  .append rfl (by decide) e

theorem ParseError.unparenthesized (e : ParseError) : Unparenthesized e.ending.appended := by
  cases e with
  | unexpectedEnd | unbalanced => exact .of_not_mem (by decide)
  | _ => exact unparenthesized_syntaxError _

/-- A run says its value, that it was cancelled, or its error. -/
theorem unparenthesized_ending {outcome : Except Stop (Option Value)}
    (hvalue : ∀ v, ending outcome = .returned (.ok (.completed (some v))) → v.OfScript) :
    Unparenthesized (ending outcome).appended := by
  rcases outcome with (_ | e | _) | _ | v
  · exact .of_not_mem (by decide)
  · exact .append rfl (by decide) e.message
  · exact .of_not_mem (by decide)
  · exact .of_not_mem (by decide)
  · exact (hvalue v rfl).format

/-- What an evaluation says behind its output. -/
theorem Reached.unparenthesized {vars : Bindings} (h : Reached vars) (source : String)
    (context : Context) : Unparenthesized (evaluate source vars context).ending.appended := by
  obtain ⟨-, -, -, -, hvalue⟩ :=
    evaluateWatched_eq kept_ofScript source (h.all kept_ofScript) context
  unfold evaluate evaluateWithin at hvalue ⊢
  cases htokens : tokens source with
  | error e => exact unparenthesized_syntaxError _
  | ok ts =>
      rw [htokens] at hvalue
      dsimp only at hvalue ⊢
      cases hprogram : Program.ofTokens ts with
      | error e => exact e.unparenthesized
      | ok p =>
          rw [hprogram] at hvalue
          exact unparenthesized_ending hvalue

end Script

end ReplDaemon
