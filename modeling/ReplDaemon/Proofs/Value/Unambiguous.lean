import ReplDaemon.Proofs.Value.Scalars

/-!
# Values told by their text

Two values of null, truth values, integers, texts, characters, and lists and maps of such values have the
same literal-like text only if they are the same.
-/

namespace ReplDaemon.Value

open Number

/-- Values of null, truth values, integers, texts and characters, and containers of such values. -/
inductive Exact : Value → Prop
  | null : Exact .null
  | bool (b : Bool) : Exact (.bool b)
  | int (i : Int64) : Exact (.int i)
  | text (s : String) : Exact (.text s)
  | char (c : Char) : Exact (.char c)
  | list {items : List Value} (parts : ∀ v ∈ items, Exact v) : Exact (.list items)
  | map {entries : List (Value × Value)} (keys : ∀ e ∈ entries, Exact e.1)
      (values : ∀ e ∈ entries, Exact e.2) : Exact (.map entries)

section Fronts

/-- The type of the value that a text begins with. -/
def typeRead : List Char → String
  | 'n' :: _ => "null"
  | 't' :: _ | 'f' :: _ => "bool"
  | '"' :: _ => "string"
  | '\'' :: _ => "char"
  | '{' :: ' ' :: _ => "list"
  | '{' :: _ => "map"
  | _ => "int"

theorem spelled_text (s : String) : (text s).spelled = '"' :: (stringBody s.toList ++ ['"']) := by
  simp [spelled, format, write, quoted, stringBody]

theorem spelled_char (c : Char) :
    (char c).spelled = '\'' :: ((characterBody c).toList ++ ['\'']) := by
  simp [spelled, format, write, quotedCharacter]

theorem spelled_int (i : Int64) : (int i).spelled = (toString i.toInt).toList := by
  simp [spelled, format, write]

theorem typeRead_of_isDigit {c : Char} (hc : c.isDigit = true) (t : List Char) :
    typeRead (c :: t) = "int" := by
  unfold typeRead
  split
  case h_8 => rfl
  all_goals
    next heq =>
      cases heq
      exact absurd hc (by decide)

theorem typeRead_integer (i : Int) (t : List Char) : typeRead ((toString i).toList ++ t) = "int" := by
  cases i with
  | ofNat n =>
      obtain ⟨c, cs, hdigits, hc⟩ := exists_digit n
      rw [toList_toString_ofNat, hdigits]
      exact typeRead_of_isDigit hc _
  | negSucc n =>
      rw [toList_toString_negSucc]
      rfl

/-- The front of a text tells the type of the value. -/
theorem typeRead_spelled {v : Value} (hv : Exact v) (t : List Char) :
    typeRead (v.spelled ++ t) = v.typeName := by
  cases hv with
  | null => rfl
  | bool b => cases b <;> rfl
  | int i => rw [spelled_int, typeRead_integer, typeName]
  | text s => simp [spelled_text, typeRead, typeName]
  | char c => simp [spelled_char, typeRead, typeName]
  | list _ => simp [spelled, typeRead, typeName]
  | @map entries _ _ =>
      cases entries with
      | nil => rfl
      | cons e es => rfl

theorem Exact.typeName_eq {v w : Value} (hv : Exact v) (hw : Exact w) {t u : List Char}
    (h : v.spelled ++ t = w.spelled ++ u) : v.typeName = w.typeName := by
  rw [← typeRead_spelled hv t, h, typeRead_spelled hw u]

end Fronts

section Closing

variable {t : List Char}

theorem outside_append {cs : List Char} (hcs : '"' ∉ cs) (ht : ∀ p, Outside p t) (p : Char) :
    Outside p (cs ++ t) := by
  induction cs generalizing p with
  | nil => exact ht p
  | cons c cs ih =>
      simp only [List.mem_cons, not_or] at hcs
      exact .char (fun h => hcs.1 h.symm) (ih hcs.2 c)

/-- A value whose text is read outside of strings where one begins, whatever stands behind it. -/
def Begins (v : Value) : Prop :=
  ∀ t, Rest t → Outside ' ' (v.spelled ++ t)

theorem Rest.close (ht : ∀ p, Outside p t) : Rest (' ' :: '}' :: t) :=
  ⟨fun _ => .char (by decide) (.char (by decide) (ht _)), by simp⟩

theorem Rest.next (ht : Rest t) {v : Value} (hv : Begins v) : Rest (',' :: ' ' :: (v.spelled ++ t)) :=
  ⟨fun _ => .char (by decide) (.char (by decide) (hv t ht)), by simp⟩

/-- What stands behind an item of a list. -/
theorem Rest.items (ht : Rest t) {vs : List Value} (hvs : ∀ v ∈ vs, Begins v) :
    Rest (spelledItems [',', ' '] vs ++ ' ' :: '}' :: t) := by
  induction vs with
  | nil => exact .close ht.outside
  | cons v vs ih =>
      have hrest := ih fun w hw => hvs w (by simp [hw])
      simpa [spelledItems] using hrest.next (hvs v (by simp))

theorem outside_entries (ht : Rest t) {es : List (Value × Value)}
    (hes : ∀ e ∈ es, Begins e.1 ∧ Begins e.2) {gap : List Char} (hgap : '"' ∉ gap) (p : Char) :
    Outside p (spelledEntries gap es ++ '}' :: t) := by
  induction es generalizing gap p with
  | nil => exact .char (by decide) (ht.outside _)
  | cons e es ih =>
      obtain ⟨hkey, hvalue⟩ := hes e (by simp)
      have hcomma : '"' ∉ [',', ' '] := by decide
      have hrest := Rest.close (ih (fun e he => hes e (by simp [he])) hcomma)
      have hentry : ∀ p, Outside p ('{' :: ' ' :: (e.1.spelled ++ ',' :: ' ' :: (e.2.spelled ++
          ' ' :: '}' :: (spelledEntries [',', ' '] es ++ '}' :: t)))) :=
        fun _ => .char (by decide) (.char (by decide) (hkey _ (hrest.next hvalue)))
      simpa [spelledEntries] using outside_append hgap hentry p

/-- What stands behind the value of an entry. -/
theorem Rest.entries (ht : Rest t) {es : List (Value × Value)}
    (hes : ∀ e ∈ es, Begins e.1 ∧ Begins e.2) :
    Rest (' ' :: '}' :: (spelledEntries [',', ' '] es ++ '}' :: t)) :=
  .close (outside_entries ht hes (by decide))

theorem begins_char (c : Char) : Begins (.char c) := by
  intro t ht
  rw [spelled_char]
  by_cases hc : c = '"'
  · subst hc
    have hliteral : Outside '\'' ('"' :: '\'' :: t) := .literal (ht.outside _)
    exact .char (by decide) hliteral
  · have hbody : '"' ∉ (characterBody c).toList := by
      by_cases hmem : c.toNat ∈ spelledOut
      · simpa using (spelling_of_mem _ hmem).2.1
      · simpa [characterBody_of_not_mem hmem] using Ne.symm hc
    have hliteral : '"' ∉ '\'' :: ((characterBody c).toList ++ ['\'']) := by simp [hbody]
    exact outside_append hliteral ht.outside _

theorem Exact.begins {v : Value} (hv : Exact v) : Begins v := by
  induction hv with
  | null => exact fun t ht => outside_append (by decide) ht.outside _
  | bool b => cases b <;> exact fun t ht => outside_append (by decide) ht.outside _
  | int i =>
      intro t ht
      rw [spelled_int]
      exact outside_append (not_mem_toString (by decide) (by decide) _) ht.outside _
  | text s =>
      intro t ht
      rw [spelled_text]
      simpa using Outside.opens (inside_stringBody s.toList ht '"')
  | char c => exact begins_char c
  | @list items parts ih =>
      intro t ht
      have hitems : Outside ' ' (spelledItems [] items ++ ' ' :: '}' :: t) := by
        cases items with
        | nil => exact (Rest.close ht.outside).outside _
        | cons v vs =>
            have hrest := ht.items fun w (hw : w ∈ vs) => ih w (by simp [hw])
            simpa [spelledItems] using ih v (by simp) _ hrest
      simpa [spelled] using Outside.char (by decide) (Outside.char (by decide) hitems)
  | map keys values ihKeys ihValues =>
      intro t ht
      have hentries := outside_entries ht (fun e he => ⟨ihKeys e he, ihValues e he⟩)
        (List.not_mem_nil) '{'
      simpa [spelled] using Outside.char (by decide) hentries

end Closing

section Cancelling

/-- A value that can be told from every other one by its text, and its text from what stands behind it. -/
def Cancels (v : Value) : Prop :=
  ∀ ⦃w : Value⦄ ⦃t u : List Char⦄, Exact w → Rest t → Rest u → v.spelled ++ t = w.spelled ++ u →
    v = w ∧ t = u

theorem Exact.head_ne_blank {v : Value} (hv : Exact v) (t : List Char) :
    (v.spelled ++ t).head? ≠ some ' ' := by
  cases hv with
  | null => simp [spelled, format, write]
  | bool b => cases b <;> simp [spelled, format, write, boolText]
  | int i =>
      rw [spelled_int]
      cases i.toInt with
      | ofNat n =>
          obtain ⟨c, cs, hdigits, hc⟩ := exists_digit n
          rw [toList_toString_ofNat, hdigits]
          rintro ⟨⟩
          exact absurd hc (by decide)
      | negSucc n =>
          rw [toList_toString_negSucc]
          simp
  | text s => simp [spelled_text]
  | char c => simp [spelled_char]
  | list _ => simp [spelled]
  | map _ _ => simp [spelled]

variable {t u : List Char}

/-- Items with the same texts in front of the end of a list are the same. -/
theorem items_cancel {vs ws : List Value} (hvs : ∀ v ∈ vs, Exact v ∧ Cancels v)
    (hws : ∀ w ∈ ws, Exact w) (ht : Rest t) (hu : Rest u) {gap : List Char}
    (hgap : ∀ w, Exact w → ∀ t, (gap ++ (w.spelled ++ t)).head? ≠ some ' ')
    (h : spelledItems gap vs ++ ' ' :: '}' :: t = spelledItems gap ws ++ ' ' :: '}' :: u) :
    vs = ws ∧ t = u := by
  induction vs generalizing ws gap with
  | nil =>
      cases ws with
      | nil => simpa [spelledItems] using h
      | cons w ws =>
          have hhead := congrArg List.head? h
          simp only [spelledItems, List.nil_append, List.append_assoc, List.head?_cons] at hhead
          exact absurd hhead.symm (hgap w (hws w (by simp)) _)
  | cons v vs ih =>
      obtain ⟨hv, hcancels⟩ := hvs v (by simp)
      cases ws with
      | nil =>
          have hhead := congrArg List.head? h
          simp only [spelledItems, List.nil_append, List.append_assoc, List.head?_cons] at hhead
          exact absurd hhead (hgap v hv _)
      | cons w ws =>
          have hrest := ht.items fun v' (hv' : v' ∈ vs) => (hvs v' (by simp [hv'])).1.begins
          have hrest' := hu.items fun w' (hw' : w' ∈ ws) => (hws w' (by simp [hw'])).begins
          simp only [spelledItems, List.append_assoc, List.append_cancel_left_eq] at h
          obtain ⟨rfl, hitems⟩ := hcancels (hws w (by simp)) hrest hrest' h
          obtain ⟨rfl, rfl⟩ := ih (fun v' hv' => hvs v' (by simp [hv']))
            (fun w' hw' => hws w' (by simp [hw'])) (by simp) hitems
          exact ⟨rfl, rfl⟩

/-- Entries with the same texts in front of the end of a map are the same. -/
theorem entries_cancel {es fs : List (Value × Value)}
    (hes : ∀ e ∈ es, (Exact e.1 ∧ Cancels e.1) ∧ Exact e.2 ∧ Cancels e.2)
    (hfs : ∀ f ∈ fs, Exact f.1 ∧ Exact f.2) (ht : Rest t) (hu : Rest u) {gap : List Char}
    (hgap : (gap ++ ['{']).head? ≠ some '}')
    (h : spelledEntries gap es ++ '}' :: t = spelledEntries gap fs ++ '}' :: u) :
    es = fs ∧ t = u := by
  induction es generalizing fs gap with
  | nil =>
      cases fs with
      | nil => simpa [spelledEntries] using h
      | cons f fs =>
          have hhead := congrArg List.head? h
          cases gap <;> simp [spelledEntries] at hhead hgap
          exact absurd hhead.symm hgap
  | cons e es ih =>
      obtain ⟨⟨hkey, hkeyCancels⟩, hvalue, hvalueCancels⟩ := hes e (by simp)
      cases fs with
      | nil =>
          have hhead := congrArg List.head? h
          cases gap <;> simp [spelledEntries] at hhead hgap
          exact absurd hhead hgap
      | cons f fs =>
          obtain ⟨hkey', hvalue'⟩ := hfs f (by simp)
          have hrest := ht.entries fun e' (he' : e' ∈ es) =>
            ⟨(hes e' (by simp [he'])).1.1.begins, (hes e' (by simp [he'])).2.1.begins⟩
          have hrest' := hu.entries fun f' (hf' : f' ∈ fs) =>
            ⟨(hfs f' (by simp [hf'])).1.begins, (hfs f' (by simp [hf'])).2.begins⟩
          simp only [spelledEntries, List.append_assoc, List.cons_append,
            List.append_cancel_left_eq, List.cons.injEq, true_and] at h
          obtain ⟨hsame, hbehind⟩ :=
            hkeyCancels hkey' (hrest.next hvalue.begins) (hrest'.next hvalue'.begins) h
          simp only [List.cons.injEq, true_and] at hbehind
          obtain ⟨hsame', hclose⟩ := hvalueCancels hvalue' hrest hrest' hbehind
          simp only [List.cons.injEq, true_and] at hclose
          obtain ⟨rfl, rfl⟩ := ih (fun e' he' => hes e' (by simp [he']))
            (fun f' hf' => hfs f' (by simp [hf'])) (by simp) hclose
          exact ⟨by rw [Prod.ext hsame hsame'], rfl⟩

/-- The text of a value can be cut off from what stands behind it in one way only. -/
theorem Exact.cancels {v : Value} (hv : Exact v) : Cancels v := by
  induction hv with
  | null =>
      intro w t u hw ht hu h
      have htype := Exact.typeName_eq .null hw h
      cases hw <;> simp [typeName] at htype
      simpa [spelled, format, write] using h
  | bool b =>
      intro w t u hw ht hu h
      have htype := Exact.typeName_eq (.bool b) hw h
      cases hw <;> simp [typeName] at htype
      next b' => cases b <;> cases b' <;> simp_all [spelled, format, write, boolText]
  | int i =>
      intro w t u hw ht hu h
      have htype := Exact.typeName_eq (.int i) hw h
      cases hw <;> simp [typeName] at htype
      simp only [spelled_int] at h
      simpa [Int64.toInt_inj] using integer_cancel ht hu h
  | text s =>
      intro w t u hw ht hu h
      have htype := Exact.typeName_eq (.text s) hw h
      cases hw <;> simp [typeName] at htype
      simp only [spelled_text, List.cons_append, List.append_assoc, List.nil_append,
        List.cons.injEq, true_and] at h
      simpa [String.toList_inj] using stringBody_cancel ht hu h
  | char c =>
      intro w t u hw ht hu h
      have htype := Exact.typeName_eq (.char c) hw h
      cases hw <;> simp [typeName] at htype
      simp only [spelled_char, List.cons_append, List.append_assoc, List.nil_append,
        List.cons.injEq, true_and] at h
      simpa using characterBody_cancel ht hu h
  | @list items parts ih =>
      intro w t u hw ht hu h
      have htype := Exact.typeName_eq (.list parts) hw h
      cases hw <;> simp [typeName] at htype
      next parts' =>
        simp only [spelled, List.cons_append, List.append_assoc, List.nil_append,
          List.cons.injEq, true_and] at h
        have hitems := items_cancel (fun v hv => ⟨parts v hv, ih v hv⟩) parts' ht hu
          (fun w hw t => hw.head_ne_blank t) h
        simpa using hitems
  | @map entries keys values ihKeys ihValues =>
      intro w t u hw ht hu h
      have htype := Exact.typeName_eq (.map keys values) hw h
      cases hw <;> simp [typeName] at htype
      next keys' values' =>
        simp only [spelled, List.cons_append, List.append_assoc, List.nil_append,
          List.cons.injEq, true_and] at h
        have hentries := entries_cancel
          (fun e he => ⟨⟨keys e he, ihKeys e he⟩, values e he, ihValues e he⟩)
          (fun f hf => ⟨keys' f hf, values' f hf⟩) ht hu (by simp) h
        simpa using hentries

end Cancelling

/-- Values without floats, sealed values, natives and iterables in them are the same if their literal-like
texts are: the last backslash of a text, a mark that is a character, and braces around lists, maps and
entries are all told apart by what stands behind them. -/
theorem eq_of_format_eq {v w : Value} (hv : Exact v) (hw : Exact w) (h : v.format = w.format) :
    v = w := by
  have hspelled : v.spelled ++ [] = w.spelled ++ [] := by
    simpa [toList_format] using congrArg String.toList h
  have hend : Rest [] := ⟨fun _ => .nil, by simp⟩
  exact (hv.cancels hw hend hend hspelled).1

/-- A text that ends in a backslash, beside a mark that is a character. -/
theorem eq_of_format_eq_backslash :
    Exact (.list [.text ("a" ++ "\\"), .char '"']) ∧ Exact (.list [.text "a\\", .char (.ofNat 34)]) ∧
      (list [.text ("a" ++ "\\"), .char '"']).format = "\x7b \"a\\\", '\"' \x7d" ∧
      list [.text ("a" ++ "\\"), .char '"'] = list [.text "a\\", .char (.ofNat 34)] := by
  have hleft : Exact (.list [.text ("a" ++ "\\"), .char '"']) :=
    .list (by simp [Exact.text, Exact.char])
  have hright : Exact (.list [.text "a\\", .char (.ofNat 34)]) :=
    .list (by simp [Exact.text, Exact.char])
  exact ⟨hleft, hright, by decide +kernel, eq_of_format_eq hleft hright (by decide +kernel)⟩

end ReplDaemon.Value
