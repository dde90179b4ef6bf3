import FixedLayout.Json.Printer
import FixedLayout.Json.Reader
import FixedLayout.Proofs.Datum

/-! Reading undoes writing for data without numbers. The text of such a datum is read back as that
datum, whatever stands behind it: a text ends at its quote, a list and a table at their bracket. As
a document it is read back as far as a document may be nested. -/

namespace FixedLayout.Json

/-! ### Texts -/

theorem shortEscape?_of_escapeLetter? {c letter : Char} (h : escapeLetter? c = some letter) :
    letter ≠ 'u' ∧ shortEscape? letter = some c := by
  unfold escapeLetter? at h
  split at h <;> cases h <;> exact ⟨by decide, rfl⟩

theorem ne_of_escapeLetter? {c : Char} (h : escapeLetter? c = none) : c ≠ '\x22' ∧ c ≠ '\\' := by
  constructor <;> (rintro rfl; cases h)

/-- The digits of a unit that is written out give the unit again. -/
theorem exists_unitDigits {unit : Nat} (h : unit < 0x20) :
    ∃ a b c d, unitDigits unit = [a, b, c, d] ∧ unit? a b c d = some unit := by
  have hRead : ∀ unit < 0x20, (unitDigits unit).length = 4 ∧
      Text.readDigits 16 (unitDigits unit) = some unit := by
    decide
  obtain ⟨hLength, hValue⟩ := hRead unit h
  obtain ⟨a, b, c, d, hAll⟩ := List.length_eq_four.mp hLength
  exact ⟨a, b, c, d, hAll, by rwa [unit?, ← hAll]⟩

theorem readText_unitDigits (p : Pending) {unit : Nat} (h : unit < 0x20) (rest : List Char) :
    readText p ('\\' :: 'u' :: (unitDigits unit ++ rest)) =
      readText (p.push (Char.ofNat unit)) rest := by
  obtain ⟨a, b, c, d, hAll, hValue⟩ := exists_unitDigits h
  -- Such a unit is far from the halves of pairs, so it is a character of its own.
  have hHigh : isHigh unit = false := by simp [isHigh]; omega
  have hLow : isLow unit = false := by simp [isLow]; omega
  rw [hAll]
  change readText p ('\\' :: 'u' :: a :: b :: c :: d :: rest) = _
  rw [readText, hValue]
  simp [Pending.pushUnit, hHigh, hLow]

theorem readText_printChar (p : Pending) (c : Char) (rest : List Char) :
    readText p ((printChar c).toList ++ rest) = readText (p.push c) rest := by
  unfold printChar
  split
  · rename_i letter hLetter
    obtain ⟨hOther, hShort⟩ := shortEscape?_of_escapeLetter? hLetter
    rw [String.toList_ofList]
    change readText p ('\\' :: letter :: rest) = _
    rw [readText.eq_3 _ _ _ fun _ _ _ _ _ hSame => absurd hSame hOther, hShort]
  · rename_i hNone
    obtain ⟨hQuote, hSlash⟩ := ne_of_escapeLetter? hNone
    split
    · rename_i hLow
      rw [String.toList_ofList]
      exact (readText_unitDigits p hLow rest).trans (by rw [Char.ofNat_toNat])
    · rename_i hHigh
      rw [String.toList_singleton]
      change readText p (c :: rest) = _
      rw [readText.eq_4 _ _ _ hQuote (fun _ _ _ _ _ hSame => absurd hSame hSlash)
        (fun _ _ hSame => absurd hSame hSlash)]
      simp [hHigh, hSlash]

/-- The characters between the quotes of a text. -/
def textChars (cs : List Char) : List Char := cs.flatMap fun c => (printChar c).toList

theorem toList_printText (s : String) :
    (printText s).toList = '\x22' :: (textChars s.toList ++ ['\x22']) := by
  simp [printText, textChars, List.flatMap_map]

theorem readText_textChars (before cs rest : List Char) :
    readText ⟨before, none, true⟩ (textChars cs ++ '\x22' :: rest) =
      some (some (String.ofList (before.reverse ++ cs)), rest) := by
  induction cs generalizing before with
  | nil => simp [textChars, readText, Pending.finish?]
  | cons c cs ih =>
    rw [textChars, List.flatMap_cons, List.append_assoc, readText_printChar]
    refine (ih (c :: before)).trans ?_
    simp

/-- A text is read up to its closing quote. -/
theorem readText_printText (s : String) (rest : List Char) :
    readText {} (textChars s.toList ++ '\x22' :: rest) = some (some s, rest) := by
  simpa using readText_textChars [] s.toList rest

/-! ### Values -/

/-- The text of the datum is read back, whatever comes next. Two calls for each character are
enough. -/
def ReadsBack (d : Datum) : Prop :=
  ∀ (fuel : Nat) (rest : List Char), 2 * (print d).toList.length ≤ fuel →
    readValue fuel ((print d).toList ++ rest) = some (d, rest)

/-- A value, and the name of a field, begins with no blank and with none of the brackets behind
one. -/
def Begins (cs : List Char) : Prop :=
  ∃ c tail, cs = c :: tail ∧ isSpace c = false ∧ c ≠ ']' ∧ c ≠ '\x7d'

/-- The items of a list as they stand between the brackets. -/
def itemChars (items : List Datum) : List Char :=
  [','].intercalate (items.map fun d => (print d).toList)

def fieldChars (field : String × Datum) : List Char :=
  (printText field.1).toList ++ ':' :: (print field.2).toList

/-- The fields of a table as they stand between the braces. -/
def tableChars (fields : List (String × Datum)) : List Char :=
  [','].intercalate (fields.map fieldChars)

theorem printItems_eq_map (items : List Datum) : printItems items = items.map print := by
  induction items with
  | nil => rfl
  | cons d items ih => rw [printItems, ih, List.map_cons]

theorem printFields_eq_map (fields : List (String × Datum)) :
    printFields fields = fields.map fun e => printText e.1 ++ ":" ++ print e.2 := by
  induction fields with
  | nil => rfl
  | cons e fields ih =>
    obtain ⟨name, d⟩ := e
    rw [printFields, ih, List.map_cons]

theorem toList_print_list (items : List Datum) :
    (print (.list items)).toList = '[' :: (itemChars items ++ [']']) := by
  simp [print, printItems_eq_map, itemChars, Function.comp_def]

theorem toList_print_table (fields : List (String × Datum)) :
    (print (.table fields)).toList = '\x7b' :: (tableChars fields ++ ['\x7d']) := by
  have hField : ∀ e : String × Datum,
      (printText e.1 ++ ":" ++ print e.2).toList = fieldChars e := by
    simp [fieldChars]
  simp [print, printFields_eq_map, tableChars, Function.comp_def, hField]

theorem Begins.append {cs : List Char} (h : Begins cs) (rest : List Char) :
    Begins (cs ++ rest) := by
  obtain ⟨c, tail, rfl, hc⟩ := h
  exact ⟨c, tail ++ rest, rfl, hc⟩

theorem begins_printText (s : String) : Begins (printText s).toList :=
  ⟨'\x22', _, toList_printText s, by decide⟩

theorem begins_fieldChars (field : String × Datum) : Begins (fieldChars field) :=
  (begins_printText field.1).append _

theorem begins_print {d : Datum} (h : d.Plain) : Begins (print d).toList := by
  cases h with
  | null => exact ⟨'n', _, rfl, by decide⟩
  | bool b => cases b <;> exact ⟨_, _, rfl, by decide⟩
  | string s => exact begins_printText s
  | list h => exact ⟨'[', _, toList_print_list _, by decide⟩
  | table h => exact ⟨'\x7b', _, toList_print_table _, by decide⟩

theorem Begins.skipSpace {cs : List Char} (h : Begins cs) : skipSpace cs = cs := by
  obtain ⟨c, tail, rfl, hc, -⟩ := h
  simp [Json.skipSpace, hc]

/-- What is separated by commas begins as its first part does. -/
theorem begins_intercalate {part : List Char} (h : Begins part) (parts : List (List Char)) :
    Begins ([','].intercalate (part :: parts)) := by
  cases parts with
  | nil => simpa using h
  | cons next parts =>
    rw [List.intercalate_cons_cons, List.append_assoc]
    exact h.append _

theorem readItems_itemChars {items : List Datum} (hSome : items ≠ [])
    (hEach : ∀ d ∈ items, ReadsBack d) (fuel : Nat) (rest : List Char)
    (hFuel : 2 * (itemChars items).length + 1 ≤ fuel) :
    readItems fuel (itemChars items ++ ']' :: rest) = some (items, rest) := by
  induction items generalizing fuel with
  | nil => exact absurd rfl hSome
  | cons d items ih =>
    obtain ⟨fuel, rfl⟩ : ∃ below, fuel = below + 1 := ⟨fuel - 1, by omega⟩
    have hFirst := hEach d List.mem_cons_self fuel
    cases items with
    | nil =>
      have hChars : itemChars [d] = (print d).toList := by simp [itemChars]
      rw [hChars] at hFuel ⊢
      rw [readItems, hFirst (']' :: rest) (by omega)]
      rfl
    | cons d' items =>
      have hChars : itemChars (d :: d' :: items) =
          (print d).toList ++ ',' :: itemChars (d' :: items) := by
        simp [itemChars, List.intercalate_cons_cons]
      rw [hChars] at hFuel ⊢
      simp only [List.length_append, List.length_cons] at hFuel
      have hRest := ih (by simp) (fun b hb => hEach b (List.mem_cons_of_mem _ hb)) fuel (by omega)
      rw [readItems, List.append_assoc, hFirst _ (by omega)]
      change (readItems fuel (itemChars (d' :: items) ++ ']' :: rest)).bind _ = _
      rw [hRest]
      rfl

/-- The name of a field and the colon behind it are read before its value. -/
theorem readFields_fieldChars {fuel : Nat} {field : String × Datum} {tail : List Char}
    (hValue : readValue fuel ((print field.2).toList ++ tail) = some (field.2, tail)) :
    readFields (fuel + 1) (fieldChars field ++ tail) =
      match skipSpace tail with
      | ',' :: cs => do
        let (fields, cs) ← readFields fuel cs
        return ((some field.1, field.2) :: fields, cs)
      | '\x7d' :: cs => return ([(some field.1, field.2)], cs)
      | _ => none := by
  have hName := readText_printText field.1 (':' :: ((print field.2).toList ++ tail))
  have hChars : fieldChars field ++ tail = '\x22' ::
      (textChars field.1.toList ++ '\x22' :: ':' :: ((print field.2).toList ++ tail)) := by
    simp [fieldChars, toList_printText]
  rw [readFields, hChars]
  change (readText {} _).bind _ = _
  rw [hName]
  change (readValue fuel ((print field.2).toList ++ tail)).bind _ = _
  rw [hValue]
  rfl

theorem readFields_tableChars {fields : List (String × Datum)} (hSome : fields ≠ [])
    (hEach : ∀ e ∈ fields, ReadsBack e.2) (fuel : Nat) (rest : List Char)
    (hFuel : 2 * (tableChars fields).length + 1 ≤ fuel) :
    readFields fuel (tableChars fields ++ '\x7d' :: rest) =
      some (fields.map fun e => (some e.1, e.2), rest) := by
  induction fields generalizing fuel with
  | nil => exact absurd rfl hSome
  | cons e fields ih =>
    obtain ⟨fuel, rfl⟩ : ∃ below, fuel = below + 1 := ⟨fuel - 1, by omega⟩
    have hLength : (print e.2).toList.length ≤ (fieldChars e).length := by
      simp [fieldChars]
      omega
    have hFirst := hEach e List.mem_cons_self fuel
    cases fields with
    | nil =>
      have hChars : tableChars [e] = fieldChars e := by simp [tableChars]
      rw [hChars] at hFuel ⊢
      rw [readFields_fieldChars (hFirst _ (by omega))]
      rfl
    | cons e' fields =>
      have hChars : tableChars (e :: e' :: fields) =
          fieldChars e ++ ',' :: tableChars (e' :: fields) := by
        simp [tableChars, List.intercalate_cons_cons]
      rw [hChars] at hFuel ⊢
      simp only [List.length_append, List.length_cons] at hFuel
      have hRest := ih (by simp) (fun b hb => hEach b (List.mem_cons_of_mem _ hb)) fuel (by omega)
      rw [List.append_assoc, readFields_fieldChars (hFirst _ (by omega))]
      change (readFields fuel (tableChars (e' :: fields) ++ '\x7d' :: rest)).bind _ = _
      rw [hRest]
      rfl

theorem tableOf_some (fields : List (String × Datum)) :
    tableOf (fields.map fun e => (some e.1, e.2)) = .table fields := by
  have hAll : (fields.map fun e => (some e.1, e.2)).mapM
      (fun (e : Option String × Datum) => e.1.map (·, e.2)) = some fields :=
    mapM_eq_some_iff.mpr (by simp)
  rw [tableOf, hAll]

theorem readValue_items {cs : List Char} (h : Begins cs) (fuel : Nat) :
    readValue (fuel + 1) ('[' :: cs) =
      (readItems fuel cs).map fun read => (.list read.1, read.2) := by
  have hOpen : skipSpace ('[' :: cs) = '[' :: cs := rfl
  rw [readValue, hOpen]
  simp only [h.skipSpace]
  split
  · obtain ⟨c, tail, hHead, -, hBracket, -⟩ := h
    exact absurd (List.cons.inj hHead).1.symm hBracket
  · cases readItems fuel cs <;> rfl

theorem readValue_fields {cs : List Char} (h : Begins cs) (fuel : Nat) :
    readValue (fuel + 1) ('\x7b' :: cs) =
      (readFields fuel cs).map fun read => (tableOf read.1, read.2) := by
  have hOpen : skipSpace ('\x7b' :: cs) = '\x7b' :: cs := rfl
  rw [readValue, hOpen]
  simp only [h.skipSpace]
  split
  · obtain ⟨c, tail, hHead, -, -, hBrace⟩ := h
    exact absurd (List.cons.inj hHead).1.symm hBrace
  · cases readFields fuel cs <;> rfl

/-- A text that begins is not empty, so there is a call for reading it. -/
theorem ReadsBack.of_succ {d : Datum} (hBegins : Begins (print d).toList)
    (h : ∀ (fuel : Nat) (rest : List Char), 2 * (print d).toList.length ≤ fuel + 1 →
      readValue (fuel + 1) ((print d).toList ++ rest) = some (d, rest)) : ReadsBack d := by
  intro fuel rest hFuel
  obtain ⟨c, tail, hHead, -⟩ := hBegins
  have hSome : (print d).toList.length = tail.length + 1 := by rw [hHead, List.length_cons]
  obtain ⟨fuel, rfl⟩ : ∃ below, fuel = below + 1 := ⟨fuel - 1, by omega⟩
  exact h fuel rest hFuel

theorem readsBack_list {items : List Datum} (hPlain : ∀ d ∈ items, d.Plain)
    (hEach : ∀ d ∈ items, ReadsBack d) : ReadsBack (.list items) := by
  refine .of_succ (begins_print (.list hPlain)) fun fuel rest hFuel => ?_
  rw [toList_print_list] at hFuel ⊢
  simp only [List.length_cons, List.length_append] at hFuel
  rw [List.cons_append, List.append_assoc]
  cases items with
  | nil => rfl
  | cons d items =>
    have hBegins : Begins (itemChars (d :: items) ++ ']' :: rest) :=
      (begins_intercalate (begins_print (hPlain d List.mem_cons_self)) _).append _
    refine (readValue_items hBegins fuel).trans ?_
    rw [readItems_itemChars (List.cons_ne_nil d items) hEach fuel rest (by omega)]
    rfl

theorem readsBack_table {fields : List (String × Datum)} (hPlain : (Datum.table fields).Plain)
    (hEach : ∀ e ∈ fields, ReadsBack e.2) : ReadsBack (.table fields) := by
  refine .of_succ (begins_print hPlain) fun fuel rest hFuel => ?_
  rw [toList_print_table] at hFuel ⊢
  simp only [List.length_cons, List.length_append] at hFuel
  rw [List.cons_append, List.append_assoc]
  cases fields with
  | nil => rfl
  | cons e fields =>
    have hBegins : Begins (tableChars (e :: fields) ++ '\x7d' :: rest) :=
      (begins_intercalate (begins_fieldChars e) _).append _
    refine (readValue_fields hBegins fuel).trans ?_
    rw [readFields_tableChars (List.cons_ne_nil e fields) hEach fuel rest (by omega),
      Option.map_some, tableOf_some]

theorem readsBack_of_plain {d : Datum} (h : d.Plain) : ReadsBack d := by
  induction h with
  | null => exact .of_succ (begins_print .null) fun fuel rest _ => rfl
  | bool b =>
    refine .of_succ (begins_print (.bool b)) fun fuel rest _ => ?_
    cases b <;> rfl
  | string s =>
    refine .of_succ (begins_print (.string s)) fun fuel rest _ => ?_
    have hText := readText_printText s rest
    rw [print, toList_printText, readValue, List.cons_append, List.append_assoc]
    change (readText {} (textChars s.toList ++ '\x22' :: rest)).bind _ = _
    rw [hText]
    rfl
  | list h ih => exact readsBack_list h ih
  | table h ih => exact readsBack_table (.table h) fun e he => ih e.1 e.2 he

/-- A document is read back as the datum that was written, cut off below the levels that a document
may have. -/
theorem document_print {d : Datum} (h : d.Plain) :
    document (print d) = some (d.limit maxDepth) := by
  have hRead := readsBack_of_plain h (2 * (print d).toList.length + 2) [] (by omega)
  rw [List.append_nil] at hRead
  rw [document, parse, hRead]
  rfl

end FixedLayout.Json
