import FixedLayout.Proofs.TypeExpr.Parts

/-! Reading undoes writing. The text of a well-formed expression is read back as that expression,
whatever mark stands behind it; so neither the text nor the canonical name leaves any doubt about
what it names. -/

namespace FixedLayout.TypeExpr

/-! ### Texts -/

/-- The text of an expression without its extent. -/
def elementChars (t : TypeExpr) : List Char := pointerChars t.indirection ++ t.canonical.toList

/-- The text of arguments, without the brackets around them. -/
def argumentChars (args : List TypeExpr) : List Char :=
  ", ".toList.intercalate (args.map fun a => a.text.toList)

theorem toList_canonical (t : TypeExpr) : t.canonical.toList = pathChars t.path ++
    match t.arguments with
    | none => []
    | some args => '<' :: (argumentChars args ++ ['>']) := by
  obtain ⟨path, _ | args, indirection, extent⟩ := t
  · simp [canonical, pathChars]
  · simp [canonical, pathChars, argumentChars, texts_eq_map, Function.comp_def]

theorem toList_text (t : TypeExpr) : t.text.toList =
    match t.extent with
    | none => elementChars t
    | some n => '[' :: (elementChars t ++ ';' :: ' ' :: (lengthChars n ++ [']'])) := by
  obtain ⟨path, args, indirection, _ | n⟩ := t
  · simp [text, decorate, elementChars, pointerChars]
  · simp [text, decorate, elementChars, pointerChars, lengthChars, Text.toList_hexUpper]

theorem argumentChars_cons_cons (a a' : TypeExpr) (args : List TypeExpr) :
    argumentChars (a :: a' :: args) =
      a.text.toList ++ ',' :: ' ' :: argumentChars (a' :: args) := by
  simp [argumentChars, List.intercalate_cons_cons]

/-! ### Expressions -/

/-- An expression begins with no blank and with none of the marks behind one. -/
theorem exists_head_text {t : TypeExpr} (h : IsPath t.path) :
    ∃ c cs, t.text.toList = c :: cs ∧ Text.isBlank c = false ∧ c ≠ '>' := by
  obtain ⟨c, cs, hPath, hHead⟩ := exists_head_pathChars h
  have hChar : Text.isBlank c = false ∧ c ≠ '>' := by
    rcases hHead with rfl | hHead
    · decide
    · exact ⟨isBlank_of_isSegmentChar hHead, ne_of_isSegmentChar hHead (by decide)⟩
  rw [toList_text]
  cases t.extent with
  | some n => exact ⟨'[', _, rfl, by decide, by decide⟩
  | none =>
    dsimp only
    rw [elementChars, toList_canonical, hPath]
    cases t.indirection with
    | zero => exact ⟨c, _, rfl, hChar⟩
    | succ n =>
      rw [pointerChars_succ]
      exact ⟨'*', _, rfl, by decide, by decide⟩

theorem readExpr_blank (fuel : Nat) (cs : List Char) :
    readExpr fuel (' ' :: cs) = readExpr fuel cs := by
  have hPointers : readPointers 0 (' ' :: cs) = readPointers 0 cs :=
    (readPointers_cons 0 cs (by decide)).trans (if_pos (by decide))
  cases fuel with
  | zero => rfl
  | succ fuel => rw [readExpr, readExpr, hPointers]

theorem readArguments_blank (fuel : Nat) (cs : List Char) :
    readArguments fuel (' ' :: cs) = readArguments fuel cs := by
  cases fuel with
  | zero => rfl
  | succ fuel => rw [readArguments, readArguments, readExpr_blank]

/-- The text of the expression is read back, whatever mark comes next. Two calls for each character
are enough. -/
def ReadsBack (t : TypeExpr) : Prop :=
  ∀ (fuel : Nat) (rest : List Char), 2 * t.text.toList.length ≤ fuel → Next endMarks rest →
    readExpr fuel (t.text.toList ++ rest) = .ok (t, rest)

theorem readArguments_comma {fuel : Nat} {cs tail rest : List Char} {a : TypeExpr}
    {args : List TypeExpr} (hFirst : readExpr fuel cs = .ok (a, ',' :: tail))
    (hRest : readArguments fuel tail = .ok (args, rest)) :
    readArguments (fuel + 1) cs = .ok (a :: args, rest) := by
  have hSkip : Text.skipBlank (',' :: tail) = ',' :: tail := rfl
  rw [readArguments]
  simp only [hFirst, ok_bind, hSkip, hRest]
  rfl

theorem readArguments_argumentChars {args : List TypeExpr} (hSome : args ≠ [])
    (hEach : ∀ a ∈ args, ReadsBack a) (fuel : Nat) (rest : List Char)
    (hFuel : 2 * (argumentChars args).length + 1 ≤ fuel) :
    readArguments fuel (argumentChars args ++ '>' :: rest) = .ok (args, rest) := by
  induction args generalizing fuel with
  | nil => exact absurd rfl hSome
  | cons a args ih =>
    obtain ⟨fuel, rfl⟩ : ∃ below, fuel = below + 1 := ⟨fuel - 1, by omega⟩
    have hFirst := hEach a List.mem_cons_self fuel
    cases args with
    | nil =>
      have hChars : argumentChars [a] = a.text.toList := by simp [argumentChars]
      rw [hChars] at hFuel ⊢
      rw [readArguments, hFirst ('>' :: rest) (by omega) (by simp [Next, endMarks])]
      rfl
    | cons a' args =>
      rw [argumentChars_cons_cons] at hFuel ⊢
      simp only [List.length_append, List.length_cons] at hFuel
      have hRest := ih (by simp) (fun b hb => hEach b (List.mem_cons_of_mem _ hb)) fuel (by omega)
      rw [List.append_assoc]
      refine readArguments_comma (hFirst _ (by omega) (by simp [Next, endMarks])) ?_
      exact (readArguments_blank fuel _).trans hRest

theorem readPointers_pathChars {path : List String} (hPath : IsPath path) (n : Nat)
    (tail : List Char) :
    readPointers 0 (pointerChars n ++ (pathChars path ++ tail)) = (n, pathChars path ++ tail) := by
  obtain ⟨c, cs, hCons, hHead⟩ := exists_head_pathChars hPath
  have hChar : c ≠ '*' ∧ Text.isBlank c = false := by
    rcases hHead with rfl | hHead
    · decide
    · exact ⟨ne_of_isSegmentChar hHead (by decide), isBlank_of_isSegmentChar hHead⟩
  rw [readPointers_append, hCons, List.cons_append, readPointers_cons _ _ hChar.1, hChar.2]
  simp

/-- After the path, the arguments are read if a bracket opens them. -/
theorem readExpr_pathChars {path : List String} (hPath : IsPath path) (n fuel : Nat)
    (tail : List Char) : Next pathMarks tail →
    readExpr (fuel + 1) (pointerChars n ++ (pathChars path ++ tail)) =
      match tail with
      | '<' :: cs =>
        match Text.skipBlank cs with
        | '>' :: cs => return (⟨path, some [], n, none⟩, cs)
        | cs => do
          let (args, cs) ← readArguments fuel cs
          return (⟨path, some args, n, none⟩, cs)
      | cs => return (⟨path, none, n, none⟩, cs) := by
  intro hNext
  obtain ⟨c, cs, hCons, hHead⟩ := exists_head_pathChars hPath
  have hBracket : c ≠ '[' := by
    rcases hHead with rfl | hHead
    · decide
    · exact ne_of_isSegmentChar hHead (by decide)
  rw [readExpr, readPointers_pathChars hPath]
  split
  · rename_i hEq
    rw [hCons] at hEq
    exact absurd (List.cons.inj (Prod.mk.inj hEq).2).1 hBracket
  · rename_i hEq
    cases hEq
    rw [readPath_pathChars hPath hNext]
    change (match Text.skipBlank tail with
      | '<' :: cs => _
      | cs => _) = _
    rewrite [skipBlank_of_next hNext]
    rfl

theorem exists_head_argumentChars {a : TypeExpr} (h : IsPath a.path) (args : List TypeExpr) :
    ∃ c cs, argumentChars (a :: args) = c :: cs ∧ Text.isBlank c = false ∧ c ≠ '>' := by
  obtain ⟨c, cs, hCons, hChar⟩ := exists_head_text h
  cases args with
  | nil => exact ⟨c, cs, by simp [argumentChars, hCons], hChar⟩
  | cons a' args =>
    refine ⟨c, cs ++ ',' :: ' ' :: argumentChars (a' :: args), ?_, hChar⟩
    rw [argumentChars_cons_cons, hCons, List.cons_append]

/-- An array is read once its element is. -/
theorem readExpr_array {fuel n : Nat} {cs rest : List Char} {element : TypeExpr}
    (hElement : readExpr fuel cs =
      .ok (element, ';' :: ' ' :: (lengthChars n ++ ']' :: rest)))
    (hPlain : element.extent = none) (hExtent : n < UInt64.size) :
    readExpr (fuel + 1) ('[' :: cs) = .ok (element.withExtent n, rest) := by
  have hSkip : Text.skipBlank (' ' :: (lengthChars n ++ ']' :: rest)) =
      lengthChars n ++ ']' :: rest := rfl
  have hSemicolon := readMark_cons ';' .missingSemicolon
    (' ' :: (lengthChars n ++ ']' :: rest)) (by decide)
  have hBracket := readMark_cons ']' .missingBracket rest (by decide)
  rw [readExpr, readPointers_cons _ _ (by decide), if_neg (by decide)]
  simp only [Nat.lt_irrefl, if_false, hElement, ok_bind, hPlain, Option.isSome_none,
    Bool.false_eq_true, hSemicolon, hSkip, readLength_lengthChars hExtent, hBracket]
  rfl

section Element

variable {t : TypeExpr} (hPath : IsPath t.path)
  (hEach : ∀ args, t.arguments = some args → ∀ a ∈ args, IsPath a.path ∧ ReadsBack a)
include hPath hEach

theorem readExpr_elementChars (fuel : Nat) (rest : List Char)
    (hFuel : 2 * (elementChars t).length ≤ fuel) (hNext : Next endMarks rest) :
    readExpr fuel (elementChars t ++ rest) = .ok ({ t with extent := none }, rest) := by
  obtain ⟨path, arguments, indirection, extent⟩ := t
  obtain ⟨c, cs, hCons, -⟩ := exists_head_pathChars hPath
  rw [elementChars, toList_canonical] at hFuel ⊢
  simp only [List.length_append, hCons, List.length_cons] at hFuel
  obtain ⟨fuel, rfl⟩ : ∃ below, fuel = below + 1 := ⟨fuel - 1, by omega⟩
  rw [List.append_assoc, List.append_assoc]
  cases arguments with
  | none =>
    refine (readExpr_pathChars hPath indirection fuel rest hNext.path).trans ?_
    split
    · have hOut := hNext '<' rfl
      simp [endMarks] at hOut
    · rfl
  | some args =>
    have hOpen := readExpr_pathChars hPath indirection fuel
      ('<' :: (argumentChars args ++ ['>'] ++ rest)) (by simp [Next, pathMarks])
    refine hOpen.trans ?_
    cases args with
    | nil => rfl
    | cons a args =>
      obtain ⟨d, ds, hHead, hBlank, hClose⟩ :=
        exists_head_argumentChars (hEach _ rfl a List.mem_cons_self).1 args
      simp only [List.length_cons, List.length_append] at hFuel
      have hRead := readArguments_argumentChars (List.cons_ne_nil a args)
        (fun b hb => (hEach _ rfl b hb).2) fuel rest (by omega)
      have hSkip : Text.skipBlank (argumentChars (a :: args) ++ ['>'] ++ rest) =
          argumentChars (a :: args) ++ '>' :: rest := by
        simp [Text.skipBlank, hHead, hBlank]
      change (match Text.skipBlank (argumentChars (a :: args) ++ ['>'] ++ rest) with
        | '>' :: cs => _
        | cs => _) = _
      rw [hSkip]
      split
      · rename_i hEq
        rw [hHead] at hEq
        exact absurd (List.cons.inj hEq).1 hClose
      · rw [hRead]
        rfl

theorem readsBack (hExtent : ∀ n, t.extent = some n → n < UInt64.size) : ReadsBack t := by
  intro fuel rest hFuel hNext
  rw [toList_text] at hFuel ⊢
  obtain ⟨path, arguments, indirection, _ | n⟩ := t
  · exact readExpr_elementChars hPath hEach fuel rest hFuel hNext
  · simp only [List.length_cons, List.length_append] at hFuel
    obtain ⟨fuel, rfl⟩ : ∃ below, fuel = below + 1 := ⟨fuel - 1, by omega⟩
    have hElement := readExpr_elementChars hPath hEach fuel
      (';' :: ' ' :: (lengthChars n ++ ']' :: rest)) (by omega) (by simp [Next, endMarks])
    have hArray := readExpr_array hElement rfl (hExtent n rfl)
    simpa [withExtent] using hArray

end Element

theorem WellFormed.readsBack {t : TypeExpr} (h : t.WellFormed) : ReadsBack t := by
  induction h with
  | mk hPath hExtent hArguments ih =>
    exact TypeExpr.readsBack hPath
      (fun args hArgs a ha => ⟨(hArguments args hArgs a ha).path, ih args hArgs a ha⟩) hExtent

theorem WellFormed.parse {t : TypeExpr} (h : t.WellFormed) : parse t.text = .ok t := by
  have hRead := h.readsBack (2 * t.text.toList.length + 2) [] (by omega) (by simp [Next])
  rw [List.append_nil] at hRead
  rw [TypeExpr.parse, readAll, hRead]
  rfl

/-- Well-formed expressions with one text are one expression. -/
theorem WellFormed.eq_of_text {t u : TypeExpr} (h : t.WellFormed) (hu : u.WellFormed)
    (hText : t.text = u.text) : t = u := by
  have hRead := h.parse
  rw [hText, hu.parse] at hRead
  exact (Except.ok.inj hRead).symm

theorem text_base (t : TypeExpr) : t.base.text = t.canonical := by
  obtain ⟨path, _ | args, indirection, extent⟩ := t <;>
    simp [base, text, decorate, canonical, String.join]

theorem canonical_eq_of_base {t u : TypeExpr} (h : t.base = u.base) :
    t.canonical = u.canonical := by
  rw [← text_base, ← text_base, h]

/-- Whatever a text is read as is well formed, and the text of a well-formed expression is read
back as that expression. So among well-formed expressions, the canonical name tells apart all that
differ in more than pointers and extent. -/
theorem parse_text (t : TypeExpr) :
    (∀ text, parse text = .ok t → t.WellFormed) ∧
    (t.WellFormed → parse t.text = .ok t) ∧
    (t.WellFormed → ∀ u : TypeExpr, u.WellFormed →
      (t.canonical = u.canonical ↔ t.base = u.base)) := by
  refine ⟨fun _ => wellFormed_of_parse, WellFormed.parse, fun h u hu => ⟨fun hName => ?_,
    canonical_eq_of_base⟩⟩
  rw [← text_base, ← text_base] at hName
  exact h.base.eq_of_text hu.base hName

/-- A generic type whose arguments look like the marks of pointers. -/
def markedPair : TypeExpr :=
  (ofPath ["crate", "app", "Pair"]).withArguments
    [ofPath ["mut"], (ofPath ["const"]).withArguments [], ofPath ["()"]]

/-- An array of pointers to pointers to it, read from a text with other marks and blanks than its
own. -/
theorem parse_text_markedPair :
    let array := (markedPair.withIndirection 2).withExtent 31
    parse "[ *const *crate::app::Pair< mut,const<> , () > ;0x1_F ]" = .ok array ∧
      array.WellFormed ∧ array.text = "[*mut *mut crate::app::Pair<mut, const<>, ()>; 0x1F]" ∧
      parse array.text = .ok array ∧ markedPair.WellFormed ∧
      (array.canonical = markedPair.canonical ↔ array.base = markedPair.base) := by
  intro array
  have hRead : parse "[ *const *crate::app::Pair< mut,const<> , () > ;0x1_F ]" = .ok array := rfl
  obtain ⟨hWellFormed, hParse, hName⟩ := parse_text array
  have hArray : array.WellFormed := hWellFormed _ hRead
  have hPair : markedPair.WellFormed := hArray.base
  exact ⟨hRead, hArray, rfl, hParse hArray, hPair, hName hArray markedPair hPair⟩

end FixedLayout.TypeExpr
