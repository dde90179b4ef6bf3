import FixedLayout.Ident
import FixedLayout.Proofs.Text.Digits
import FixedLayout.Text.Quoted

/-! Texts that are one line, and texts of several lines behind a margin. Numerals and quoted texts
never break the line that they stand in. -/

namespace FixedLayout.Text

/-- The text does not break into several lines. -/
def IsLine (s : String) : Prop := '\n' ∉ s.toList

instance (s : String) : Decidable (IsLine s) := inferInstanceAs (Decidable ('\n' ∉ s.toList))

/-- A literal is checked character by character. -/
theorem isLine_ofList {cs : List Char} (h : '\n' ∉ cs) : IsLine (String.ofList cs) := by
  rwa [IsLine, String.toList_ofList]

@[simp] theorem isLine_append {s t : String} : IsLine (s ++ t) ↔ IsLine s ∧ IsLine t := by
  simp [IsLine]

@[simp] theorem isLine_join {l : List String} : IsLine (String.join l) ↔ ∀ s ∈ l, IsLine s := by
  simp [IsLine]

theorem IsLine.intercalate {sep : String} {l : List String} (hSep : IsLine sep)
    (h : ∀ s ∈ l, IsLine s) : IsLine (sep.intercalate l) := by
  induction l with
  | nil => simp [IsLine]
  | cons s l ih =>
    obtain ⟨hHead, hTail⟩ := List.forall_mem_cons.mp h
    cases l with
    | nil => simpa using hHead
    | cons t l =>
      rw [String.intercalate_cons_cons, isLine_append, isLine_append]
      exact ⟨⟨hHead, hSep⟩, ih hTail⟩

/-! ### Margins -/

/-- The lines of a text are what stands between its line breaks. -/
def lines (s : String) : List String := (s.toList.splitOn '\n').map String.ofList

/-- A line behind a margin of `n` blanks. An empty line stays empty. -/
def behindMargin (n : Nat) (line : String) : String :=
  if line.isEmpty then "" else String.ofList (List.replicate n ' ') ++ line

/-- A text with a margin in front of all its lines but the empty ones. -/
def indented (n : Nat) (s : String) : String := "\n".intercalate ((lines s).map (behindMargin n))

theorem lines_append {s : String} (h : IsLine s) (rest : String) :
    lines (s ++ "\n" ++ rest) = s :: lines rest := by
  have hPlain : ∀ c ∈ s.toList, (c == '\n') = false := by
    rintro c hMem
    rw [beq_eq_false_iff_ne]
    rintro rfl
    exact h hMem
  have hText : (s ++ "\n" ++ rest).toList = s.toList ++ '\n' :: rest.toList := by simp
  rw [lines, hText, List.splitOn, List.splitOnP_append_cons_of_forall_mem hPlain _ rfl,
    List.map_cons, String.ofList_toList, lines, List.splitOn]

theorem indented_append {s : String} (h : IsLine s) (n : Nat) (rest : String) :
    indented n (s ++ "\n" ++ rest) = behindMargin n s ++ "\n" ++ indented n rest := by
  have hSome : (lines rest).map (behindMargin n) ≠ [] := by simp [lines, List.splitOn_ne_nil]
  rw [indented, lines_append h, List.map_cons, String.intercalate_cons_of_ne_nil hSome, indented]

example : indented 2 "pub\n\nmod\n" = "  pub\n\n  mod\n" := by decide

@[simp] theorem indented_empty (n : Nat) : indented n "" = "" := by
  simp [indented, lines, List.splitOn, behindMargin]

theorem IsLine.behindMargin {s : String} (h : IsLine s) (n : Nat) : IsLine (behindMargin n s) := by
  unfold Text.behindMargin
  split
  · decide
  · rw [isLine_append]
    refine ⟨?_, h⟩
    simp [IsLine]

/-- Two margins in front of one line are one. -/
theorem behindMargin_add (m n : Nat) (s : String) :
    behindMargin (m + n) s = behindMargin m (behindMargin n s) := by
  by_cases hEmpty : s.isEmpty
  · simp [behindMargin, hEmpty]
  · have hMargin : (String.ofList (List.replicate n ' ') ++ s).isEmpty = false := by
      simpa [String.isEmpty_iff] using fun _ => by simpa [String.isEmpty_iff] using hEmpty
    simp only [behindMargin, hEmpty, hMargin, Bool.false_eq_true, if_false]
    rw [← List.replicate_append_replicate, String.ofList_append, String.append_assoc]

/-! ### Numerals -/

theorem ne_newline_of_mem_hexDigits {n : Nat} {c : Char} (h : c ∈ hexDigits n) : c ≠ '\n' :=
  forall_hexDigits (P := (· ≠ '\n')) (by decide) n c h

@[simp] theorem isLine_hexUpper (n : Nat) : IsLine (hexUpper n) := by
  rw [IsLine, toList_hexUpper]
  exact fun h => ne_newline_of_mem_hexDigits h rfl

@[simp] theorem isLine_hexLower (n : Nat) : IsLine (hexLower n) := by
  rw [IsLine, hexLower, String.toList_ofList]
  exact fun h => ne_newline_of_mem_hexDigits (List.mem_map_of_mem h) rfl

@[simp] theorem isLine_hexPadded (width n : Nat) : IsLine (hexPadded width n) := by
  rw [IsLine, hexPadded, String.toList_ofList, List.mem_append]
  rintro (hZero | hDigit)
  · exact absurd (List.eq_of_mem_replicate hZero) (by decide)
  · exact ne_newline_of_mem_hexDigits hDigit rfl

@[simp] theorem isLine_natRepr (n : Nat) : IsLine n.repr := fun h =>
  absurd (isDigit_of_mem_numeral h) (by decide)

@[simp] theorem isLine_intRepr (i : Int) : IsLine i.repr := by
  cases i with
  | ofNat n => exact isLine_natRepr n
  | negSucc n =>
    rw [Int.repr, isLine_append]
    exact ⟨by decide, isLine_natRepr _⟩

/-! ### Changed texts -/

theorem isLine_quoteChar (c : Char) : IsLine (quoteChar c) := by
  unfold quoteChar
  repeat' split
  any_goals decide
  · rw [isLine_append, isLine_append]
    exact ⟨⟨by decide, isLine_hexLower _⟩, by decide⟩
  · rename_i hBreak _ _ _ _
    rw [IsLine, String.toList_singleton, List.mem_singleton]
    rintro rfl
    exact hBreak rfl

/-- A line break inside of quotes is escaped. -/
@[simp] theorem isLine_quoted (s : String) : IsLine (quoted s) := by
  rw [quoted, isLine_append, isLine_append, isLine_join]
  refine ⟨⟨by decide, ?_⟩, by decide⟩
  simpa using fun c _ => isLine_quoteChar c

/-- No small letter becomes a line break, and all else stays as it is. -/
theorem eq_newline_of_toUpper {c : Char} (h : c.toUpper = '\n') : c = '\n' := by
  by_cases hSmall : 'a'.val ≤ c.val ∧ c.val ≤ 'z'.val
  · have hLetters : ∀ n ≤ 122, 97 ≤ n → (Char.ofNat n).toUpper ≠ '\n' := by decide
    have hOther := hLetters c.toNat hSmall.2 hSmall.1
    rw [Char.ofNat_toNat] at hOther
    exact absurd h hOther
  · have hSame : c.toUpper = c := dif_neg hSmall
    rwa [hSame] at h

theorem IsLine.ofStatic {s : String} (h : IsLine s) : IsLine (Ident.ofStatic s) := by
  rw [IsLine, Ident.ofStatic, String.toList_ofList, List.mem_map]
  rintro ⟨c, hMem, hUpper⟩
  exact h (eq_newline_of_toUpper hUpper ▸ hMem)

end FixedLayout.Text
