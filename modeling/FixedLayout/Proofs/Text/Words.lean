import FixedLayout.Text.Blank

/-! The words of a text are what stands between its blanks. Words that are written with single
spaces between them are read back. -/

namespace FixedLayout.Text

theorem wordsFrom_eq (word cs : List Char) : wordsFrom word cs =
    ((cs.splitOnP isBlank).modifyHead (word.reverse ++ ·)).filter (!·.isEmpty) := by
  induction cs generalizing word with
  | nil => cases word <;> simp [wordsFrom]
  | cons c cs ih =>
    obtain ⟨first, rest, hParts⟩ := List.exists_cons_of_ne_nil (List.splitOnP_ne_nil isBlank cs)
    rw [wordsFrom, List.splitOnP_cons_eq_if_modifyHead]
    simp only [ih, hParts]
    cases isBlank c with
    | true => cases word <;> simp
    | false => simp

/-- The words of a text are the pieces between its blanks, apart from empty ones. -/
theorem words_eq_splitOnP (cs : List Char) :
    words cs = (cs.splitOnP isBlank).filter (!·.isEmpty) := by
  rw [words, wordsFrom_eq]
  cases cs.splitOnP isBlank <;> rfl

/-- A word has characters, and no blank is among them. -/
structure IsWord (word : List Char) : Prop where
  nonempty : word ≠ []
  plain : ∀ c ∈ word, isBlank c = false

theorem words_intercalate {ws : List (List Char)} (h : ∀ word ∈ ws, IsWord word) :
    words ([' '].intercalate ws) = ws := by
  rw [words_eq_splitOnP]
  induction ws with
  | nil => rfl
  | cons word ws ih =>
    obtain ⟨hHead, hTail⟩ := List.forall_mem_cons.mp h
    have hKept : (!word.isEmpty) = true := by simpa using hHead.nonempty
    cases ws with
    | nil =>
      rw [List.intercalate_singleton, List.splitOnP_eq_singleton hHead.plain,
        List.filter_cons, if_pos hKept, List.filter_nil]
    | cons next ws =>
      rw [List.intercalate_cons_cons, List.append_assoc, List.singleton_append,
        List.splitOnP_append_cons_of_forall_mem hHead.plain _ rfl,
        List.filter_cons, if_pos hKept, ih hTail]

end FixedLayout.Text
