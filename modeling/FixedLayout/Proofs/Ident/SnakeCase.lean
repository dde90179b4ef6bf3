import FixedLayout.Ident
import Mathlib.Data.List.Basic

/-! Snake case. Escaping leaves no reserved word, and it adds no capital. So a name in snake case is
one that snake case leaves as it is, as long as all capitals have gone: a capital without a
lower-case form stays, and a second time it would be taken for the start of another word. -/

namespace FixedLayout.Ident

/-! ### Escapes -/

theorem isReserved_of_mem_places {s : String} (h : s ∈ places) : isReserved s = true := by
  revert s
  decide

theorem escape_of_not_reserved {s : String} (h : isReserved s = false) : escape s = s := by
  have hPlace : places.contains s = false := by
    rw [Bool.eq_false_iff, Ne, List.contains_iff_mem]
    intro hMem
    cases h.symm.trans (isReserved_of_mem_places hMem)
  rw [escape, hPlace, h]
  rfl

/-- An escaped word is none of the reserved ones. -/
theorem isReserved_escape (s : String) : isReserved (escape s) = false := by
  have hPlaces : ∀ word ∈ places, isReserved (word ++ "_") = false := by decide
  have hRaw : ∀ word ∈ reserved, isReserved ("r#" ++ word) = false := by decide
  unfold escape
  split
  · rename_i hPlace
    exact hPlaces s (List.contains_iff_mem.mp hPlace)
  · split
    · rename_i hWord
      exact hRaw s (List.contains_iff_mem.mp hWord)
    · rename_i hOther
      exact Bool.eq_false_iff.mpr hOther

/-! ### Capitals -/

/-- No character of the text is a capital. -/
def IsLower (s : String) : Prop := ∀ c ∈ s.toList, Text.isUppercase c = false

theorem isLower_of_all {s : String} (h : s.toList.all (!Text.isUppercase ·)) : IsLower s := by
  simpa [IsLower] using h

theorem isLower_append {s t : String} : IsLower (s ++ t) ↔ IsLower s ∧ IsLower t := by
  simp only [IsLower, String.toList_append, List.forall_mem_append]

/-- The marks of escapes are no capitals. -/
theorem isLower_escape_iff {s : String} : IsLower (escape s) ↔ IsLower s := by
  have hPlace : IsLower "_" := isLower_of_all (by decide)
  have hRaw : IsLower "r#" := isLower_of_all (by decide)
  unfold escape
  split
  · rw [isLower_append]
    exact and_iff_left hPlace
  · split
    · rw [isLower_append]
      exact and_iff_right hRaw
    · exact Iff.rfl

/-- Capitals are left where the lower-case form of a capital has some itself. -/
theorem forall_mem_snakeChars_iff {inRun : Bool} {cs : List Char} :
    (∀ c ∈ snakeChars inRun cs, Text.isUppercase c = false) ↔
      ∀ c ∈ cs, Text.isUppercase c = true → ∀ d ∈ Text.lowercase c, Text.isUppercase d = false := by
  induction cs generalizing inRun with
  | nil => simp [snakeChars]
  | cons c cs ih =>
    rw [snakeChars, List.forall_mem_cons]
    split
    · rename_i hCapital
      have hMark : ∀ d ∈ (if inRun then [] else ['_']), Text.isUppercase d = false := by
        cases inRun with
        | true => nofun
        | false => exact List.forall_mem_singleton.mpr (by decide)
      rw [List.append_assoc, List.forall_mem_append, List.forall_mem_append, ih]
      simp only [hCapital, true_imp_iff]
      exact and_iff_right hMark
    · rename_i hOther
      rw [List.forall_mem_cons, ih]
      simp only [hOther, Bool.false_eq_true, false_imp_iff]

theorem isLower_snake_iff {s : String} : IsLower (snake s) ↔
    ∀ c ∈ s.toList, Text.isUppercase c = true →
      ∀ d ∈ Text.lowercase c, Text.isUppercase d = false := by
  rw [snake, isLower_escape_iff, IsLower, String.toList_ofList, forall_mem_snakeChars_iff]

/-- Without capitals there are no words to mark. -/
theorem snakeChars_of_lower {cs : List Char} (h : ∀ c ∈ cs, Text.isUppercase c = false)
    (inRun : Bool) : snakeChars inRun cs = cs := by
  induction cs generalizing inRun with
  | nil => rfl
  | cons c cs ih =>
    obtain ⟨hHead, hTail⟩ := List.forall_mem_cons.mp h
    rw [snakeChars, if_neg (by simp [hHead]), ih hTail]

theorem snake_of_lower {s : String} (hLower : IsLower s) (hFree : isReserved s = false) :
    snake s = s := by
  rw [snake, snakeChars_of_lower hLower, String.ofList_toList, escape_of_not_reserved hFree]

/-- If all capitals of a name have a lower-case form without capitals, its snake-case form has none,
is no reserved word, and is its own snake-case form. -/
theorem snake_stable {s : String}
    (h : ∀ c ∈ s.toList, Text.isUppercase c = true →
      ∀ d ∈ Text.lowercase c, Text.isUppercase d = false) :
    (∀ c ∈ (snake s).toList, Text.isUppercase c = false) ∧ snake s ∉ reserved ∧
      snake (snake s) = snake s := by
  have hLower : IsLower (snake s) := isLower_snake_iff.mpr h
  have hFree : isReserved (snake s) = false := isReserved_escape _
  refine ⟨hLower, fun hMem => ?_, snake_of_lower hLower hFree⟩
  cases hFree.symm.trans (List.contains_iff_mem.mpr hMem)

/-- A capital with a lower-case form of two characters, and a word that only lower case reserves. -/
theorem snake_stable_dotted :
    (∀ c ∈ "NewİdÉté".toList, Text.isUppercase c = true →
      ∀ d ∈ Text.lowercase c, Text.isUppercase d = false) ∧
    (∀ c ∈ "SELF".toList, Text.isUppercase c = true →
      ∀ d ∈ Text.lowercase c, Text.isUppercase d = false) ∧
    snake "NewİdÉté" = "new_i\u0307d_été" ∧ snake "new_i\u0307d_été" = "new_i\u0307d_été" ∧
    snake "SELF" = "self_" ∧ snake "self_" = "self_" := by
  have hSnake : snake "NewİdÉté" = "new_i\u0307d_été" := by decide +kernel
  have hSelf : snake "SELF" = "self_" := by decide
  have hLower : IsLower (snake "NewİdÉté") :=
    hSnake.symm ▸ isLower_of_all (by decide +kernel)
  have hLowerSelf : IsLower (snake "SELF") := hSelf.symm ▸ isLower_of_all (by decide)
  -- no capitals are left exactly if all of them have a form without capitals
  have hDotted := isLower_snake_iff.mp hLower
  have hPlace := isLower_snake_iff.mp hLowerSelf
  refine ⟨hDotted, hPlace, hSnake, ?_, hSelf, ?_⟩
  · simpa only [hSnake] using (snake_stable hDotted).2.2
  · simpa only [hSelf] using (snake_stable hPlace).2.2

end FixedLayout.Ident
