import FixedLayout.Ident
import FixedLayout.Text.Alphanumeric
import Mathlib.Data.List.Basic

/-! Type names as identifiers. Every plus sign becomes an underscore, but of the arity markers, which
each level of a nested name may carry, only the first is removed. -/

namespace FixedLayout.Ident

/-- A letter, a digit or an underscore. -/
def isPlain (c : Char) : Bool := Text.isAlphanumeric c || c == '_'

/-- The names of types: identifiers, the separators of nested types and arity markers, which are a
back-quote with digits after it. -/
inductive IsTypeName : List Char → Prop
  | nil : IsTypeName []
  | plain {c : Char} {cs : List Char} (hPlain : isPlain c = true) (h : IsTypeName cs) :
      IsTypeName (c :: cs)
  | nested {cs : List Char} (h : IsTypeName cs) : IsTypeName ('+' :: cs)
  | arity {digits cs : List Char} (hSome : digits ≠ []) (hDigits : ∀ d ∈ digits, d.isDigit = true)
      (h : IsTypeName cs) : IsTypeName ('\x60' :: digits ++ cs)

theorem isPlain_of_isDigit {c : Char} (h : c.isDigit = true) : isPlain c = true := by
  have hAscii : c.toNat < 0x80 := by
    simp only [Char.isDigit, Bool.and_eq_true, decide_eq_true_eq] at h
    have : c.toNat ≤ 57 := h.2
    omega
  simp [isPlain, Text.isAlphanumeric, hAscii, Char.isAlphanum, h]

/-- A name of a type has no other characters than those of identifiers and the two marks. -/
theorem IsTypeName.cases_of_mem {cs : List Char} (h : IsTypeName cs) :
    ∀ c ∈ cs, isPlain c = true ∨ c = '+' ∨ c = '\x60' := by
  induction h with
  | nil => nofun
  | plain hPlain _ ih => exact List.forall_mem_cons.mpr ⟨.inl hPlain, ih⟩
  | nested _ ih => exact List.forall_mem_cons.mpr ⟨.inr (.inl rfl), ih⟩
  | arity _ hDigits _ ih =>
    refine List.forall_mem_cons.mpr ⟨.inr (.inr rfl), List.forall_mem_append.mpr ⟨?_, ih⟩⟩
    exact fun d hd => .inl (isPlain_of_isDigit (hDigits d hd))

theorem IsTypeName.append {part cs : List Char} (hPart : ∀ c ∈ part, isPlain c = true)
    (h : IsTypeName cs) : IsTypeName (part ++ cs) := by
  induction part with
  | nil => exact h
  | cons c part ih =>
    obtain ⟨hHead, hTail⟩ := List.forall_mem_cons.mp hPart
    exact .plain hHead (ih hTail)

/-! ### The first marker -/

theorem dropArity_sublist (cs : List Char) : (dropArity cs).Sublist cs := by
  induction cs with
  | nil => exact .slnil
  | cons c cs ih =>
    rw [dropArity]
    split
    · exact (List.dropWhile_sublist _).cons c
    · exact ih.cons_cons c

/-- Digits are not back-quotes. -/
theorem count_dropWhile_isDigit (cs : List Char) :
    (cs.dropWhile Char.isDigit).count '\x60' = cs.count '\x60' := by
  induction cs with
  | nil => rfl
  | cons c cs ih =>
    rw [List.dropWhile_cons]
    split
    · rename_i hDigit
      have hOther : c ≠ '\x60' := by
        rintro rfl
        exact absurd hDigit (by decide)
      rw [ih, List.count_cons_of_ne hOther]
    · rfl

/-- One marker is removed, if there is any. -/
theorem count_dropArity (cs : List Char) :
    (dropArity cs).count '\x60' = cs.count '\x60' - 1 := by
  induction cs with
  | nil => rfl
  | cons c cs ih =>
    rw [dropArity]
    split
    · rename_i hMark
      rw [count_dropWhile_isDigit, eq_of_beq hMark, List.count_cons_self, Nat.add_sub_cancel]
    · rename_i hMark
      have hOther : c ≠ '\x60' := fun h => hMark (beq_iff_eq.mpr h)
      rw [List.count_cons_of_ne hOther, List.count_cons_of_ne hOther, ih]

/-! ### Whole names -/

theorem mem_ofTypeName {s : String} {c : Char} : c ∈ (ofTypeName s).toList ↔
    (c ∈ dropArity s.toList ∧ c ≠ '+') ∨ (c = '_' ∧ '+' ∈ dropArity s.toList) := by
  rw [ofTypeName, String.toList_ofList, List.mem_map]
  constructor
  · rintro ⟨d, hd, rfl⟩
    by_cases hPlus : d = '+'
    · subst hPlus
      exact .inr ⟨rfl, hd⟩
    · rw [if_neg (by simpa using hPlus)]
      exact .inl ⟨hd, hPlus⟩
  · rintro (⟨hc, hPlus⟩ | ⟨rfl, hc⟩)
    · exact ⟨c, hc, if_neg (by simpa using hPlus)⟩
    · exact ⟨'+', hc, rfl⟩

theorem mark_notMem_ofTypeName_iff {s : String} :
    '\x60' ∉ (ofTypeName s).toList ↔ s.toList.count '\x60' ≤ 1 := by
  rw [mem_ofTypeName, ← Nat.sub_eq_zero_iff_le, ← count_dropArity, List.count_eq_zero]
  simp

/-- No plus sign is left in the identifier for a type. A back-quote is left exactly if the name has
more than one, and then the identifier is not plain even if the name consists of identifiers,
separators and arity markers; with at most one marker it is. -/
theorem plain_ofTypeName_iff (s : String) :
    '+' ∉ (ofTypeName s).toList ∧
    ('\x60' ∉ (ofTypeName s).toList ↔ s.toList.count '\x60' ≤ 1) ∧
    (IsTypeName s.toList →
      ((∀ c ∈ (ofTypeName s).toList, isPlain c = true) ↔ s.toList.count '\x60' ≤ 1)) := by
  refine ⟨fun h => ?_, mark_notMem_ofTypeName_iff, fun hName => ?_⟩
  · rcases mem_ofTypeName.mp h with ⟨-, hPlus⟩ | ⟨hPlus, -⟩
    · exact hPlus rfl
    · exact absurd hPlus (by decide)
  · rw [← mark_notMem_ofTypeName_iff]
    constructor
    · intro hAll hMark
      exact absurd (hAll _ hMark) (by decide)
    · intro hNone c hc
      rcases mem_ofTypeName.mp hc with ⟨hMem, hPlus⟩ | ⟨rfl, -⟩
      · rcases hName.cases_of_mem c ((dropArity_sublist _).subset hMem) with
          hPlain | rfl | rfl
        · exact hPlain
        · exact absurd rfl hPlus
        · exact absurd hc hNone
      · decide

theorem plain_ofTypeName_iff_nested :
    IsTypeName "Outer\x602+Inner".toList ∧ "Outer\x602+Inner".toList.count '\x60' ≤ 1 ∧
    ofTypeName "Outer\x602+Inner" = "Outer_Inner" ∧
    ∀ c ∈ (ofTypeName "Outer\x602+Inner").toList, isPlain c = true := by
  have hInner : IsTypeName ['I', 'n', 'n', 'e', 'r'] :=
    @IsTypeName.append ['I', 'n', 'n', 'e', 'r'] [] (List.all_eq_true.mp rfl) .nil
  have hName : IsTypeName "Outer\x602+Inner".toList :=
    @IsTypeName.append ['O', 'u', 't', 'e', 'r'] _ (List.all_eq_true.mp rfl)
      (@IsTypeName.arity ['2'] _ (by simp) (List.all_eq_true.mp rfl) (.nested hInner))
  have hOne : "Outer\x602+Inner".toList.count '\x60' ≤ 1 := by decide
  exact ⟨hName, hOne, by decide, ((plain_ofTypeName_iff "Outer\x602+Inner").2.2 hName).mpr hOne⟩

/-- The marker of an inner type is left. -/
theorem exists_mark_ofTypeName : IsTypeName "Outer\x601+Inner\x602".toList ∧
    ofTypeName "Outer\x601+Inner\x602" = "Outer_Inner\x602" ∧ isPlain '\x60' = false := by
  have hInner : IsTypeName ['I', 'n', 'n', 'e', 'r', '\x60', '2'] :=
    @IsTypeName.append ['I', 'n', 'n', 'e', 'r'] _ (List.all_eq_true.mp rfl)
      (@IsTypeName.arity ['2'] [] (by simp) (List.all_eq_true.mp rfl) .nil)
  refine ⟨?_, by decide, by decide⟩
  exact @IsTypeName.append ['O', 'u', 't', 'e', 'r'] _ (List.all_eq_true.mp rfl)
    (@IsTypeName.arity ['1'] _ (by simp) (List.all_eq_true.mp rfl) (.nested hInner))

end FixedLayout.Ident
