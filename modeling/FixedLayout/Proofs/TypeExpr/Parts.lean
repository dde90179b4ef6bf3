import FixedLayout.Proofs.Text.Digits
import FixedLayout.Proofs.TypeExpr.WellFormed

/-! The parts of a type expression: paths, pointers and array lengths. Each is read back from its
text, as long as what stands behind it cannot belong to it. -/

namespace FixedLayout.TypeExpr

/-! ### Classes of characters -/

theorem isBlank_of_isAlphanumeric {c : Char} (h : Text.isAlphanumeric c = true) :
    Text.isBlank c = false := by
  refine Bool.eq_false_iff.mpr fun hBlank => ?_
  obtain ⟨blank, hMem, hLow, hHigh⟩ := Text.inRanges_iff.mp hBlank
  unfold Text.isAlphanumeric at h
  split at h
  · rename_i hAscii
    have hOutside : ∀ range ∈ Text.blankRanges, range.1 < 128 → range.2 ≤ 32 := by decide
    have hSpace := hOutside blank hMem (by omega)
    have hControl : ∀ n ≤ 32, (Char.ofNat n).isAlphanum = false := by decide
    have hPlain := hControl c.toNat (by omega)
    rw [Char.ofNat_toNat, h] at hPlain
    cases hPlain
  · obtain ⟨range, hRange, hLow', hHigh'⟩ := Text.inRanges_iff.mp h
    have hDisjoint : ∀ a ∈ Text.alphanumericRanges, ∀ b ∈ Text.blankRanges,
        a.2 < b.1 ∨ b.2 < a.1 := by
      decide +kernel
    rcases hDisjoint range hRange blank hMem with h | h <;> omega

theorem isBlank_of_isSegmentChar {c : Char} (h : isSegmentChar c = true) :
    Text.isBlank c = false := by
  simp only [isSegmentChar, Bool.or_eq_true, beq_iff_eq] at h
  rcases h with (h | rfl) | rfl
  · exact isBlank_of_isAlphanumeric h
  · decide
  · decide

theorem ne_of_isSegmentChar {c d : Char} (h : isSegmentChar c = true)
    (hd : isSegmentChar d = false) : c ≠ d := by
  rintro rfl
  cases h.symm.trans hd

/-- Nothing comes next, or one of some marks. -/
def Next (marks rest : List Char) : Prop := ∀ c ∈ rest.head?, c ∈ marks

/-- The marks that may stand behind an expression. -/
def endMarks : List Char := [',', '>', ';']

/-- The marks that may stand behind a path. -/
def pathMarks : List Char := '<' :: endMarks

theorem Next.path {rest : List Char} (h : Next endMarks rest) : Next pathMarks rest :=
  fun c hc => List.mem_cons_of_mem _ (h c hc)

theorem plain_of_pathMarks {c : Char} (h : c ∈ pathMarks) :
    isSegmentChar c = false ∧ Text.isBlank c = false ∧ c ≠ ':' := by
  have hMark : c = '<' ∨ c = ',' ∨ c = '>' ∨ c = ';' := by simpa [pathMarks, endMarks] using h
  rcases hMark with rfl | rfl | rfl | rfl <;> decide

theorem skipBlank_of_next {rest : List Char} (h : Next pathMarks rest) :
    Text.skipBlank rest = rest := by
  cases rest with
  | nil => rfl
  | cons c rest =>
    have hBlank := (plain_of_pathMarks (h c rfl)).2.1
    simp [Text.skipBlank, hBlank]

/-! ### Paths -/

theorem readSegments_cons (segment : List Char) {c : Char} (cs : List Char) (hColon : c ≠ ':') :
    readSegments segment (c :: cs) =
      if isSegmentChar c then readSegments (c :: segment) cs
      else if segment.isEmpty then .error .missingIdentifier
      else .ok ([String.ofList segment.reverse], c :: cs) := by
  rw [readSegments.eq_def]
  split
  · rename_i hEq
    exact absurd (List.cons.inj hEq).1 hColon
  · rename_i hEq
    cases hEq
    rfl
  · rename_i hEq
    cases hEq

theorem readSegments_append {cs : List Char} (h : ∀ c ∈ cs, isSegmentChar c = true)
    (segment rest : List Char) :
    readSegments segment (cs ++ rest) = readSegments (cs.reverse ++ segment) rest := by
  induction cs generalizing segment with
  | nil => rfl
  | cons c cs ih =>
    have hChar := h c List.mem_cons_self
    rw [List.cons_append, readSegments_cons _ _ (ne_of_isSegmentChar hChar (by decide)),
      if_pos hChar, ih fun d hd => h d (List.mem_cons_of_mem _ hd)]
    simp

theorem readSegments_next {segment rest : List Char} (hSome : segment ≠ [])
    (h : Next pathMarks rest) :
    readSegments segment rest = .ok ([String.ofList segment.reverse], rest) := by
  have hSome : segment.isEmpty = false := by simpa using hSome
  cases rest with
  | nil => simp [readSegments, hSome]
  | cons c rest =>
    obtain ⟨hChar, -, hColon⟩ := plain_of_pathMarks (h c rfl)
    simp [readSegments_cons _ _ hColon, hChar, hSome]

/-- The text of a path: its segments with two colons between them. -/
def pathChars (path : List String) : List Char := "::".toList.intercalate (path.map String.toList)

theorem readSegments_pathChars {path : List String} (hSome : path ≠ [])
    (hEach : ∀ s ∈ path, IsSegment s) {rest : List Char} (h : Next pathMarks rest) :
    readSegments [] (pathChars path ++ rest) = .ok (path, rest) := by
  induction path with
  | nil => exact absurd rfl hSome
  | cons s path ih =>
    have hHead := hEach s List.mem_cons_self
    have hNonempty : s.toList.reverse ++ [] ≠ [] := by simpa using hHead.nonempty
    have hBack : String.ofList (s.toList.reverse ++ []).reverse = s := by simp
    cases path with
    | nil =>
      rw [pathChars, List.map_singleton, List.intercalate_singleton,
        readSegments_append hHead.chars, readSegments_next hNonempty h, hBack]
    | cons s' path =>
      have hRest := ih (by simp) fun t ht => hEach t (List.mem_cons_of_mem _ ht)
      have hChars : pathChars (s :: s' :: path) ++ rest =
          s.toList ++ ':' :: ':' :: (pathChars (s' :: path) ++ rest) := by
        simp [pathChars, List.intercalate_cons_cons]
      rw [hChars, readSegments_append hHead.chars, readSegments, if_neg (by simpa using hNonempty),
        hRest, hBack]
      rfl

theorem exists_head_segments {path : List String} (hSome : path ≠ [])
    (hEach : ∀ s ∈ path, IsSegment s) :
    ∃ c cs, pathChars path = c :: cs ∧ isSegmentChar c = true := by
  obtain ⟨s, path, rfl⟩ := List.exists_cons_of_ne_nil hSome
  have hHead := hEach s List.mem_cons_self
  have hChars : s.toList ≠ [] := by simpa using hHead.nonempty
  obtain ⟨c, cs, hCons⟩ := List.exists_cons_of_ne_nil hChars
  have hChar : isSegmentChar c = true := hHead.chars c (hCons ▸ List.mem_cons_self)
  cases path with
  | nil => exact ⟨c, cs, by simp [pathChars, hCons], hChar⟩
  | cons s' path =>
    refine ⟨c, cs ++ ("::".toList ++ pathChars (s' :: path)), ?_, hChar⟩
    simp [pathChars, List.intercalate_cons_cons, hCons]

/-- A path begins with the bracket of the unit type or with a segment. -/
theorem exists_head_pathChars {path : List String} (h : IsPath path) :
    ∃ c cs, pathChars path = c :: cs ∧ (c = '(' ∨ isSegmentChar c = true) := by
  cases h with
  | unit => exact ⟨'(', [')'], rfl, .inl rfl⟩
  | segments hSome hEach =>
    obtain ⟨c, cs, hCons, hChar⟩ := exists_head_segments hSome hEach
    exact ⟨c, cs, hCons, .inr hChar⟩

theorem readPath_pathChars {path : List String} (hPath : IsPath path) {rest : List Char}
    (h : Next pathMarks rest) : readPath (pathChars path ++ rest) = .ok (path, rest) := by
  cases hPath with
  | unit => rfl
  | segments hSome hEach =>
    obtain ⟨c, cs, hCons, hChar⟩ := exists_head_segments hSome hEach
    have hSegments := readSegments_pathChars hSome hEach h
    unfold readPath
    split
    · rename_i hEq
      rw [hCons] at hEq
      exact absurd (List.cons.inj hEq).1 (ne_of_isSegmentChar hChar (by decide))
    · exact hSegments

/-! ### Pointers and extents -/

/-- The text of some pointers. -/
def pointerChars (n : Nat) : List Char := (String.join (List.replicate n "*mut ")).toList

theorem pointerChars_succ (n : Nat) :
    pointerChars (n + 1) = '*' :: 'm' :: 'u' :: 't' :: ' ' :: pointerChars n := by
  simp [pointerChars, List.replicate_succ]

theorem readPointers_append (count n : Nat) (cs : List Char) :
    readPointers count (pointerChars n ++ cs) = readPointers (count + n) cs := by
  induction n generalizing count with
  | zero => rfl
  | succ n ih =>
    rw [pointerChars_succ]
    refine (ih (count + 1)).trans ?_
    rw [Nat.add_right_comm, Nat.add_assoc]

theorem readPointers_cons (count : Nat) {c : Char} (cs : List Char) (hStar : c ≠ '*') :
    readPointers count (c :: cs) =
      if Text.isBlank c then readPointers count cs else (count, c :: cs) := by
  rw [readPointers.eq_def]
  split
  · rename_i hEq
    exact absurd (List.cons.inj hEq).1 hStar
  · rename_i hEq
    exact absurd (List.cons.inj hEq).1 hStar
  · rename_i hEq
    cases hEq
    rw [if_neg (by simpa using hStar)]
  · rename_i hEq
    cases hEq

theorem readMark_cons (mark : Char) (fault : TypeFault) (cs : List Char)
    (hBlank : Text.isBlank mark = false) : readMark mark fault (mark :: cs) = .ok cs := by
  simp [readMark, Text.skipBlank, hBlank]

/-- The text of an array length. -/
def lengthChars (n : Nat) : List Char := '0' :: 'x' :: Text.hexDigits n

theorem lengthValue?_lengthChars (n : Nat) : lengthValue? (lengthChars n) = some n := by
  have hDigits : (lengthChars n).filter (· != '_') = lengthChars n := by
    refine List.filter_eq_self.mpr ?_
    simpa [lengthChars] using Text.forall_hexDigits (by decide) n
  rw [lengthValue?, hDigits]
  exact Text.readDigits_hexDigits n

theorem readLength_lengthChars {n : Nat} (h : n < UInt64.size) (cs : List Char) :
    readLength (lengthChars n ++ ']' :: cs) = .ok (n, ']' :: cs) := by
  have hEach : ∀ c ∈ lengthChars n, (c.isAlphanum || c == '_') = true := by
    have hDigits := @Text.forall_hexDigits (fun c => (c.isAlphanum || c == '_') = true)
      (by decide) n
    simpa [lengthChars] using hDigits
  have hLiteral : (lengthChars n ++ ']' :: cs).takeWhile (fun c => c.isAlphanum || c == '_') =
      lengthChars n := by
    rw [List.takeWhile_append_of_pos hEach]
    simp
  unfold readLength
  simp only [hLiteral, lengthValue?_lengthChars, List.drop_left]
  exact if_pos h

end FixedLayout.TypeExpr
