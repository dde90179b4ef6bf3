import FixedLayout.Proofs.Layout.Groups

/-! Groups that start before the end of the group in front of them. A plan stops at the first one
and reports it. -/

namespace FixedLayout.Layout

section Groups

variable (config : Config) (slots : List Slot)

/-- `o` and, right before it, `p` are in use as offsets. -/
def Precedes (p o : Nat) : Prop :=
  p ∈ offsets slots ∧ o ∈ offsets slots ∧ p < o ∧ ∀ q ∈ offsets slots, q ≤ p ∨ o ≤ q

/-- The group at `o` starts before the end of the group in front of it. -/
def Overrun (o : Nat) : Prop :=
  ∃ p, Precedes slots p o ∧ o < keptStop p (keptAt config slots p)

/-- No group up to `o` starts before the end of the one in front of it. -/
def Reached (o : Nat) : Prop := ∀ o' ≤ o, ¬Overrun config slots o'

noncomputable instance : DecidablePred (Reached config slots) := fun _ => Classical.propDecidable _

/-- Where the last of some groups ends. -/
def cursorAfter (os : List Nat) : Nat :=
  (os.getLast?.map fun p => keptStop p (keptAt config slots p)).getD 0

end Groups

variable {config : Config} {slots : List Slot} {owner : TypeExpr}

@[simp] theorem cursorAfter_append (os : List Nat) (p : Nat) :
    cursorAfter config slots (os ++ [p]) = keptStop p (keptAt config slots p) := by
  simp [cursorAfter]

theorem not_overrun_of_notMem {o : Nat} (h : o ∉ offsets slots) : ¬Overrun config slots o :=
  fun ⟨_, hPrecedes, _⟩ => h hPrecedes.2.1

/-- In the list of offsets, an offset is right behind the one that stands before it. -/
theorem precedes_of_append {pre os : List Nat} {p o : Nat}
    (h : pre ++ p :: o :: os = offsets slots) : Precedes slots p o := by
  have hSorted := h ▸ pairwise_offsets slots
  simp only [List.pairwise_append, List.pairwise_cons, List.mem_cons] at hSorted
  obtain ⟨-, ⟨hP, hO, -⟩, hPre⟩ := hSorted
  refine ⟨h ▸ by simp, h ▸ by simp, hP o (.inl rfl), fun q hq => ?_⟩
  rw [← h] at hq
  simp only [List.mem_append, List.mem_cons] at hq
  rcases hq with hq | rfl | rfl | hq
  · exact .inl (hPre q hq p (.inl rfl)).le
  · exact .inl le_rfl
  · exact .inr le_rfl
  · exact .inr (hO q hq).le

/-- At most one offset is right before another. -/
theorem Precedes.unique {p p' o : Nat} (h : Precedes slots p o) (h' : Precedes slots p' o) :
    p = p' := by
  have h1 := h.2.2.2 p' h'.1
  have h2 := h'.2.2.2 p h.1
  have h3 := h.2.2.1
  have h4 := h'.2.2.1
  omega

theorem le_of_mem_cons {pre os : List Nat} {o o' : Nat} (h : pre ++ o :: os = offsets slots)
    (hMem : o' ∈ o :: os) : o ≤ o' := by
  have hSorted := (List.pairwise_append.mp (h ▸ pairwise_offsets slots)).2.1
  rcases List.mem_cons.mp hMem with rfl | hMem
  · exact le_rfl
  · exact ((List.pairwise_cons.mp hSorted).1 o' hMem).le

theorem mem_or_le {pre os : List Nat} {o o' : Nat} (h : pre ++ o :: os = offsets slots)
    (hMem : o' ∈ offsets slots) : o' ∈ pre ∨ o ≤ o' := by
  rw [← h, List.mem_append] at hMem
  exact hMem.imp_right (le_of_mem_cons h)

theorem cursorAfter_eq {pre os : List Nat} {p o : Nat} (h : pre ++ o :: os = offsets slots)
    (hPrecedes : Precedes slots p o) :
    cursorAfter config slots pre = keptStop p (keptAt config slots p) := by
  rcases List.eq_nil_or_concat pre with rfl | ⟨pre, p', rfl⟩
  · rcases mem_or_le h hPrecedes.1 with hMem | hLe
    · simp at hMem
    · have := hPrecedes.2.2.1
      omega
  · have hPrecedes' : Precedes slots p' o :=
      @precedes_of_append slots pre os p' o (by simpa using h)
    rw [List.concat_eq_append, cursorAfter_append, hPrecedes.unique hPrecedes']

theorem overrun_iff {pre os : List Nat} {o : Nat} (h : pre ++ o :: os = offsets slots) :
    Overrun config slots o ↔ o < cursorAfter config slots pre := by
  constructor
  · rintro ⟨p, hPrecedes, hLt⟩
    rwa [cursorAfter_eq h hPrecedes]
  · intro hLt
    rcases List.eq_nil_or_concat pre with rfl | ⟨pre, p, rfl⟩
    · simp [cursorAfter] at hLt
    · have hPrecedes : Precedes slots p o :=
        @precedes_of_append slots pre os p o (by simpa using h)
      exact ⟨p, hPrecedes, by rwa [cursorAfter_eq h hPrecedes] at hLt⟩

/-- Where no earlier group overruns, an overrun comes no earlier than the next one. -/
theorem le_of_overrun {pre os : List Nat} {o o' : Nat} (h : pre ++ o :: os = offsets slots)
    (hPre : ∀ p ∈ pre, ¬Overrun config slots p) (hOver : Overrun config slots o') : o ≤ o' := by
  have hMem : o' ∈ offsets slots := by_contra fun hOut => not_overrun_of_notMem hOut hOver
  exact (mem_or_le h hMem).resolve_left fun hIn => hPre o' hIn hOver

/-- A plan reports the first group that overruns, and nothing without one. -/
theorem layGroups_diagnostics (hFits : ∀ s ∈ slots, s.Fits) (size n : Nat) (pre os : List Nat)
    (h : pre ++ os = offsets slots) (hPre : ∀ p ∈ pre, ¬Overrun config slots p) :
    ((∀ o ∈ os, ¬Overrun config slots o) ∧
      (layGroups config owner size (cursorAfter config slots pre) n
        (os.map (slotsAt slots))).diagnostics = []) ∨
    ∃ o p, (∀ o' < o, ¬Overrun config slots o') ∧ Precedes slots p o ∧
      o < keptStop p (keptAt config slots p) ∧
      (layGroups config owner size (cursorAfter config slots pre) n
        (os.map (slotsAt slots))).diagnostics =
        [.layoutOverrun owner.canonical (firstName slots o)
          (keptStop p (keptAt config slots p)) o] := by
  induction os generalizing pre n with
  | nil => exact .inl ⟨by simp, rfl⟩
  | cons o os ih =>
    have hO : o ∈ offsets slots := h ▸ by simp
    rw [List.map_cons, layGroups_slotsAt hO hFits]
    by_cases hOver : Overrun config slots o
    · rw [if_pos ((overrun_iff h).mp hOver)]
      obtain ⟨p, hPrecedes, hLt⟩ := hOver
      refine .inr ⟨o, p, fun o' hLess hOver' => ?_, hPrecedes, hLt, ?_⟩
      · have := le_of_overrun h hPre hOver'
        omega
      · rw [cursorAfter_eq h hPrecedes]
    · rw [if_neg (fun hLt => hOver ((overrun_iff h).mpr hLt))]
      have hRest := ih (n + (place owner n o (keptAt config slots o)).2.length)
        (pre ++ [o]) (by simpa using h)
        (List.forall_mem_append.mpr ⟨hPre, by simpa using hOver⟩)
      rw [cursorAfter_append] at hRest
      exact hRest.imp_left fun ⟨hNone, hEq⟩ => ⟨by simpa [hOver] using hNone, hEq⟩

end FixedLayout.Layout
