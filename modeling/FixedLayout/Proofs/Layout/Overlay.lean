import FixedLayout.Proofs.Layout.Placement

/-! Slots over each other in one union. The widest comes first, and a gap holds the room of the
whole union where none of them does. -/

namespace FixedLayout.Layout

/-- A union over some slots, which stand in it in the given order. -/
structure Overlay (type : TypeExpr) (slots ordered : List Slot) (minSize : Nat) (r : Record) :
    Prop where
  type : r.type = type.base
  form : r.form = .union
  size : IsGreatest {n | n = minSize ∨ ∃ s ∈ slots, n = s.size} r.size
  perm : ordered.Perm slots
  sorted : ordered.Pairwise fun a b => b.size ≤ a.size
  /-- Equally wide slots keep their order. -/
  stable : ∀ n, ordered.filter (·.size = n) = slots.filter (·.size = n)
  fields : r.members.filter (·.role ≠ .gap) = ordered.map (·.member 0)
  /-- The gap is the last member, and as wide as the union. -/
  padded : r.members = ordered.map (·.member 0) ++ [.gap 0 r.size] ↔
    0 < r.size ∧ ¬∃ s ∈ slots, s.size = r.size
  bare : r.members = ordered.map (·.member 0) ↔ r.size = 0 ∨ ∃ s ∈ slots, s.size = r.size

variable {slots : List Slot}

/-- The widest of some slots does not reach a bound above it exactly if none of them does. A bound
of zero is reached without any slot. -/
theorem widest_lt_iff {n : Nat} (h : widest slots ≤ n) :
    widest slots < n ↔ 0 < n ∧ ¬∃ s ∈ slots, s.size = n := by
  constructor
  · intro hLt
    refine ⟨by omega, ?_⟩
    rintro ⟨s, hs, rfl⟩
    exact absurd (le_widest hs) (by omega)
  · rintro ⟨hPos, hNone⟩
    refine lt_of_le_of_ne h fun hEq => hNone ?_
    have hSome : slots ≠ [] := by
      rintro rfl
      exact hPos.ne hEq
    exact hEq ▸ exists_widest hSome

theorem isGreatest_size_unionOf (type : TypeExpr) (slots : List Slot) (minSize : Nat) :
    IsGreatest {n | n = minSize ∨ ∃ s ∈ slots, n = s.size} (unionOf type slots minSize).size := by
  rw [size_unionOf]
  constructor
  · rcases le_total (widest slots) minSize with hLe | hLe
    · exact .inl (max_eq_right hLe)
    · rw [max_eq_left hLe]
      rcases eq_or_ne slots [] with rfl | hSome
      · exact .inl (Nat.le_zero.mp hLe).symm
      · obtain ⟨s, hs, hSize⟩ := exists_widest hSome
        exact .inr ⟨s, hs, hSize.symm⟩
  · rintro n (rfl | ⟨s, hs, rfl⟩)
    · exact le_max_right _ _
    · exact (le_widest hs).trans (le_max_left _ _)

/-- The members of a union are its slots, and a gap if the widest of them does not fill it. -/
theorem members_unionOf_eq (type : TypeExpr) (slots : List Slot) (minSize : Nat) :
    (unionOf type slots minSize).members = (widestFirst slots).map (·.member 0) ++
      if widest slots < (unionOf type slots minSize).size
        then [.gap 0 (unionOf type slots minSize).size] else [] := by
  rw [size_unionOf]
  simp only [unionOf, head?_widestFirst]

/-- Slots over each other stand in their union from the widest on, and equally wide ones in the
order of the input. There is a gap as well exactly if the union takes some room and no slot takes
all of it: without slots and without a least size there is nothing to fill. -/
theorem unionOf_overlays (type : TypeExpr) (slots : List Slot) (minSize : Nat) :
    ∃ ordered, Overlay type slots ordered minSize (unionOf type slots minSize) := by
  have hMembers := members_unionOf_eq type slots minSize
  have hWidest : widest slots ≤ (unionOf type slots minSize).size := by
    rw [size_unionOf]
    exact le_max_left _ _
  have hLt := widest_lt_iff hWidest
  have hNot : ¬widest slots < (unionOf type slots minSize).size ↔
      (unionOf type slots minSize).size = 0 ∨
        ∃ s ∈ slots, s.size = (unionOf type slots minSize).size := by
    rw [hLt, not_and_or, not_not, Nat.pos_iff_ne_zero, not_not]
  refine ⟨widestFirst slots, rfl, rfl, isGreatest_size_unionOf .., widestFirst_perm slots,
    pairwise_widestFirst slots, filter_widestFirst slots, filter_members_unionOf .., ?_, ?_⟩
  · rw [← hLt, hMembers, List.append_cancel_left_eq]
    split
    · rename_i hFree
      exact ⟨fun _ => hFree, fun _ => rfl⟩
    · rename_i hFull
      exact ⟨nofun, fun hFree => absurd hFree hFull⟩
  · rw [← hNot, hMembers, List.append_right_eq_self]
    split
    · rename_i hFree
      exact ⟨nofun, fun hFull => absurd hFree hFull⟩
    · rename_i hFull
      exact ⟨fun _ => hFull, fun _ => rfl⟩

/-- A union of no slots and without a least size has no gap, although no slot reaches its size. -/
theorem exists_unpadded_unionOf :
    (unionOf (.inModule [] "Bare") [] 0).size = 0 ∧
    (¬∃ s ∈ ([] : List Slot), s.size = (unionOf (.inModule [] "Bare") [] 0).size) ∧
    (unionOf (.inModule [] "Bare") [] 0).members.getLast? ≠ some (.gap 0 0) ∧
    (unionOf (.inModule [] "Bare") [] 0).members = [] := by
  simp [unionOf, widestFirst, Record.empty]

end FixedLayout.Layout
