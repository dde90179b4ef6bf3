import FixedLayout.Proofs.Layout.Groups

/-! The types in a plan. A member has bytes, the type of a slot or a union of the plan as its type,
and the members of these unions have bytes or the types of slots. -/

namespace FixedLayout.Layout

/-- The plan has only types with the property, apart from those of its own unions. -/
def Plan.Uses (P : TypeExpr → Prop) (plan : Plan) : Prop :=
  (∀ m ∈ plan.members, P m.type ∨ ∃ u ∈ plan.unions, m.type = u.type) ∧
    ∀ u ∈ plan.unions, ∀ m ∈ u.members, P m.type

variable {P : TypeExpr → Prop} (hBytes : ∀ size, P (Member.bytesType size))
include hBytes

theorem type_of_mem_fillGaps {cursor target : Nat} {m : Member} (h : m ∈ fillGaps cursor target) :
    P m.type := by
  fun_induction fillGaps cursor target with
  | case1 cursor hLt span ih =>
    rcases List.mem_cons.mp h with rfl | h
    · exact hBytes span
    · exact ih h
  | case2 => cases h

theorem types_unionOf {slots : List Slot} (hSlots : ∀ s ∈ slots, P s.type) (type : TypeExpr)
    (size : Nat) : ∀ m ∈ (unionOf type slots size).members, P m.type := by
  intro m hm
  rcases List.mem_append.mp hm with hm | hm
  · obtain ⟨s, hs, rfl⟩ := List.mem_map.mp hm
    exact hSlots s ((widestFirst_perm slots).mem_iff.mp hs)
  · split at hm
    · rw [List.mem_singleton.mp hm]
      exact hBytes _
    · cases hm

theorem uses_layGroups {config : Config} {owner : TypeExpr} {size cursor n : Nat}
    {groups : List (List Slot)} (hGroups : ∀ group ∈ groups, ∀ s ∈ group, P s.type) :
    (layGroups config owner size cursor n groups).Uses P := by
  have hGaps : ∀ {a b : Nat}, ∀ m ∈ fillGaps a b, P m.type := fun m hm =>
    type_of_mem_fillGaps hBytes hm
  fun_induction layGroups config owner size cursor n groups with
  | case1 => exact ⟨fun m hm => .inl (hGaps m hm), by simp⟩
  | case2 _ _ _ ih => exact ih fun group hGroup => hGroups group (by simp [hGroup])
  | case3 => exact ⟨fun m hm => .inl (hGaps m hm), by simp⟩
  | case4 cursor n first others rest hLe member unions hPlace plan ih =>
    obtain ⟨hMembers, hUnions⟩ := ih fun group hGroup => hGroups group (by simp [hGroup])
    have hKept : ∀ s ∈ contenders config first others, P s.type := fun s hs =>
      hGroups _ List.mem_cons_self s (mem_of_mem_kept (contenders_eq config first others ▸ hs))
    have hHere : (P member.type ∨ ∃ u ∈ unions, member.type = u.type) ∧
        ∀ u ∈ unions, ∀ m ∈ u.members, P m.type := by
      generalize contenders config first others = slots at hPlace hKept
      unfold place at hPlace
      split at hPlace
      · cases hPlace
        exact ⟨.inl (hKept _ (by simp)), by simp⟩
      · cases hPlace
        refine ⟨.inr ⟨_, List.mem_singleton_self _, rfl⟩, fun u hu => ?_⟩
        rw [List.mem_singleton.mp hu]
        exact types_unionOf hBytes hKept _ _
    constructor
    · intro m hm
      rcases List.mem_append.mp hm with hm | hm
      · exact .inl (hGaps m hm)
      · rcases List.mem_cons.mp hm with rfl | hm
        · refine hHere.1.imp_right fun hUnion => ?_
          obtain ⟨u, hu, hEq⟩ := hUnion
          exact ⟨u, List.mem_append_left _ hu, hEq⟩
        · refine (hMembers m hm).imp_right fun hUnion => ?_
          obtain ⟨u, hu, hEq⟩ := hUnion
          exact ⟨u, List.mem_append_right _ hu, hEq⟩
    · intro u hu
      rcases List.mem_append.mp hu with hu | hu
      · exact hHere.2 u hu
      · exact hUnions u hu

theorem uses_reconstruct {slots : List Slot} (hSlots : ∀ s ∈ slots, P s.type) (config : Config)
    (owner : TypeExpr) (size : Nat) : (reconstruct config owner size slots).Uses P := by
  refine uses_layGroups hBytes fun group hGroup s hs => ?_
  rw [groups_eq] at hGroup
  obtain ⟨o, -, rfl⟩ := List.mem_map.mp hGroup
  exact hSlots s (mem_slotsAt.mp hs).1

end FixedLayout.Layout
