import FixedLayout.Proofs.Layout.Groups

/-! The plan of a struct and the order of its fields. Fields that share an offset stand in the order
of the input, so two orders of the fields differ in the order inside the groups and nowhere else.
That order shows where the first of a group is picked, in the name that an overrun is reported for,
and among equally wide members of one union. -/

namespace FixedLayout.Layout

/-! ### Plans that are the same -/

/-- Unions with the same members, of which equally wide ones may have changed places. -/
structure SameUnion (u u' : Record) : Prop where
  rest : u' = { u with members := u'.members }
  perm : u.members.Perm u'.members
  sizes : u.members.map Member.size = u'.members.map Member.size

/-- Overruns of one type at one offset, each reported for a field there. -/
inductive SameReport : Diagnostic → Diagnostic → Prop
  | overrun {key name name' : String} {cursor offset : Nat} :
      SameReport (.layoutOverrun key name cursor offset) (.layoutOverrun key name' cursor offset)

structure Plan.Same (plan plan' : Plan) : Prop where
  members : plan.members = plan'.members
  unions : List.Forall₂ SameUnion plan.unions plan'.unions
  diagnostics : List.Forall₂ SameReport plan.diagnostics plan'.diagnostics

/-! ### Unions -/

section Union

variable {slots slots' : List Slot}

/-- From the widest on, the sizes of some slots stand in one order only. -/
theorem sizes_widestFirst (h : slots.Perm slots') :
    (widestFirst slots).map Slot.size = (widestFirst slots').map Slot.size := by
  have hPerm : (widestFirst slots).Perm (widestFirst slots') :=
    (widestFirst_perm slots).trans (h.trans (widestFirst_perm slots').symm)
  have hSorted : ∀ slots, ((widestFirst slots).map Slot.size).Pairwise (· ≥ ·) := fun slots =>
    List.pairwise_map.mpr (pairwise_widestFirst slots)
  exact List.Perm.eq_of_pairwise (fun _ _ _ _ hGe hLe => Nat.le_antisymm hLe hGe)
    (hSorted slots) (hSorted slots') (hPerm.map Slot.size)

theorem sameUnion_unionOf (h : slots.Perm slots') (type : TypeExpr) (minSize : Nat) :
    SameUnion (unionOf type slots minSize) (unionOf type slots' minSize) := by
  have hSizes := sizes_widestFirst h
  have hWidest : widest slots = widest slots' := by
    rw [← head?_widestFirst, ← head?_widestFirst, ← List.head?_map, ← List.head?_map, hSizes]
  have hPerm : (widestFirst slots).Perm (widestFirst slots') :=
    (widestFirst_perm slots).trans (h.trans (widestFirst_perm slots').symm)
  simp only [unionOf, head?_widestFirst, hWidest]
  refine ⟨rfl, (hPerm.map _).append_right _, ?_⟩
  simp only [List.map_append, List.map_map]
  exact congrArg (· ++ _) hSizes

theorem place_same (h : slots.Perm slots') (owner : TypeExpr) (n o : Nat) :
    (place owner n o slots).1 = (place owner n o slots').1 ∧
      List.Forall₂ SameUnion (place owner n o slots).2 (place owner n o slots').2 := by
  unfold place
  split
  · obtain rfl := List.singleton_perm.mp h
    exact ⟨rfl, .nil⟩
  · rename_i hMany
    split
    · rename_i s
      exact absurd (List.perm_singleton.mp h) (hMany s)
    · have hUnion := sameUnion_unionOf h (unionType owner n) minUnionSize
      have hSize := congrArg Record.size hUnion.rest
      exact ⟨by simp only [hSize], .cons hUnion .nil⟩

end Union

/-! ### Groups -/

/-- The fields of one offset in two orders. If there are several, then not only pointers to the
virtual table. -/
structure SameGroup (config : Config) (group group' : List Slot) : Prop where
  perm : group.Perm group'
  offset : ∀ s ∈ group, ∀ t ∈ group, s.offset = t.offset
  field : 2 ≤ group.length → ∃ s ∈ group, config.isTableMarker s.name = false

theorem SameGroup.kept {config : Config} {group group' : List Slot}
    (h : SameGroup config group group') : (kept config group).Perm (kept config group') := by
  have hFields := h.perm.filter fun s => !config.isTableMarker s.name
  unfold Layout.kept
  rw [← h.perm.length_eq]
  split
  · exact h.perm
  · obtain ⟨s, hs, hMarker⟩ := h.field (by omega)
    have hMem : s ∈ group.filter fun s => !config.isTableMarker s.name :=
      List.mem_filter.mpr ⟨hs, by simp [hMarker]⟩
    have hSome := List.ne_nil_of_mem hMem
    have hSome' := List.ne_nil_of_mem (hFields.mem_iff.mp hMem)
    rwa [if_neg (by simpa using hSome), if_neg (by simpa using hSome')]

theorem layGroups_same {config : Config} {gs gs' : List (List Slot)}
    (h : List.Forall₂ (SameGroup config) gs gs') (owner : TypeExpr) (size cursor n : Nat) :
    (layGroups config owner size cursor n gs).Same (layGroups config owner size cursor n gs') := by
  induction h generalizing cursor n with
  | nil => exact ⟨rfl, .nil, .nil⟩
  | @cons group group' rest rest' hGroup _ ih =>
    cases group with
    | nil =>
      obtain rfl := hGroup.perm.nil_eq
      exact ih cursor n
    | cons first others =>
      cases group' with
      | nil => exact absurd hGroup.perm.eq_nil (by simp)
      | cons first' others' =>
        have hOffset : first'.offset = first.offset :=
          hGroup.offset _ (hGroup.perm.mem_iff.mpr List.mem_cons_self) _ List.mem_cons_self
        simp only [layGroups, hOffset, contenders_eq]
        split
        · exact ⟨rfl, .nil, .cons .overrun .nil⟩
        · -- Both orders place the same member, so they go on from the same cursor.
          obtain ⟨hMember, hUnions⟩ := place_same hGroup.kept owner n first.offset
          have hRest := ih
            (clampedAdd first.offset
              (place owner n first.offset (kept config (first' :: others'))).1.size)
            (n + (place owner n first.offset (kept config (first' :: others'))).2.length)
          rw [hMember, hUnions.length_eq]
          exact ⟨by simp only [hRest.members], List.rel_append hUnions hRest.unions,
            hRest.diagnostics⟩

/-! ### Whole plans -/

/-- Where several fields share an offset, one of them is no pointer to the virtual table. -/
def HasFields (config : Config) (slots : List Slot) : Prop :=
  ∀ o ∈ slots.map Slot.offset, 2 ≤ (slotsAt slots o).length →
    ∃ s ∈ slotsAt slots o, config.isTableMarker s.name = false

instance (config : Config) (slots : List Slot) : Decidable (HasFields config slots) :=
  inferInstanceAs (Decidable (∀ o ∈ slots.map Slot.offset, 2 ≤ (slotsAt slots o).length →
    ∃ s ∈ slotsAt slots o, config.isTableMarker s.name = false))

theorem offsets_perm {slots slots' : List Slot} (h : slots.Perm slots') :
    offsets slots = offsets slots' := by
  rw [offsets, offsets, List.toFinset_eq_of_perm _ _ (h.map Slot.offset)]

theorem groups_same {config : Config} {slots slots' : List Slot} (h : slots.Perm slots')
    (hFields : HasFields config slots) :
    List.Forall₂ (SameGroup config) (groups slots) (groups slots') := by
  rw [groups_eq, groups_eq, ← offsets_perm h, List.forall₂_map_left_iff, List.forall₂_map_right_iff,
    List.forall₂_same]
  intro o ho
  refine ⟨h.filter _, fun s hs t ht => ?_, hFields o (by simpa [offsets] using ho)⟩
  rw [(mem_slotsAt.mp hs).2, (mem_slotsAt.mp ht).2]

/-- The plan of a struct does not depend on the order of its fields, unless an offset has several
pointers to the virtual table and nothing else: the members are the same ones, the unions are the
same up to the order of equally wide members, and the same overrun is reported. -/
theorem reconstruct_perm {config : Config} {slots slots' : List Slot} (h : slots.Perm slots')
    (hFields : HasFields config slots) (owner : TypeExpr) (size : Nat) :
    (reconstruct config owner size slots).Same (reconstruct config owner size slots') :=
  layGroups_same (groups_same h hFields) owner size 0 0

/-- A pointer to the virtual table beside a field, and two fields that start inside of that. -/
def stacked : List Slot :=
  [⟨"vtbl", .ofPath ["u64"], 0, 8⟩, ⟨"whole", .ofPath ["u64"], 0, 8⟩,
    ⟨"first", .ofPath ["u16"], 4, 2⟩, ⟨"second", .ofPath ["u16"], 4, 2⟩]

/-- The overrun names the field that comes first. -/
theorem reconstruct_perm_stacked : stacked.Perm stacked.reverse ∧ HasFields {} stacked ∧
    (reconstruct {} (.inModule [] "Owner") 16 stacked).Same
      (reconstruct {} (.inModule [] "Owner") 16 stacked.reverse) ∧
    (reconstruct {} (.inModule [] "Owner") 16 stacked).diagnostics =
      [.layoutOverrun "crate::Owner" "first" 8 4] ∧
    (reconstruct {} (.inModule [] "Owner") 16 stacked.reverse).diagnostics =
      [.layoutOverrun "crate::Owner" "second" 8 4] := by
  have hPerm : stacked.Perm stacked.reverse := (List.reverse_perm stacked).symm
  have hFields : HasFields {} stacked := by decide
  have hSorted : byOffset stacked = stacked := by
    simp [byOffset, stacked, List.mergeSort, List.MergeSort.Internal.splitInTwo]
  have hSorted' : byOffset stacked.reverse =
      stacked.reverse.drop 2 ++ stacked.reverse.take 2 := by
    simp [byOffset, stacked, List.mergeSort, List.MergeSort.Internal.splitInTwo]
  refine ⟨hPerm, hFields, reconstruct_perm hPerm hFields _ _, ?_, ?_⟩
  · rw [reconstruct, groups, hSorted]
    decide +kernel
  · rw [reconstruct, groups, hSorted']
    decide +kernel

end FixedLayout.Layout
