import FixedLayout.Proofs.Taint.Closure

/-! Every taint has a reason: a key is tainted from the start, or a member of its record mentions
what is tainted at the end. In a union, that member ends up wrapped. -/

namespace FixedLayout.Taint

variable {r : Registry} {t : Taint}

/-- The keys that are tainted from the start, or have a member that mentions what `t'` taints. -/
def supported (r : Registry) (t t' : Taint) : Set String :=
  {key | key ∈ t.keySet ∨ ∃ record ∈ r.records, record.key = key ∧
    ∃ m ∈ record.members, t'.touches r m.type = true}

/-- Spreading taints no key without support. -/
theorem spread_subset_supported (r : Registry) (t : Taint) :
    (spread r t).1.keySet ⊆ supported r t (spread r t).1 := by
  obtain ⟨⟨hStart, hClosed⟩, hLeast⟩ := isLeast_spread r t
  have hSub : supported r t (spread r t).1 ⊆ (spread r t).1.keySet := by
    rintro key (hKey | ⟨record, hRecord, rfl, m, hm, hTouches⟩)
    · exact hStart hKey
    · obtain ⟨u, hu, other, hResolve, hOther⟩ := touches_iff.mp hTouches
      exact hClosed record hRecord m hm u hu other hResolve hOther
  -- The supported keys are closed under mention themselves, and the taint is the least such set.
  refine hLeast ⟨fun _ => .inl, ?_⟩
  intro record hRecord m hm u hu other hResolve hOther
  exact .inr ⟨record, hRecord, rfl, m, hm,
    touches_iff.mpr ⟨u, hu, other, hResolve, hSub hOther⟩⟩

/-- Wrapping a tainted union wraps every member that mentions a tainted declaration, apart from
gaps. -/
theorem hasManuallyDrop_wrapRecord {record : Record} (hUnion : record.isUnion = true)
    (hTainted : t.contains record.key = true) {m : Member} (hm : m ∈ record.members)
    (hRole : m.role ≠ .gap) (hTouches : t.touches r m.type = true) :
    (t.wrapRecord r record).hasManuallyDrop = true := by
  have hWrapped : (t.wrapMember r m).type.isManuallyDrop = true := by
    rw [wrapMember]
    split
    · simp [TypeExpr.manuallyDrop, TypeExpr.isManuallyDrop, TypeExpr.withArguments,
        TypeExpr.ofPath]
    · rename_i hPlain
      simpa [hRole, hTouches] using hPlain
  rw [wrapRecord, if_pos (by simp [hUnion, hTainted])]
  exact List.any_eq_true.mpr ⟨_, List.mem_map_of_mem hm, hWrapped⟩

end FixedLayout.Taint
