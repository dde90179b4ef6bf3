import Mathlib.Data.List.Nodup

/-! Lists of pairs as maps. Where no two pairs share a key, to look up a key is to find its pair. To
read a list is to read each of its items. -/

namespace FixedLayout

variable {α β : Type} [BEq α] [LawfulBEq α] {l : List (α × β)} {k : α} {v : β}

theorem lookup_cons_eq [DecidableEq α] {k' : α} :
    ((k, v) :: l).lookup k' = if k' = k then some v else l.lookup k' := by
  by_cases h : k' = k
  · simp [h]
  · rw [List.lookup_cons, beq_false_of_ne h, if_neg h]

theorem mem_of_lookup (h : l.lookup k = some v) : (k, v) ∈ l := by
  obtain ⟨before, rest, rfl, -⟩ := List.lookup_eq_some_iff.mp h
  simp

theorem lookup_of_mem (hKeys : (l.map (·.1)).Nodup) (h : (k, v) ∈ l) : l.lookup k = some v := by
  obtain ⟨before, rest, rfl⟩ := List.append_of_mem h
  refine List.lookup_eq_some_iff.mpr ⟨before, rest, rfl, fun p hp => ?_⟩
  have hne : p.1 ≠ k := by
    rw [List.map_append, List.nodup_append] at hKeys
    exact hKeys.2.2 _ (List.mem_map_of_mem hp) _ (by simp)
  simpa using hne.symm

theorem mapM_eq_some_iff {γ δ : Type} {f : γ → Option δ} {items : List γ} {found : List δ} :
    items.mapM f = some found ↔ items.map f = found.map some := by
  induction items generalizing found with
  | nil => cases found <;> simp
  | cons item items ih =>
    cases found <;> cases f item <;> simp [Option.bind_eq_some_iff, ih, and_comm]

end FixedLayout
