import FixedLayout.Proofs.Taint.Wrapping
import Mathlib.Data.Set.Card

/-! What the passes of a propagation count. Every pass but the last taints something, so there are
not many of them, and together they count each key once that was not tainted before. -/

namespace FixedLayout.Taint

variable {r : Registry} {t t' t'' : Taint} {n n' : Nat}

/-- `t'` has the keys of `t` and `n` others. -/
def Gains (n : Nat) (t t' : Taint) : Prop :=
  t.keySet ⊆ t'.keySet ∧ (t'.keySet \ t.keySet).encard = n

theorem Gains.refl (t : Taint) : Gains 0 t t := ⟨subset_rfl, by simp⟩

theorem Gains.trans (h : Gains n t t') (h' : Gains n' t' t'') : Gains (n + n') t t'' := by
  refine ⟨h.1.trans h'.1, ?_⟩
  have hDisjoint : Disjoint (t'.keySet \ t.keySet) (t''.keySet \ t'.keySet) :=
    Set.disjoint_sdiff_right.mono_left Set.sdiff_subset
  have hSplit : t''.keySet \ t.keySet = (t'.keySet \ t.keySet) ∪ (t''.keySet \ t'.keySet) := by
    rw [Set.union_comm, Set.sdiff_union_sdiff_cancel h'.1 h.1]
  rw [hSplit, Set.encard_union_eq hDisjoint, h.2, h'.2]
  norm_cast

theorem gains_mark {key : String} (h : key ∉ t.keySet) : Gains 1 t (t.mark key) := by
  refine ⟨keySet_subset_mark t key, ?_⟩
  have hNew : (t.mark key).keySet \ t.keySet = {key} := by
    ext other
    rw [Set.mem_sdiff, mem_keySet, contains_mark, Bool.or_eq_true, beq_iff_eq, ← mem_keySet,
      Set.mem_singleton_iff]
    constructor
    · rintro ⟨hOld | rfl, hOther⟩
      · exact absurd hOld hOther
      · rfl
    · rintro rfl
      exact ⟨.inr rfl, h⟩
  simp [hNew]

/-- A pass counts the keys that it taints. -/
theorem gains_pass (r : Registry) (records : List Record) (t : Taint) :
    Gains (pass r records t).2 t (pass r records t).1 := by
  induction records generalizing t with
  | nil => exact .refl t
  | cons record records ih =>
    rw [pass]
    split
    · rename_i hReaches
      have hNew : record.key ∉ t.keySet := by
        simp only [reaches, Bool.and_eq_true, Bool.not_eq_true'] at hReaches
        simp [hReaches.1]
      have hRest := (gains_mark hNew).trans (ih (t.mark record.key))
      rwa [Nat.add_comm] at hRest
    · exact ih t

/-- So do all passes together. -/
theorem gains_spread (r : Registry) (t : Taint) :
    Gains (spread r t).2.sum t (spread r t).1 := by
  induction t using spread.induct r with
  | case1 t =>
    rename_i hStop
    have hPass := gains_pass r r.records t
    rw [hStop] at hPass
    rw [spread, dif_pos hStop]
    exact hPass
  | case2 t =>
    rename_i hMore ih
    rw [spread, dif_neg hMore]
    exact (gains_pass r r.records t).trans ih

/-- Every pass but the last counts something, and leaves fewer records for those after it. -/
theorem spread_counts (r : Registry) (t : Taint) :
    ∃ counts, (spread r t).2 = counts ++ [0] ∧ (∀ n ∈ counts, 0 < n) ∧
      counts.length ≤ untainted r t := by
  induction t using spread.induct r with
  | case1 t =>
    rename_i hStop
    rw [spread, dif_pos hStop]
    exact ⟨[], rfl, List.forall_mem_nil _, Nat.zero_le _⟩
  | case2 t =>
    rename_i hMore ih
    obtain ⟨counts, hCounts, hPos, hLength⟩ := ih
    rw [spread, dif_neg hMore]
    refine ⟨_ :: counts, congrArg _ hCounts, ?_, ?_⟩
    · exact List.forall_mem_cons.mpr ⟨Nat.pos_of_ne_zero hMore, hPos⟩
    · exact Nat.succ_le_of_lt (hLength.trans_lt (untainted_pass_lt hMore))

/-- Propagation answers what its passes count: something in each pass but the last, and nothing in
the last one. No taint is lost, the counts add up to the number of the new keys, and there is at
most one pass more than there are structs and unions. -/
theorem propagate_counts (r : Registry) (t : Taint) :
    (∃ counts, (propagate r t).2.2 = counts ++ [0] ∧ ∀ n ∈ counts, 0 < n) ∧
    t.keySet ⊆ (propagate r t).2.1.keySet ∧
    ((propagate r t).2.1.keySet \ t.keySet).encard = (propagate r t).2.2.sum ∧
    (propagate r t).2.2.length ≤ r.records.length + 1 := by
  rw [propagate_eq]
  obtain ⟨hSubset, hNew⟩ := gains_spread r t
  obtain ⟨counts, hCounts, hPos, hLength⟩ := spread_counts r t
  refine ⟨⟨counts, hCounts, hPos⟩, hSubset, hNew, ?_⟩
  have hUntainted : untainted r t ≤ r.records.length := List.countP_le_length
  simp only [hCounts, List.length_append, List.length_singleton]
  omega

end FixedLayout.Taint
