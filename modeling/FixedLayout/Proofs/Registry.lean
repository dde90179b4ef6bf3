import FixedLayout.Proofs.Association
import FixedLayout.Registry

/-! The registry as a map from keys, which registration extends one free key at a time. -/

namespace FixedLayout

namespace Registry

/-- The keys that declarations are indexed under, in the order of registration. -/
def keys (r : Registry) : List String := r.entries.map (·.1)

theorem contains_iff {r : Registry} {key : String} : r.contains key = true ↔ key ∈ r.keys := by
  simp only [contains, get?, keys]
  generalize r.entries = entries
  induction entries with
  | nil => simp
  | cons e entries ih =>
    obtain ⟨k, d⟩ := e
    by_cases h : key = k
    · simp [h]
    · rw [List.lookup_cons, beq_false_of_ne h]
      simp only [ih, List.map_cons, List.mem_cons, h, false_or]

/-- What a type stands for depends on the keys alone. -/
theorem resolve?_of_contains {r r' : Registry} (h : ∀ key, r'.contains key = r.contains key)
    (t : TypeExpr) : r'.resolve? t = r.resolve? t := by
  simp only [resolve?, h]

theorem resolve?_congr {r r' : Registry} (h : r'.keys = r.keys) (t : TypeExpr) :
    r'.resolve? t = r.resolve? t := by
  refine resolve?_of_contains (fun key => ?_) t
  rw [Bool.eq_iff_iff, contains_iff, contains_iff, h]

/-- The registry with one more declaration, under its key. -/
def push (r : Registry) (d : Declaration) : Registry := ⟨r.entries ++ [(d.key, d)]⟩

@[simp] theorem keys_push (r : Registry) (d : Declaration) :
    (r.push d).keys = r.keys ++ [d.key] := by
  simp [keys, push]

theorem contains_push (r : Registry) (d : Declaration) (key : String) :
    (r.push d).contains key = (r.contains key || key == d.key) := by
  rw [Bool.eq_iff_iff, contains_iff]
  simp [contains_iff]

theorem get?_push (r : Registry) (d : Declaration) (key : String) :
    (r.push d).get? key = (r.get? key).or (if key = d.key then some d else none) := by
  rw [get?, push, List.lookup_append, lookup_cons_eq]
  rfl

theorem register_of_free {r : Registry} {d : Declaration} (h : r.contains d.key = false) :
    r.register d = .ok (r.push d) := by
  simp [register, push, h]

theorem register_of_taken {r : Registry} {d : Declaration} (h : r.contains d.key = true) :
    ∃ e, r.register d = .error e := by
  simp [register, h]

theorem get?_of_mem {r : Registry} (hKeys : r.keys.Nodup) {key : String} {d : Declaration}
    (h : (key, d) ∈ r.entries) : r.get? key = some d :=
  lookup_of_mem hKeys h

theorem mem_of_get? {r : Registry} {key : String} {d : Declaration} (h : r.get? key = some d) :
    (key, d) ∈ r.entries :=
  mem_of_lookup h

theorem exists_get? {r : Registry} {key : String} (h : r.contains key = true) :
    ∃ d, r.get? key = some d :=
  Option.isSome_iff_exists.mp h

/-- Where every declaration stands under its own key, the keys are those of the declarations. -/
theorem map_key_declarations {r : Registry} (hOwn : ∀ key d, (key, d) ∈ r.entries → d.key = key) :
    r.declarations.map Declaration.key = r.keys := by
  rw [declarations, keys, List.map_map]
  exact List.map_congr_left fun entry hEntry => hOwn entry.1 entry.2 hEntry

theorem mem_records {reg : Registry} {r : Record} :
    r ∈ reg.records ↔ ∃ key, (key, .record r) ∈ reg.entries := by
  simp only [records, declarations, List.mem_filterMap, List.mem_map]
  constructor
  · rintro ⟨_, ⟨⟨key, d⟩, hEntry, rfl⟩, hRecord⟩
    cases d with
    | record =>
      cases hRecord
      exact ⟨key, hEntry⟩
    | enumeration | primitive => cases hRecord
  · rintro ⟨key, hEntry⟩
    exact ⟨_, ⟨_, hEntry, rfl⟩, rfl⟩

/-- Where declarations stand under their own keys, no two records share a key. -/
theorem nodup_records {r : Registry} (hKeys : r.keys.Nodup)
    (hOwn : ∀ key d, (key, d) ∈ r.entries → d.key = key) : (r.records.map Record.key).Nodup := by
  rw [← map_key_declarations hOwn] at hKeys
  refine List.pairwise_map.mpr ((List.pairwise_map.mp hKeys).filterMap _ ?_)
  intro d d' hne record hRecord record' hRecord'
  cases d <;> cases hRecord
  cases d' <;> cases hRecord'
  exact hne

/-- The records in the order of their keys. -/
def sortedRecords (r : Registry) : List Record :=
  r.records.mergeSort fun a b => decide (a.key ≤ b.key)

theorem sortedRecords_perm (r : Registry) : r.sortedRecords.Perm r.records :=
  List.mergeSort_perm _ _

theorem pairwise_sortedRecords (r : Registry) :
    r.sortedRecords.Pairwise fun a b => a.key ≤ b.key := by
  have hSorted := @List.pairwise_mergeSort Record (fun a b => decide (a.key ≤ b.key))
    (fun a b c hab hbc => decide_eq_true
      (String.le_trans (of_decide_eq_true hab) (of_decide_eq_true hbc)))
    (fun a b => by simpa using String.le_total a.key b.key) r.records
  exact hSorted.imp of_decide_eq_true

theorem pairwise_lt_sortedRecords {r : Registry} (hKeys : (r.records.map Record.key).Nodup) :
    r.sortedRecords.Pairwise fun a b => a.key < b.key := by
  have hDistinct : (r.sortedRecords.map Record.key).Nodup :=
    (r.sortedRecords_perm.map _).nodup_iff.mpr hKeys
  refine (r.pairwise_sortedRecords.and (List.pairwise_map.mp hDistinct)).imp ?_
  exact fun ⟨hLe, hne⟩ => String.not_le.mp fun hGe => hne (String.le_antisymm hLe hGe)

/-- A registry becomes another one as declarations with a property are registered, each under a
free key. -/
inductive Grows (P : Declaration → Prop) : Registry → Registry → Prop
  | refl {r : Registry} : Grows P r r
  | push {r r' : Registry} {d : Declaration} (h : Grows P r r') (hP : P d)
      (hFree : r'.contains d.key = false) : Grows P r (r'.push d)

namespace Grows

variable {P Q : Declaration → Prop} {r r' r'' : Registry}

theorem trans (h : Grows P r r') (h' : Grows P r' r'') : Grows P r r'' := by
  induction h' with
  | refl => exact h
  | push _ hP hFree ih => exact .push ih hP hFree

theorem mono (h : Grows P r r') (hPQ : ∀ d, P d → Q d) : Grows Q r r' := by
  induction h with
  | refl => exact .refl
  | push _ hP hFree ih => exact .push ih (hPQ _ hP) hFree

theorem isPrefix (h : Grows P r r') : r.entries <+: r'.entries := by
  induction h with
  | refl => exact List.prefix_rfl
  | push _ _ _ ih => exact ih.trans (List.prefix_append ..)

theorem nodup (h : Grows P r r') (hKeys : r.keys.Nodup) : r'.keys.Nodup := by
  induction h with
  | refl => exact hKeys
  | @push r' d _ _ hFree ih =>
    rw [keys_push, List.nodup_append]
    refine ⟨ih, by simp, fun key hMem key' hMem' hEq => ?_⟩
    obtain rfl := List.mem_singleton.mp hMem'
    rw [contains_iff.mpr (hEq ▸ hMem)] at hFree
    cases hFree

/-- What was not there before has the property, and stands under its own key. -/
theorem origin (h : Grows P r r') {key : String} {d : Declaration} (hMem : (key, d) ∈ r'.entries) :
    (key, d) ∈ r.entries ∨ key = d.key ∧ P d := by
  induction h with
  | refl => exact .inl hMem
  | push _ hP _ ih =>
    rcases List.mem_append.mp hMem with hMem | hMem
    · exact ih hMem
    · cases List.mem_singleton.mp hMem
      exact .inr ⟨rfl, hP⟩

end Grows

end Registry

end FixedLayout
