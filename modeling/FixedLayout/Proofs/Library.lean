import FixedLayout.Metadata
import Mathlib.Data.List.Nodup

/-! The index of a library answers as a scan of its types does. -/

namespace FixedLayout.Library

/-- The positions that an index has for a name. -/
def positions (index : List (String × List Nat)) (name : String) : List Nat :=
  (index.lookup name).getD []

/-- The index of a list of types: for each name it has the positions of the types of that name, in
increasing order. -/
def IsIndexOf (index : List (String × List Nat)) (types : List TypeDesc) : Prop :=
  ∀ name, positions index name = types.findIdxs (·.name = name)

theorem positions_addPosition (index : List (String × List Nat)) (name other : String) (i : Nat) :
    positions (addPosition name i index) other =
      positions index other ++ if other = name then [i] else [] := by
  unfold positions
  induction index with
  | nil =>
    by_cases h : other = name
    · simp [addPosition, h]
    · have hne : (other == name) = false := by simpa using h
      simp [addPosition, List.lookup_cons, hne, h]
  | cons e index ih =>
    obtain ⟨n, is⟩ := e
    unfold addPosition
    by_cases hn : n = name
    · subst hn
      by_cases h : other = n
      · simp [h]
      · have hne : (other == n) = false := by simpa using h
        simp [List.lookup_cons, hne, h]
    · rw [if_neg hn]
      by_cases h : other = n
      · subst h
        simp [hn]
      · have hne : (other == n) = false := by simpa using h
        simpa [List.lookup_cons, hne] using ih

theorem isIndexOf_nil : IsIndexOf [] [] := fun _ => rfl

/-- One more type, with the position behind all others, keeps the index that of the types. -/
theorem IsIndexOf.addPosition {index : List (String × List Nat)} {types : List TypeDesc}
    (h : IsIndexOf index types) (t : TypeDesc) :
    IsIndexOf (addPosition t.name types.length index) (types ++ [t]) := by
  intro name
  rw [positions_addPosition, h name, List.findIdxs_append, List.findIdxs_singleton, Nat.zero_add]
  by_cases hName : name = t.name
  · simp [hName]
  · simp [hName, Ne.symm hName]

theorem IsIndexOf.indexFrom {index : List (String × List Nat)} {pre : List TypeDesc}
    (h : IsIndexOf index pre) (types : List TypeDesc) :
    IsIndexOf (indexFrom pre.length index types) (pre ++ types) := by
  induction types generalizing pre index with
  | nil => simpa [Library.indexFrom] using h
  | cons t types ih =>
    have hNext := ih (h.addPosition t)
    rw [List.length_append, List.length_singleton, List.append_assoc] at hNext
    exact hNext

theorem isIndexOf_index (l : Library) : IsIndexOf l.index l.types := by
  rw [l.indexed]
  exact isIndexOf_nil.indexFrom l.types

/-- The items at the positions of those with a property are these items. -/
theorem filterMap_findIdxs {α : Type} (p : α → Bool) (pre l : List α) :
    (l.findIdxs p pre.length).filterMap ((pre ++ l)[·]?) = l.filter p := by
  induction l generalizing pre with
  | nil => simp
  | cons a l ih =>
    have hRest := ih (pre ++ [a])
    rw [List.length_append, List.length_singleton, List.append_assoc, List.singleton_append]
      at hRest
    have hThere : (pre ++ a :: l)[pre.length]? = some a := by simp
    rw [List.findIdxs_cons, List.filter_cons]
    split
    · rw [List.filterMap_cons_some hThere, hRest]
    · exact hRest

theorem entries_eq (l : Library) (name : String) :
    l.entries name = l.types.filter (·.name = name) := by
  have hPositions := isIndexOf_index l name
  unfold positions at hPositions
  rw [entries, hPositions]
  exact filterMap_findIdxs _ [] l.types

theorem definition?_eq (l : Library) (name : String) :
    l.definition? name = l.types.find? fun t => t.name = name ∧ t.args = [] := by
  rw [definition?, entries_eq, List.find?_filter]
  congr 1
  funext t
  simp

theorem instantiation?_eq (l : Library) (name : String) (args : List Shape) :
    l.instantiation? name args = l.types.find? fun t => t.name = name ∧ t.args = args := by
  rw [instantiation?, entries_eq, List.find?_filter]
  congr 1
  funext t
  simp

theorem definition?_spec {l : Library} {name : String} {desc : TypeDesc}
    (h : l.definition? name = some desc) : desc ∈ l.types ∧ desc.name = name ∧ desc.args = [] := by
  rw [definition?_eq] at h
  have hSpec := List.find?_some h
  exact ⟨List.mem_of_find?_eq_some h, by simpa using hSpec⟩

theorem instantiation?_spec {l : Library} {name : String} {args : List Shape} {desc : TypeDesc}
    (h : l.instantiation? name args = some desc) :
    desc ∈ l.types ∧ desc.name = name ∧ desc.args = args := by
  rw [instantiation?_eq] at h
  have hSpec := List.find?_some h
  exact ⟨List.mem_of_find?_eq_some h, by simpa using hSpec⟩

section Distinct

variable {l l' : Library} (hDistinct : (l.types.map fun t => (t.name, t.args)).Nodup)
include hDistinct

/-- Where no two entries share a name and arguments, every entry is found by these. -/
theorem instantiation?_of_mem {desc : TypeDesc} (hMem : desc ∈ l.types) :
    l.instantiation? desc.name desc.args = some desc := by
  cases hFind : l.instantiation? desc.name desc.args with
  | none =>
    rw [instantiation?_eq, List.find?_eq_none] at hFind
    exact absurd (by simp) (hFind desc hMem)
  | some other =>
    obtain ⟨hOther, hName, hArgs⟩ := instantiation?_spec hFind
    have hSame : other = desc :=
      List.inj_on_of_nodup_map hDistinct hOther hMem (by rw [hName, hArgs])
    rw [hSame]

omit hDistinct in
/-- A definition is the entry of its name without arguments. -/
theorem definition?_eq_instantiation? (l : Library) (name : String) :
    l.definition? name = l.instantiation? name [] := by
  rw [definition?_eq, instantiation?_eq]

theorem definition?_of_mem {desc : TypeDesc} (hMem : desc ∈ l.types) (hArgs : desc.args = []) :
    l.definition? desc.name = some desc := by
  rw [definition?_eq_instantiation?, ← hArgs]
  exact instantiation?_of_mem hDistinct hMem

/-- Then the order of the entries does not matter. -/
theorem instantiation?_perm (h : l'.types.Perm l.types) :
    l'.instantiation? = l.instantiation? := by
  have hDistinct' : (l'.types.map fun t => (t.name, t.args)).Nodup :=
    (h.map _).nodup_iff.mpr hDistinct
  funext name args
  ext desc
  constructor
  · intro hDesc
    obtain ⟨hMem, rfl, rfl⟩ := instantiation?_spec hDesc
    exact instantiation?_of_mem hDistinct (h.mem_iff.mp hMem)
  · intro hDesc
    obtain ⟨hMem, rfl, rfl⟩ := instantiation?_spec hDesc
    exact instantiation?_of_mem hDistinct' (h.mem_iff.mpr hMem)

theorem definition?_perm (h : l'.types.Perm l.types) : l'.definition? = l.definition? := by
  funext name
  rw [definition?_eq_instantiation?, definition?_eq_instantiation?,
    instantiation?_perm hDistinct h]

end Distinct

end FixedLayout.Library
