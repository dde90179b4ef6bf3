import FixedLayout.Datum
import FixedLayout.Proofs.Association

/-! Data without numbers, and how deep they are. A datum that is cut off below some levels can be
read if it has no more than these, and then it is still the same. Also what is read from a record of
one field, and what is behind the tag of a record. -/

namespace FixedLayout.Datum

/-- A datum that has a text of its own. Numbers are left out. -/
inductive Plain : Datum → Prop
  | null : Plain .null
  | bool (b : Bool) : Plain (.bool b)
  | string (s : String) : Plain (.string s)
  | list {items : List Datum} (h : ∀ d ∈ items, Plain d) : Plain (.list items)
  | table {fields : List (String × Datum)} (h : ∀ name d, (name, d) ∈ fields → Plain d) :
      Plain (.table fields)

@[simp] theorem plain_text (s : String) : (text s).Plain := .string s

theorem plain_table_iff {fields : List (String × Datum)} :
    (table fields).Plain ↔ ∀ e ∈ fields, e.2.Plain :=
  ⟨fun | .table h => fun e he => h e.1 e.2 he, fun h => .table fun name d he => h (name, d) he⟩

section Parts

variable (n : Nat) (items : List Datum) (fields : List (String × Datum))

theorem limitItems_eq_map : limitItems n items = items.map (limit n) := by
  induction items with
  | nil => rfl
  | cons d items ih => rw [limitItems, ih, List.map_cons]

theorem limitFields_eq_map : limitFields n fields = fields.map fun e => (e.1, limit n e.2) := by
  induction fields with
  | nil => rfl
  | cons e fields ih =>
    obtain ⟨name, d⟩ := e
    rw [limitFields, ih, List.map_cons]

theorem depthOfItems_le_iff : depthOfItems items ≤ n ↔ ∀ d ∈ items, d.depth ≤ n := by
  induction items with
  | nil => simp [depthOfItems]
  | cons d items ih => rw [depthOfItems, Nat.max_le, ih, List.forall_mem_cons]

theorem depthOfFields_le_iff : depthOfFields fields ≤ n ↔ ∀ e ∈ fields, e.2.depth ≤ n := by
  induction fields with
  | nil => simp [depthOfFields]
  | cons e fields ih =>
    obtain ⟨name, d⟩ := e
    rw [depthOfFields, Nat.max_le, ih, List.forall_mem_cons]

theorem areSound_iff : areSound items = true ↔ ∀ d ∈ items, d.isSound = true := by
  induction items with
  | nil => simp [areSound]
  | cons d items ih => simp [areSound, ih]

theorem haveSound_iff : haveSound fields = true ↔ ∀ e ∈ fields, e.2.isSound = true := by
  induction fields with
  | nil => simp [haveSound]
  | cons e fields ih =>
    obtain ⟨name, d⟩ := e
    rw [haveSound, Bool.and_eq_true, ih, List.forall_mem_cons]

end Parts

variable {d : Datum}

/-- A datum within the limit is left as it is. -/
theorem Plain.limit_eq_self (h : d.Plain) {n : Nat} (hDepth : d.depth ≤ n) : d.limit n = d := by
  induction h generalizing n with
  | null | bool | string => simp [limit]
  | @list items _ ih =>
    rw [depth] at hDepth
    obtain ⟨n, rfl⟩ : ∃ below, n = below + 1 := ⟨n - 1, by omega⟩
    have hItems := (depthOfItems_le_iff n items).mp (by omega)
    rw [limit, limitItems_eq_map, List.map_congr_left fun e he => ih e he (hItems e he),
      List.map_id']
  | @table fields _ ih =>
    rw [depth] at hDepth
    obtain ⟨n, rfl⟩ : ∃ below, n = below + 1 := ⟨n - 1, by omega⟩
    have hFields := (depthOfFields_le_iff n fields).mp (by omega)
    have hSame : ∀ e ∈ fields, (e.1, limit n e.2) = e := fun e he => by
      rw [ih e.1 e.2 he (hFields e he)]
    rw [limit, limitFields_eq_map, List.map_congr_left hSame, List.map_id']

/-- A datum beyond the limit cannot be read any more. -/
theorem Plain.isSound_limit_iff (h : d.Plain) {n : Nat} :
    (d.limit n).isSound = true ↔ d.depth ≤ n := by
  induction h generalizing n with
  | null | bool | string => simp [limit, isSound, depth]
  | @list items _ ih =>
    rw [depth]
    cases n with
    | zero => simp [limit, isSound]
    | succ n =>
      rw [limit, isSound, areSound_iff, limitItems_eq_map, List.forall_mem_map,
        Nat.add_le_add_iff_right, depthOfItems_le_iff]
      exact forall₂_congr fun e he => ih e he
  | @table fields _ ih =>
    rw [depth]
    cases n with
    | zero => simp [limit, isSound]
    | succ n =>
      rw [limit, isSound, haveSound_iff, limitFields_eq_map, List.forall_mem_map,
        Nat.add_le_add_iff_right, depthOfFields_le_iff]
      exact forall₂_congr fun e he => ih e.1 e.2 he

theorem Plain.isSound (h : d.Plain) : d.isSound = true := by
  rw [← h.limit_eq_self (Nat.le_refl _)]
  exact h.isSound_limit_iff.mpr (Nat.le_refl _)

/-! ### Records of one field -/

variable {name : String} {part : Datum}

/-- The record holds the part in its only field of the name. A table may have fields of other names,
a list has no other item. -/
inductive Holds (name : String) : Datum → Datum → Prop
  | table {fields : List (String × Datum)} {part : Datum}
      (h : fields.filter (·.1 == name) = [(name, part)]) : Holds name (.table fields) part
  | list (part : Datum) : Holds name (.list [part]) part

theorem holds_table_iff {fields : List (String × Datum)} :
    Holds name (.table fields) part ↔ fields.filter (·.1 == name) = [(name, part)] :=
  ⟨fun | .table h => h, .table⟩

theorem holds_list_iff {items : List Datum} : Holds name (.list items) part ↔ items = [part] :=
  ⟨fun | .list _ => rfl, fun h => h ▸ .list part⟩

theorem filter_eq_singleton_iff {fields : List (String × Datum)} :
    fields.filter (·.1 == name) = [(name, part)] ↔
      fields.countP (·.1 == name) ≤ 1 ∧ fields.lookup name = some part := by
  induction fields with
  | nil => simp
  | cons e fields ih =>
    obtain ⟨other, d⟩ := e
    by_cases h : other = name
    · subst h
      simp [and_comm]
    · have hne : (name == other) = false := by simpa using Ne.symm h
      simpa [h, List.lookup_cons, hne] using ih

section Readers

variable {α : Type} {f : Datum → Option α}

/-- A record of one field is read as that field is. -/
theorem need_fields_eq_some_iff {a : α} :
    ((d.fields [name] false).bind fun fields => Fields.need fields name f) = some a ↔
      ∃ part, Holds name d part ∧ f part = some a := by
  cases d with
  | table fields =>
    simp only [holds_table_iff, filter_eq_singleton_iff]
    by_cases hOnce : fields.countP (·.1 == name) ≤ 1
    · simp [Datum.fields, Fields.need, hOnce, Option.bind_eq_some_iff]
    · simp [Datum.fields, hOnce]
  | list items =>
    simp only [holds_list_iff]
    match items with
    | [] => simp [Datum.fields, Fields.need]
    | [part] => simp [Datum.fields, Fields.need]
    | _ :: _ :: _ => simp [Datum.fields]
  | null | bool | int | string | other | broken =>
    constructor
    · intro h
      cases h
    · rintro ⟨part, h, -⟩
      cases h

theorem listOf_eq_some_iff {as : List α} :
    listOf f d = some as ↔ ∃ items, d = .list items ∧ items.map f = as.map some := by
  cases d with
  | list items => simp [listOf, mapM_eq_some_iff]
  | null | bool | int | string | table | other | broken => simp [listOf]

end Readers

/-! ### Tagged records -/

variable {tag : Datum}

/-- The fields behind a tag that comes first. -/
theorem tagged_kind {others : List (String × Datum)} (hOthers : ∀ e ∈ others, e.1 ≠ "kind")
    (hSound : (table others).isSound = true) :
    (table (("kind", tag) :: others)).tagged = some (tag, .table others) := by
  have hTag : others.filter (·.1 == "kind") = [] :=
    List.filter_eq_nil_iff.mpr fun e he => by simpa using hOthers e he
  have hRest : others.filter (·.1 != "kind") = others :=
    List.filter_eq_self.mpr fun e he => by simpa using hOthers e he
  simp [tagged, hTag, hRest, hSound]

/-- Behind a tag that can be read there is nothing that cannot. -/
theorem isSound_of_tagged {content : Datum} (h : d.tagged = some (tag, content))
    (hTag : tag.isSound = true) : d.isSound = true := by
  unfold tagged at h
  split at h
  · rename_i fields
    split at h
    · rename_i name tag' hOne
      obtain ⟨hRest, hSame⟩ := Option.ite_none_right_eq_some.mp h
      cases hSame
      refine (haveSound_iff fields).mpr fun e he => ?_
      by_cases hKind : e.1 = "kind"
      · have hMem : e ∈ fields.filter (·.1 == "kind") :=
          List.mem_filter.mpr ⟨he, by simpa using hKind⟩
        rw [hOne, List.mem_singleton] at hMem
        rwa [hMem]
      · exact (haveSound_iff _).mp hRest e (List.mem_filter.mpr ⟨he, by simpa using hKind⟩)
    · cases h
  · obtain ⟨hItems, hSame⟩ := Option.ite_none_right_eq_some.mp h
    cases hSame
    exact Bool.and_eq_true_iff.mpr ⟨hTag, hItems⟩
  · cases h

end FixedLayout.Datum
