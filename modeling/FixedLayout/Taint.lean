import FixedLayout.Registry

/-! Taint: the declarations that cannot be copied. Some primitives are tainted from the start, and
a struct or union is tainted when a member mentions a tainted declaration, directly, behind a
pointer or as an argument. -/

namespace FixedLayout

/-- The keys of tainted declarations, in the order of their discovery and each once. -/
structure Taint where
  keys : List String
deriving Repr, DecidableEq

namespace Taint

def empty : Taint := ⟨[]⟩

def contains (t : Taint) (key : String) : Bool := t.keys.contains key

def mark (t : Taint) (key : String) : Taint :=
  if t.contains key then t else ⟨t.keys ++ [key]⟩

def size (t : Taint) : Nat := t.keys.length

/-- The keys in alphabetical order. -/
def sorted (t : Taint) : List String := t.keys.mergeSort fun a b => decide (a ≤ b)

/-- The tainted primitives of a registry. -/
def seeds (r : Registry) : Taint :=
  r.declarations.foldl
    (fun t d => match d with
      | .primitive p => if p.tainted then t.mark p.key else t
      | _ => t)
    empty

/-- A type mentions a tainted declaration. -/
def touches (t : Taint) (r : Registry) (type : TypeExpr) : Bool :=
  type.references.any fun ref => (r.resolve? ref).any t.contains

/-- A record that is not tainted yet and has to be. -/
def reaches (t : Taint) (r : Registry) (record : Record) : Bool :=
  !t.contains record.key && record.members.any fun m => t.touches r m.type

/-- One pass over some records in order, with the number of those that it taints. What it taints
counts for the records that follow. -/
def pass (r : Registry) : List Record → Taint → Taint × Nat
  | [], t => (t, 0)
  | record :: records, t =>
    if t.reaches r record then
      let (t', n) := pass r records (t.mark record.key)
      (t', n + 1)
    else pass r records t

@[simp] theorem contains_mark (t : Taint) (key other : String) :
    (t.mark key).contains other = (t.contains other || other == key) := by
  by_cases h : t.keys.contains key
  · by_cases ho : other = key <;> simp_all [mark, contains]
  · simp only [mark, contains, h]
    simp
    grind

theorem contains_pass {r : Registry} {records : List Record} {t : Taint} {key : String}
    (h : t.contains key = true) : (pass r records t).1.contains key = true := by
  induction records generalizing t with
  | nil => exact h
  | cons record records ih =>
    simp only [pass]
    split
    · exact ih (by simp [h])
    · exact ih h

/-- A pass that counts something taints a record that was not tainted. -/
theorem exists_of_pass_pos {r : Registry} {records : List Record} {t : Taint}
    (h : (pass r records t).2 ≠ 0) :
    ∃ record ∈ records, t.contains record.key = false ∧
      (pass r records t).1.contains record.key = true := by
  induction records generalizing t with
  | nil => simp [pass] at h
  | cons record records ih =>
    by_cases hr : t.reaches r record = true
    · refine ⟨record, by simp, by simp [reaches] at hr; exact hr.1, ?_⟩
      simp only [pass, hr, if_true]
      exact contains_pass (by simp)
    · simp only [pass, hr] at h ⊢
      obtain ⟨other, hm, hf, ht⟩ := ih h
      exact ⟨other, by simp [hm], hf, ht⟩

def untainted (r : Registry) (t : Taint) : Nat :=
  r.records.countP fun record => !t.contains record.key

/-- Where a stronger test fails on an element that a weaker one accepts, it accepts fewer. -/
theorem countP_lt_of_imp {α : Type} {p q : α → Bool} {xs : List α}
    (imp : ∀ x ∈ xs, q x = true → p x = true) (strict : ∃ x ∈ xs, p x = true ∧ q x = false) :
    xs.countP q < xs.countP p := by
  induction xs with
  | nil => simp at strict
  | cons x xs ih =>
    have hle : xs.countP q ≤ xs.countP p :=
      List.countP_mono_left fun y hy => imp y (by simp [hy])
    simp only [List.countP_cons]
    by_cases hx : p x = true ∧ q x = false
    · simp [hx]; omega
    · have hxs : ∃ y ∈ xs, p y = true ∧ q y = false := by
        obtain ⟨y, hy, hpq⟩ := strict
        rcases List.mem_cons.1 hy with rfl | hy
        · exact absurd hpq hx
        · exact ⟨y, hy, hpq⟩
      have := ih (fun y hy => imp y (by simp [hy])) hxs
      have himp := imp x (by simp)
      by_cases hq : q x = true
      · simp [hq, himp hq]; omega
      · simp [hq]; omega

/-- A pass that counts something leaves fewer records untainted. -/
theorem untainted_pass_lt {r : Registry} {t : Taint} (h : (pass r r.records t).2 ≠ 0) :
    untainted r (pass r r.records t).1 < untainted r t := by
  refine countP_lt_of_imp (fun record _ hq => ?_) ?_
  · by_cases hc : t.contains record.key = true
    · simp [contains_pass hc] at hq
    · simp [hc]
  · obtain ⟨record, hm, hf, ht⟩ := exists_of_pass_pos h
    exact ⟨record, hm, by simp [hf], by simp [ht]⟩

/-- Repeats passes over all records until one taints nothing. Answers the tainted keys and the
number of records that each pass tainted. -/
def spread (r : Registry) (t : Taint) : Taint × List Nat :=
  let p := pass r r.records t
  if _h : p.2 = 0 then (p.1, [0])
  else
    let rest := spread r p.1
    (rest.1, p.2 :: rest.2)
termination_by untainted r t
decreasing_by exact untainted_pass_lt _h

/-- A member of a tainted union, kept from being dropped if it mentions a tainted declaration.
Gaps and wrapped members stay as they are. -/
def wrapMember (t : Taint) (r : Registry) (m : Member) : Member :=
  if m.role != .gap && !m.type.isManuallyDrop && t.touches r m.type then
    { m with type := m.type.manuallyDrop }
  else m

/-- A union with its members wrapped, if it is tainted. -/
def wrapRecord (t : Taint) (r : Registry) (record : Record) : Record :=
  if record.isUnion && t.contains record.key then
    { record with members := record.members.map (t.wrapMember r) }
  else record

def wrapDeclaration (t : Taint) (r : Registry) : Declaration → Declaration
  | .record record => .record (t.wrapRecord r record)
  | d => d

def wrapUnions (t : Taint) (r : Registry) : Registry :=
  ⟨r.entries.map fun e => (e.1, t.wrapDeclaration r e.2)⟩

/-- Wrapping leaves a record's type, size and form, and the roles of its members. -/
@[simp] theorem isOpenGeneric_wrapRecord (t : Taint) (r : Registry) (record : Record) :
    (t.wrapRecord r record).isOpenGeneric = record.isOpenGeneric := by
  have hRole : ∀ m, (t.wrapMember r m).role = m.role := fun m => by
    rw [wrapMember]; split <;> rfl
  rw [wrapRecord]
  split <;> simp [Record.isOpenGeneric, Function.comp_def, hRole]

@[simp] theorem key_wrapRecord (t : Taint) (r : Registry) (record : Record) :
    (t.wrapRecord r record).key = record.key := by
  have hType : (t.wrapRecord r record).type = record.type := by rw [wrapRecord]; split <;> rfl
  rw [Record.key, Record.key, isOpenGeneric_wrapRecord, hType]

/-- One pass over some entries in order. Each union that it taints is wrapped at once. Answers the
entries, the taint and the number of records that the pass taints. -/
def sweep (r : Registry) :
    List (String × Declaration) → Taint → List (String × Declaration) × Taint × Nat
  | [], t => ([], t, 0)
  | (key, .record record) :: entries, t =>
    if t.reaches r record then
      let t' := t.mark record.key
      let rest := sweep r entries t'
      ((key, .record (t'.wrapRecord r record)) :: rest.1, rest.2.1, rest.2.2 + 1)
    else
      let rest := sweep r entries t
      ((key, .record record) :: rest.1, rest.2)
  | e :: entries, t =>
    let rest := sweep r entries t
    (e :: rest.1, rest.2)

def recordsOf (entries : List (String × Declaration)) : List Record :=
  entries.filterMap fun e => e.2.record?

@[simp] theorem recordsOf_cons (e : String × Declaration) (entries : List (String × Declaration)) :
    recordsOf (e :: entries) = e.2.record?.toList ++ recordsOf entries := by
  obtain ⟨_, d⟩ := e
  cases d <;> rfl

theorem records_eq (r : Registry) : r.records = recordsOf r.entries := by
  rw [Registry.records, Registry.declarations, recordsOf, List.filterMap_map]
  rfl

/-- The taint and the count of a sweep are those of a pass over the records. -/
theorem sweep_snd (r : Registry) (entries : List (String × Declaration)) (t : Taint) :
    (sweep r entries t).2 = pass r (recordsOf entries) t := by
  induction entries generalizing t with
  | nil => rfl
  | cons e entries ih =>
    obtain ⟨key, d⟩ := e
    cases d with
    | record record =>
      by_cases h : t.reaches r record = true <;> simp [sweep, pass, Declaration.record?, h, ih]
    | enumeration | primitive => simp [sweep, Declaration.record?, ih]

theorem map_key_sweep (r : Registry) (entries : List (String × Declaration)) (t : Taint) :
    (recordsOf (sweep r entries t).1).map Record.key = (recordsOf entries).map Record.key := by
  induction entries generalizing t with
  | nil => rfl
  | cons e entries ih =>
    obtain ⟨key, d⟩ := e
    cases d with
    | record record =>
      by_cases h : t.reaches r record = true <;> simp [sweep, Declaration.record?, h, ih]
    | enumeration | primitive => simp [sweep, Declaration.record?, ih]

theorem record?_wrapDeclaration (t : Taint) (r : Registry) (d : Declaration) :
    (t.wrapDeclaration r d).record? = d.record?.map (t.wrapRecord r) := by
  cases d <;> rfl

/-- The records of a registry with wrapped unions are its records, wrapped. -/
theorem records_wrapUnions (t : Taint) (r : Registry) :
    (t.wrapUnions r).records = r.records.map (t.wrapRecord r) := by
  simp only [records_eq, wrapUnions, recordsOf, List.filterMap_map, List.map_filterMap,
    Function.comp_def, record?_wrapDeclaration]

/-- A sweep that counts something leaves fewer records untainted. -/
theorem untainted_sweep_lt {r : Registry} {t : Taint} (h : (sweep r r.entries t).2.2 ≠ 0) :
    untainted ((sweep r r.entries t).2.1.wrapUnions ⟨(sweep r r.entries t).1⟩)
      (sweep r r.entries t).2.1 < untainted r t := by
  have hCount : ∀ (r : Registry) (t : Taint),
      untainted r t = (r.records.map Record.key).countP (!t.contains ·) := fun r t => by
    simp [untainted, List.countP_map, Function.comp_def]
  have hKeys : (((sweep r r.entries t).2.1.wrapUnions ⟨(sweep r r.entries t).1⟩).records).map
      Record.key = r.records.map Record.key := by
    rw [records_wrapUnions, List.map_map, records_eq r, ← map_key_sweep r r.entries t, records_eq]
    simp [Function.comp_def]
  have hPass := sweep_snd r r.entries t
  rw [← records_eq] at hPass
  rw [hPass] at h
  rw [hCount, hKeys, ← hCount, hPass]
  exact untainted_pass_lt h

/-- Spreads the taint through a registry: repeats passes over all records until one taints nothing.
A union is wrapped when it is tainted, and all tainted unions are wrapped again after each pass,
since what a member mentions may be tainted later. Answers the registry, the tainted keys and the
number of records that each pass tainted. -/
def propagate (r : Registry) (t : Taint) : Registry × Taint × List Nat :=
  let swept := sweep r r.entries t
  let r' := swept.2.1.wrapUnions ⟨swept.1⟩
  if _h : swept.2.2 = 0 then (r', swept.2.1, [0])
  else
    let rest := propagate r' swept.2.1
    (rest.1, rest.2.1, swept.2.2 :: rest.2.2)
termination_by untainted r t
decreasing_by exact untainted_sweep_lt _h

end Taint

end FixedLayout
