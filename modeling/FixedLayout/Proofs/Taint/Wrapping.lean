import FixedLayout.Proofs.Registry
import FixedLayout.Taint
import Mathlib.Data.Set.Basic

/-! Unions are wrapped while the taint still spreads, so later passes read members that earlier ones
rewrote. Only records that are tainted already are rewritten, and they are not asked again. So
propagation is spreading through the registry as it was, followed by one wrapping of the unions
with the final taint. -/

namespace FixedLayout

namespace Taint

def keySet (t : Taint) : Set String := {key | t.contains key = true}

@[simp] theorem mem_keySet {t : Taint} {key : String} :
    key ∈ t.keySet ↔ t.contains key = true := Iff.rfl

theorem keySet_subset_mark (t : Taint) (key : String) : t.keySet ⊆ (t.mark key).keySet :=
  fun other h => by simp [mem_keySet.mp h]

theorem keySet_subset_pass (r : Registry) (records : List Record) (t : Taint) :
    t.keySet ⊆ (pass r records t).1.keySet :=
  fun _ h => contains_pass h

theorem touches_iff {t : Taint} {r : Registry} {type : TypeExpr} :
    t.touches r type = true ↔
      ∃ u, type.Mentions u ∧ ∃ key, r.resolve? u = some key ∧ key ∈ t.keySet := by
  simp only [touches, List.any_eq_true, Option.any_eq_true, TypeExpr.mem_references_iff,
    mem_keySet]

theorem touches_mono {t t' : Taint} (h : t.keySet ⊆ t'.keySet) {r : Registry} {type : TypeExpr}
    (hTouches : t.touches r type = true) : t'.touches r type = true := by
  obtain ⟨u, hMentions, key, hResolve, hKey⟩ := touches_iff.mp hTouches
  exact touches_iff.mpr ⟨u, hMentions, key, hResolve, h hKey⟩

/-- What is wrapped depends on the tainted keys and on what types stand for. -/
theorem wrapDeclaration_of_same {t t' : Taint} {r r' : Registry}
    (hTaint : ∀ key, t'.contains key = t.contains key)
    (hResolve : ∀ u, r'.resolve? u = r.resolve? u) (d : Declaration) :
    t'.wrapDeclaration r' d = t.wrapDeclaration r d := by
  have hContains : t'.contains = t.contains := funext hTaint
  have hTouches : ∀ type, t'.touches r' type = t.touches r type := fun type => by
    simp only [touches, hResolve, hContains]
  have hMember : t'.wrapMember r' = t.wrapMember r := funext fun m => by
    simp only [wrapMember, hTouches]
  cases d with
  | record record => simp only [wrapDeclaration, wrapRecord, hMember, hTaint]
  | enumeration | primitive => rfl

section Keys

variable {r r' : Registry} (h : r'.keys = r.keys)
include h

theorem pass_congr (records : List Record) (t : Taint) : pass r' records t = pass r records t := by
  induction records generalizing t with
  | nil => rfl
  | cons record records ih =>
    have hReaches : t.reaches r' record = t.reaches r record := by
      simp only [reaches, touches, Registry.resolve?_congr h]
    rw [pass, pass]
    simp only [hReaches, ih]

theorem wrapDeclaration_congr (t : Taint) (d : Declaration) :
    t.wrapDeclaration r' d = t.wrapDeclaration r d :=
  wrapDeclaration_of_same (fun _ => rfl) (Registry.resolve?_congr h) d

end Keys

@[simp] theorem key_wrapDeclaration (t : Taint) (r : Registry) (d : Declaration) :
    (t.wrapDeclaration r d).key = d.key := by
  cases d with
  | record record => exact key_wrapRecord t r record
  | enumeration | primitive => rfl

@[simp] theorem keys_wrapUnions (t : Taint) (r : Registry) : (t.wrapUnions r).keys = r.keys := by
  simp [Registry.keys, wrapUnions, Function.comp_def]

theorem get?_wrapUnions (t : Taint) (r : Registry) (key : String) :
    (t.wrapUnions r).get? key = (r.get? key).map (t.wrapDeclaration r) := by
  simp only [wrapUnions, Registry.get?]
  generalize r.entries = entries
  induction entries with
  | nil => rfl
  | cons e entries ih =>
    obtain ⟨k, d⟩ := e
    by_cases h : key = k
    · simp [h]
    · rw [List.map_cons, List.lookup_cons, List.lookup_cons, beq_false_of_ne h]
      exact ih

theorem keys_sweep (r : Registry) (entries : List (String × Declaration)) (t : Taint) :
    (⟨(sweep r entries t).1⟩ : Registry).keys = (⟨entries⟩ : Registry).keys := by
  simp only [Registry.keys]
  induction entries generalizing t with
  | nil => rfl
  | cons e entries ih =>
    obtain ⟨key, d⟩ := e
    cases d with
    | record record => by_cases h : t.reaches r record = true <;> simp [sweep, h, ih]
    | enumeration | primitive => simp [sweep, ih]

section Absorb

variable {t t' : Taint} (h : t.keySet ⊆ t'.keySet) (r : Registry)
include h

/-- A wrapped member is not wrapped again, so wrapping with more taint covers wrapping with less. -/
theorem wrapMember_wrapMember (m : Member) :
    t'.wrapMember r (t.wrapMember r m) = t'.wrapMember r m := by
  by_cases hWrap : (m.role != .gap && !m.type.isManuallyDrop && t.touches r m.type) = true
  · have hWrap' : (m.role != .gap && !m.type.isManuallyDrop && t'.touches r m.type) = true := by
      simp only [Bool.and_eq_true] at hWrap ⊢
      exact ⟨hWrap.1, touches_mono h hWrap.2⟩
    have hDrop : m.type.manuallyDrop.isManuallyDrop = true := by
      simp [TypeExpr.manuallyDrop, TypeExpr.isManuallyDrop, TypeExpr.withArguments,
        TypeExpr.ofPath]
    simp [wrapMember, hWrap, hWrap', hDrop]
  · rw [wrapMember.eq_1 t, if_neg hWrap]

theorem wrapRecord_wrapRecord (record : Record) :
    t'.wrapRecord r (t.wrapRecord r record) = t'.wrapRecord r record := by
  by_cases hWrap : (record.isUnion && t.contains record.key) = true
  · have hWrap' : (record.isUnion && t'.contains record.key) = true := by
      simp only [Bool.and_eq_true] at hWrap ⊢
      exact ⟨hWrap.1, h hWrap.2⟩
    have hKey := key_wrapRecord t r record
    have hUnion : (t.wrapRecord r record).isUnion = record.isUnion := by
      rw [wrapRecord]; split <;> rfl
    rw [wrapRecord, hKey, hUnion, if_pos hWrap', wrapRecord, if_pos hWrap, wrapRecord,
      if_pos hWrap']
    simp [wrapMember_wrapMember h]
  · rw [wrapRecord.eq_1 t, if_neg hWrap]

theorem wrapDeclaration_wrapDeclaration (d : Declaration) :
    t'.wrapDeclaration r (t.wrapDeclaration r d) = t'.wrapDeclaration r d := by
  cases d with
  | record record => simp only [wrapDeclaration, wrapRecord_wrapRecord h]
  | enumeration | primitive => rfl

theorem wrapUnions_wrapUnions : t'.wrapUnions (t.wrapUnions r) = t'.wrapUnions r := by
  have hKeys : (t.wrapUnions r).keys = r.keys := keys_wrapUnions t r
  rw [wrapUnions]
  simp only [wrapDeclaration_congr hKeys]
  simp [wrapUnions, wrapDeclaration_wrapDeclaration h]

/-- A record that was rewritten under less taint is tainted, so a pass does not ask for it. -/
theorem pass_map_wrapRecord (records : List Record) :
    pass r (records.map (t.wrapRecord r)) t' = pass r records t' := by
  induction records generalizing t' with
  | nil => rfl
  | cons record records ih =>
    have hReaches : t'.reaches r (t.wrapRecord r record) = t'.reaches r record := by
      by_cases hKey : t'.contains record.key = true
      · simp [reaches, hKey]
      · have hLess : ¬t.contains record.key = true := by
          intro hKey'
          exact hKey (h hKey')
        rw [wrapRecord, if_neg (by simp [hLess])]
    rw [List.map_cons, pass, pass]
    simp only [hReaches, key_wrapRecord, ih h, ih (h.trans (keySet_subset_mark t' record.key))]

end Absorb

/-- What a sweep wraps, a later wrapping with all the taint of the sweep covers. -/
theorem map_wrap_sweep (r : Registry) {entries : List (String × Declaration)} {t t' : Taint}
    (h : (sweep r entries t).2.1.keySet ⊆ t'.keySet) :
    (sweep r entries t).1.map (fun e => (e.1, t'.wrapDeclaration r e.2)) =
      entries.map fun e => (e.1, t'.wrapDeclaration r e.2) := by
  induction entries generalizing t with
  | nil => rfl
  | cons e entries ih =>
    obtain ⟨key, d⟩ := e
    cases d with
    | record record =>
      by_cases hReaches : t.reaches r record = true
      · have hRest : (sweep r entries (t.mark record.key)).2.1.keySet ⊆ t'.keySet := by
          simpa [sweep, hReaches] using h
        have hMark : (t.mark record.key).keySet ⊆ t'.keySet := by
          rw [sweep_snd] at hRest
          exact (keySet_subset_pass r _ _).trans hRest
        have hHead : t'.wrapDeclaration r (.record ((t.mark record.key).wrapRecord r record)) =
            t'.wrapDeclaration r (.record record) :=
          wrapDeclaration_wrapDeclaration hMark r (.record record)
        simp [sweep, hReaches, ih hRest, hHead]
      · simp only [sweep, hReaches] at h ⊢
        simp [ih h]
    | enumeration | primitive => simpa [sweep] using ih h

/-- After a sweep the unions are wrapped as if the sweep had wrapped none. -/
theorem wrapUnions_sweep (r : Registry) (t : Taint) :
    (sweep r r.entries t).2.1.wrapUnions ⟨(sweep r r.entries t).1⟩ =
      (sweep r r.entries t).2.1.wrapUnions r := by
  have hKeys : (⟨(sweep r r.entries t).1⟩ : Registry).keys = r.keys := keys_sweep r r.entries t
  rw [wrapUnions]
  simp only [wrapDeclaration_congr hKeys]
  rw [map_wrap_sweep r subset_rfl, wrapUnions]

/-- A registry whose unions were wrapped under less taint spreads the taint as it would have
before, and ends with the unions wrapped as if for the first time. -/
theorem propagate_wrapUnions {t₀ t : Taint} (h : t₀.keySet ⊆ t.keySet) (r : Registry) :
    propagate (t₀.wrapUnions r) t = ((spread r t).1.wrapUnions r, spread r t) := by
  have hSweep : ∀ {t₀ t : Taint}, t₀.keySet ⊆ t.keySet →
      (sweep (t₀.wrapUnions r) (t₀.wrapUnions r).entries t).2 = pass r r.records t := by
    intro t₀ t h
    rw [sweep_snd, ← records_eq, records_wrapUnions, pass_congr (keys_wrapUnions t₀ r),
      pass_map_wrapRecord h]
  have hWrap : ∀ {t₀ t : Taint}, t₀.keySet ⊆ t.keySet →
      (pass r r.records t).1.wrapUnions (t₀.wrapUnions r) =
        (pass r r.records t).1.wrapUnions r := fun h =>
    wrapUnions_wrapUnions (h.trans (keySet_subset_pass r r.records _)) r
  induction t using spread.induct r generalizing t₀ with
  | case1 t =>
    rename_i hStop
    rw [propagate, spread, wrapUnions_sweep]
    simp only [hSweep h, hWrap h]
    rw [dif_pos hStop, dif_pos hStop]
  | case2 t =>
    rename_i hMore ih
    rw [propagate, spread, wrapUnions_sweep]
    simp only [hSweep h, hWrap h]
    rw [dif_neg hMore, dif_neg hMore, ih subset_rfl]

/-- Without taint nothing is wrapped. -/
theorem wrapUnions_empty (r : Registry) : empty.wrapUnions r = r := by
  have hDeclaration : ∀ d, empty.wrapDeclaration r d = d := fun d => by
    cases d with
    | record record => simp [wrapDeclaration, wrapRecord, empty, contains]
    | enumeration | primitive => rfl
  simp [wrapUnions, hDeclaration]

@[simp] theorem isUnion_wrapRecord (t : Taint) (r : Registry) (record : Record) :
    (t.wrapRecord r record).isUnion = record.isUnion := by
  rw [wrapRecord]
  split <;> rfl

@[simp] theorem size_wrapRecord (t : Taint) (r : Registry) (record : Record) :
    (t.wrapRecord r record).size = record.size := by
  rw [wrapRecord]
  split <;> rfl

@[simp] theorem type_wrapRecord (t : Taint) (r : Registry) (record : Record) :
    (t.wrapRecord r record).type = record.type := by
  rw [wrapRecord]
  split <;> rfl

@[simp] theorem functions_wrapRecord (t : Taint) (r : Registry) (record : Record) :
    (t.wrapRecord r record).functions = record.functions := by
  rw [wrapRecord]
  split <;> rfl

@[simp] theorem table_wrapRecord (t : Taint) (r : Registry) (record : Record) :
    (t.wrapRecord r record).table = record.table := by
  rw [wrapRecord]
  split <;> rfl

theorem wrapRecord_of_not_union (t : Taint) (r : Registry) {record : Record}
    (h : record.isUnion = false) : t.wrapRecord r record = record := by
  rw [wrapRecord, if_neg]
  simp [h]

/-- Propagation is spreading through the registry as it was, and one wrapping of all unions. -/
theorem propagate_eq (r : Registry) (t : Taint) :
    propagate r t = ((spread r t).1.wrapUnions r, spread r t) := by
  have hEmpty : empty.keySet ⊆ t.keySet := by
    intro key h
    simp [empty, contains] at h
  have h := propagate_wrapUnions hEmpty r
  rwa [wrapUnions_empty] at h

end Taint

end FixedLayout
