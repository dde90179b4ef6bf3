import FixedLayout.Export
import FixedLayout.Proofs.Construction.Origin
import FixedLayout.Proofs.Taint.Wrapping

/-! An export holds what the construction of the library has left in its session. Only the members
of tainted unions are not as they were. -/

namespace FixedLayout.Export

open Construction

/-- The session is the one that an export was made from. -/
structure FromSession (setting : Setting) (s : Session) (e : Export) : Prop where
  built : s.Built setting
  registry : e.registry = e.taint.wrapUnions s.registry
  root : e.root = s.root
  diagnostics : e.diagnostics = s.diagnostics
  spread : (e.taint, e.passes) = Taint.spread s.registry (.seeds s.registry)

theorem exists_session {library : Library} {config : Config} {e : Export}
    (h : build library config = .ok e) :
    config.fault? = none ∧ ∃ s, FromSession ⟨library, config⟩ s e := by
  unfold build at h
  split at h
  · cases h
  · rename_i hFault
    split at h
    · cases h
    · rename_i s hRun
      rw [Taint.propagate_eq] at h
      cases h
      exact ⟨hFault, s, built_of_buildAll hRun, rfl, rfl, rfl, rfl⟩

variable {setting : Setting} {s : Session} {e : Export}

/-- The records of an export are those of the session, wrapped. -/
theorem FromSession.exists_entry (h : FromSession setting s e) {r : Record}
    (hMem : r ∈ e.registry.records) :
    ∃ key r', (key, .record r') ∈ s.registry.entries ∧
      r = e.taint.wrapRecord s.registry r' := by
  rw [h.registry, Taint.records_wrapUnions] at hMem
  obtain ⟨r', hMem', rfl⟩ := List.mem_map.mp hMem
  obtain ⟨key, hEntry⟩ := Registry.mem_records.mp hMem'
  exact ⟨key, r', hEntry, rfl⟩

theorem FromSession.exists_origin (h : FromSession setting s e) {r : Record}
    (hMem : r ∈ e.registry.records) :
    ∃ r', r = e.taint.wrapRecord s.registry r' ∧ setting.Origin (.record r') := by
  obtain ⟨key, r', hEntry, hEq⟩ := h.exists_entry hMem
  exact ⟨r', hEq, (h.built.origin key _ hEntry).2.origin⟩

/-- A struct with members is a placeholder, or it has the members of a plan. -/
theorem FromSession.struct_cases (h : FromSession setting s e) {r : Record}
    (hMem : r ∈ e.registry.records) (hStruct : r.isUnion = false) (hMembers : r.members ≠ []) :
    (∃ type, r = openRecord type) ∨ ∃ desc type slots, setting.slots? desc = some slots ∧
      r.size = desc.size ∧
      r.members = (Layout.reconstruct setting.config type desc.size slots).members := by
  obtain ⟨r', rfl, hOrigin⟩ := h.exists_origin hMem
  rw [Taint.isUnion_wrapRecord] at hStruct
  rw [Taint.wrapRecord_of_not_union _ _ hStruct] at hMembers ⊢
  cases hOrigin with
  | placeholder => exact .inl ⟨_, rfl⟩
  | @built desc type _ _ hDeclares =>
    rcases hDeclares.record_cases with ⟨-, hNone⟩ | ⟨hForm, -⟩ | ⟨-, -, slots, hPlan⟩
    · exact absurd hNone hMembers
    · rw [Record.isUnion, hForm] at hStruct
      cases hStruct
    · exact .inr ⟨desc, type, slots, hPlan⟩

end FixedLayout.Export
