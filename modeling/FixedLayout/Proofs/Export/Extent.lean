import FixedLayout.Proofs.Construction.Account
import FixedLayout.Proofs.Export.Tiling
import FixedLayout.Proofs.Layout.Extent

/-! Declared sizes and the sizes of members. An overrun inside a struct is reported, while a field
that ends behind the declared size is not. -/

namespace FixedLayout

namespace Construction

open Script

variable {setting : Setting} {s : Session}

/-- A struct is the placeholder of an open generic, or it has the members of a plan, and the session
everything that this plan reports. -/
theorem Session.Built.struct_cases (h : s.Built setting) {key : String} {r : Record}
    (hMem : (key, .record r) ∈ s.registry.entries) (hForm : r.form = .struct) :
    r.isOpenGeneric = true ∨ ∃ desc ∈ setting.library.types, ∃ slots,
      setting.typeOf? desc = some r.type ∧ setting.slots? desc = some slots ∧
      r.size = desc.size ∧
      r.members = (Layout.reconstruct setting.config r.type desc.size slots).members ∧
      (Layout.reconstruct setting.config r.type desc.size slots).diagnostics ⊆ s.diagnostics := by
  obtain ⟨jobs, hAccount⟩ := h.run.account known_script
  rcases (hAccount.origin hMem).2 with ⟨a, hReaches, hLends⟩ | ⟨job, hJob, hPlaced⟩
  · cases hLends
    obtain ⟨desc, target, hHolds, rfl⟩ := hReaches.holds
    exact .inl (isOpenGeneric_openRecord hHolds.generic target)
  · have hDone := hAccount.done job hJob
    obtain ⟨hEntry, hType⟩ : job.desc ∈ setting.library.types ∧
        setting.typeOf? job.desc = some job.type := hDone.reaches.known known_script
    have hDeclares := Job.declares hPlaced
    rcases hDeclares.record_cases with
      ⟨hBlob, -⟩ | ⟨hUnion, -⟩ | ⟨-, hSame, slots, hSlots, hSize, hMembers⟩
    · cases hForm.symm.trans hBlob
    · cases hForm.symm.trans hUnion
    · rw [(Setting.typeOf?_plain hType).1] at hSame
      rw [hSame]
      refine .inr ⟨job.desc, hEntry, slots, hType, hSlots, hSize, hMembers, fun d hd => ?_⟩
      have hReport := hDeclares.report_mem hForm hDone.ok hSlots
      refine hAccount.diagnostics.mem_iff.mpr (List.mem_append_right _ (List.mem_append_right _ ?_))
      exact List.mem_flatMap.mpr ⟨job, hJob, List.mem_flatMap.mpr ⟨_, hReport, hd⟩⟩

end Construction

namespace Export

open Construction Layout

/-- Where no overrun is reported for a struct, the sizes of its members add up to the declared size
exactly if no field, and no union of fields, ends behind that. -/
theorem sum_sizes_iff {library : Library} {config : Config} {e : Export}
    (h : build library config = .ok e) {r : Record} (hMem : r ∈ e.registry.records)
    (hForm : r.form = .struct) (hClosed : r.isOpenGeneric = false)
    (hNone : ∀ name cursor offset, .layoutOverrun r.key name cursor offset ∉ e.diagnostics) :
    ∃ desc ∈ library.types, ∃ slots, Setting.typeOf? ⟨library, config⟩ desc = some r.type ∧
      Setting.slots? ⟨library, config⟩ desc = some slots ∧ r.size = desc.size ∧
      ((r.members.map Member.size).sum = r.size ↔
        ∀ o ∈ offsets slots, keptStop o (keptAt config slots o) ≤ r.size) := by
  obtain ⟨-, s, hSession⟩ := exists_session h
  obtain ⟨key, r', hEntry, rfl⟩ := hSession.exists_entry hMem
  have hUnion : r'.isUnion = false := by
    rw [← Taint.isUnion_wrapRecord e.taint s.registry, Record.isUnion, hForm]
    rfl
  rw [Taint.wrapRecord_of_not_union _ _ hUnion] at hMem hForm hClosed hNone ⊢
  rcases hSession.built.struct_cases hEntry hForm with
    hOpen | ⟨desc, hDesc, slots, hType, hSlots, hSize, hMembers, hDiagnostics⟩
  · rw [hClosed] at hOpen
    cases hOpen
  · have hFits := Setting.fits_of_slots? hSlots
    refine ⟨desc, hDesc, slots, hType, hSlots, hSize, ?_⟩
    rw [hMembers, hSize]
    refine sum_reconstruct_iff r'.type hFits ?_ desc.size
    rcases diagnostics_reconstruct r'.type hFits desc.size with
      hNever | ⟨name, cursor, offset, hReport⟩
    · exact hNever
    · refine absurd ?_ (hNone name cursor offset)
      rw [hSession.diagnostics, Setting.key_of_plain (Setting.typeOf?_plain hType).2]
      exact hDiagnostics (hReport ▸ List.mem_singleton_self _)

theorem sum_sizes_iff_middleField :
    ∃ e, build middleField (.forNamespace "App" ["app"]) = .ok e ∧
      ∃ r ∈ e.registry.records, r.form = .struct ∧ r.isOpenGeneric = false ∧
        (∀ name cursor offset, .layoutOverrun r.key name cursor offset ∉ e.diagnostics) ∧
        ∃ desc ∈ middleField.types, ∃ slots,
          Setting.typeOf? ⟨middleField, .forNamespace "App" ["app"]⟩ desc = some r.type ∧
          Setting.slots? ⟨middleField, .forNamespace "App" ["app"]⟩ desc = some slots ∧
          r.size = desc.size ∧ ((r.members.map Member.size).sum = r.size ↔
            ∀ o ∈ offsets slots,
              keptStop o (keptAt (.forNamespace "App" ["app"]) slots o) ≤ r.size) := by
  have hBuild : ((build middleField (.forNamespace "App" ["app"])).toOption.map fun e =>
      (e.registry.records.map fun r => (r.form, r.isOpenGeneric), e.diagnostics)) =
        some ([(.struct, false)], []) := by
    decide +kernel
  obtain ⟨e, hOk, hEq⟩ := Option.map_eq_some_iff.mp hBuild
  obtain ⟨hRecords, hNone⟩ := Prod.mk.inj hEq
  obtain ⟨r, hSingle, hForms⟩ := List.map_eq_singleton_iff.mp hRecords
  obtain ⟨hForm, hClosed⟩ := Prod.mk.inj hForms
  have hMem : r ∈ e.registry.records := hSingle ▸ List.mem_singleton_self r
  have hSilent : ∀ name cursor offset,
      .layoutOverrun r.key name cursor offset ∉ e.diagnostics := by
    simp [hNone]
  have hOk := Script.ok_of_toOption hOk
  exact ⟨e, hOk, r, hMem, hForm, hClosed, hSilent,
    sum_sizes_iff hOk hMem hForm hClosed hSilent⟩

/-- A struct of 4 bytes whose one field takes up 8. -/
def overlong : Library :=
  .ofTypes [.ofFields "App.A" 4 [{ name := "X", shape := .scalar .int64, offset := 0 }]]

theorem exists_sum_sizes_ne : ∃ e, build overlong (.forNamespace "App" ["app"]) = .ok e ∧
    e.diagnostics = [] ∧ ∃ r ∈ e.registry.records, r.form = .struct ∧ r.isOpenGeneric = false ∧
      r.size = 4 ∧ (r.members.map Member.size).sum = 8 := by
  have hBuild : ((build overlong (.forNamespace "App" ["app"])).toOption.map fun e =>
      (e.diagnostics, e.registry.records.map fun r =>
        (r.form, r.isOpenGeneric, r.size, (r.members.map Member.size).sum))) =
        some ([], [(.struct, false, 4, 8)]) := by
    decide +kernel
  obtain ⟨e, hOk, hEq⟩ := Option.map_eq_some_iff.mp hBuild
  obtain ⟨hNone, hRecords⟩ := Prod.mk.inj hEq
  obtain ⟨r, hSingle, hForms⟩ := List.map_eq_singleton_iff.mp hRecords
  simp only [Prod.mk.injEq] at hForms
  exact ⟨e, Script.ok_of_toOption hOk, hNone, r, hSingle ▸ List.mem_singleton_self r, hForms⟩

end Export

end FixedLayout
