import FixedLayout.Proofs.Construction.Once
import FixedLayout.Proofs.Construction.Reports
import FixedLayout.Proofs.Export.Session

/-! The diagnostics of an export are about the declarations in it. -/

namespace FixedLayout

theorem Enumeration.mem_diagnostic? {e : Enumeration} {diagnostic : Diagnostic} :
    diagnostic ∈ e.diagnostic? ↔
      ∃ fault, e.body = .error fault ∧ diagnostic = .malformedEnum e.key fault.reason := by
  unfold diagnostic?
  split
  · rename_i hBody
    simp [hBody]
  · rename_i fault hBody
    simp [hBody, eq_comm]

theorem Enumeration.isMalformed_iff {e : Enumeration} :
    e.isMalformed = true ↔ ∃ fault, e.body = .error fault := by
  unfold isMalformed
  split <;> simp_all

namespace Export

open Construction

/-- Each degraded declaration of the export is reported once, and nothing else is. -/
structure Diagnosed (e : Export) : Prop where
  keys : (e.diagnostics.map Diagnostic.key).Nodup
  malformed : ∀ key, (∃ reason, .malformedEnum key reason ∈ e.diagnostics) ↔
    ∃ en, e.registry.get? key = some (.enumeration en) ∧ en.isMalformed = true
  overrun : ∀ key field cursor offset, .layoutOverrun key field cursor offset ∈ e.diagnostics →
    ∃ r, e.registry.get? key = some (.record r) ∧ r.form = .struct

variable {setting : Setting} {s : Session} {e : Export}

/-- Only unions are not as the session has them. -/
theorem FromSession.get?_of_mem (h : FromSession setting s e) {d : Declaration}
    (hMem : (d.key, d) ∈ s.registry.entries) (hSame : e.taint.wrapDeclaration s.registry d = d) :
    e.registry.get? d.key = some d := by
  rw [h.registry, Taint.get?_wrapUnions, Registry.get?_of_mem h.built.keys hMem, Option.map_some,
    hSame]

theorem FromSession.diagnosed (h : FromSession setting s e) : e.Diagnosed := by
  obtain ⟨jobs, hAccount⟩ := h.built.run.account known_script
  constructor
  case keys =>
    rw [h.diagnostics]
    exact hAccount.nodup_diagnostics h.built.keys
  case malformed =>
    rw [h.diagnostics]
    intro key
    constructor
    · rintro ⟨reason, hMem⟩
      obtain ⟨d, diagnostics, hEntry, hReports, hMem⟩ := hAccount.exists_reported hMem
      cases hReports with
      | nothing => cases hMem
      | overrun => simp at hMem
      | @enumeration en =>
        obtain ⟨fault, hBody, hEq⟩ := Enumeration.mem_diagnostic?.mp (Option.mem_toList.mp hMem)
        cases hEq
        exact ⟨en, h.get?_of_mem hEntry rfl, Enumeration.isMalformed_iff.mpr ⟨fault, hBody⟩⟩
    · rintro ⟨en, hGet, hMalformed⟩
      rw [h.registry, Taint.get?_wrapUnions, Option.map_eq_some_iff] at hGet
      obtain ⟨d, hGet, hWrap⟩ := hGet
      cases d with
      | record | primitive => cases hWrap
      | enumeration =>
        cases hWrap
        obtain ⟨fault, hBody⟩ := Enumeration.isMalformed_iff.mp hMalformed
        obtain ⟨rfl, hAll⟩ := hAccount.enumeration_reported (Registry.mem_of_get? hGet)
        exact ⟨_, hAll _ (Enumeration.mem_diagnostic?.mpr ⟨fault, hBody, rfl⟩)⟩
  case overrun =>
    rw [h.diagnostics]
    intro key field cursor offset hMem
    obtain ⟨d, diagnostics, hEntry, hReports, hMem⟩ := hAccount.exists_reported hMem
    cases hReports with
    | nothing => cases hMem
    | @overrun r hForm =>
      cases List.mem_singleton.mp hMem
      have hUnion : r.isUnion = false := by
        rw [Record.isUnion, hForm]
        rfl
      have hSame : e.taint.wrapDeclaration s.registry (.record r) = .record r :=
        congrArg Declaration.record (Taint.wrapRecord_of_not_union _ _ hUnion)
      exact ⟨r, h.get?_of_mem hEntry hSame, hForm⟩
    | enumeration =>
      obtain ⟨_, -, hEq⟩ := Enumeration.mem_diagnostic?.mp (Option.mem_toList.mp hMem)
      cases hEq

/-- Every export reports what was degraded in it. It is made from a construction that has built no
type twice. -/
theorem diagnosed_build {library : Library} {config : Config} (h : build library config = .ok e) :
    e.Diagnosed ∧ ∃ s, FromSession ⟨library, config⟩ s e ∧
      (Setting.start ⟨library, config⟩).Leads ⟨library, config⟩ (.ended (.ok ()) s []) ∧
      Setting.BuildsOnce ⟨library, config⟩ := by
  obtain ⟨-, s, hSession⟩ := exists_session h
  exact ⟨hSession.diagnosed, s, hSession, hSession.built.run.leads (.ok ()) [],
    Setting.buildsOnce _⟩

/-- Two structs that refer to an enumeration, which names a constant twice. -/
def degraded : Library :=
  .ofTypes [
    .ofFields "App.A" 8
      [{ name := "Next", shape := .pointer (.named "App.Mode" []), offset := 0 }],
    .ofFields "App.B" 4 [{ name := "Mode", shape := .named "App.Mode" [], offset := 0 }],
    .ofConstants "App.Mode" .int32 [⟨"On", 1⟩, ⟨"On", 2⟩]]

theorem diagnosed_degraded : ∃ e, build degraded (.forNamespace "App" ["app"]) = .ok e ∧
    e.diagnostics = [.malformedEnum "crate::app::Mode" "duplicate variant name On"] ∧
    e.Diagnosed ∧
    ∃ s, FromSession ⟨degraded, .forNamespace "App" ["app"]⟩ s e ∧
      (Setting.start ⟨degraded, .forNamespace "App" ["app"]⟩).Leads
        ⟨degraded, .forNamespace "App" ["app"]⟩ (.ended (.ok ()) s []) ∧
      Setting.BuildsOnce ⟨degraded, .forNamespace "App" ["app"]⟩ := by
  have hBuild : (build degraded (.forNamespace "App" ["app"])).toOption.map Export.diagnostics =
      some [.malformedEnum "crate::app::Mode" "duplicate variant name On"] := by
    decide +kernel
  obtain ⟨e, hOk, hDiagnostics⟩ := Option.map_eq_some_iff.mp hBuild
  have hOk := Script.ok_of_toOption hOk
  exact ⟨e, hOk, hDiagnostics, diagnosed_build hOk⟩

end Export

end FixedLayout
