import FixedLayout.Proofs.Construction.Account
import FixedLayout.Proofs.Construction.Uses
import FixedLayout.Proofs.Export.Session

/-! References are closed. A type is handed out before it is declared, so that types may refer to
themselves; by the end of the construction everything that a declaration mentions is there. -/

namespace FixedLayout

namespace Construction

open Script

variable {setting : Setting} {s : Session}

/-- A record of a finished construction is a placeholder, or a build that was finished placed it. -/
theorem Session.Built.record_cases (h : s.Built setting) {key : String} {r : Record}
    (hMem : (key, .record r) ∈ s.registry.entries) :
    (∃ type, r = openRecord type) ∨ ∃ job : Job, job.Done setting {} setting.script.actions s ∧
      .place (.record r) ∈ (job.script setting).actions := by
  obtain ⟨jobs, hAccount⟩ := h.run.account known_script
  rcases (hAccount.origin hMem).2 with ⟨a, -, hLends⟩ | ⟨job, hJob, hd⟩
  · cases hLends
    exact .inl ⟨_, rfl⟩
  · exact .inr ⟨job, hAccount.done job hJob, mem_placed.mp hd⟩

theorem uses_openRecord (type : TypeExpr) : (openRecord type).uses = [] := by
  have hMarkers : ∀ m ∈ (openRecord type).members, ¬decide (m.role ≠ .phantom) = true := by
    intro m hm
    obtain ⟨⟨param, i⟩, -, rfl⟩ := List.mem_map.mp hm
    simp
  rw [Record.uses, List.filter_eq_nil_iff.mpr hMarkers]
  rfl

theorem Session.Built.resolves (h : s.Built setting) (hComplete : setting.Complete) {key : String}
    {r : Record} (hMem : (key, .record r) ∈ s.registry.entries) {t u : TypeExpr} (ht : t ∈ r.uses)
    (hu : t.Mentions u) : (s.registry.resolve? u).isSome = true ∧
      (s.registry.resolve? t.manuallyDrop).isSome = true := by
  obtain ⟨n, hOk⟩ := h.result
  have hBasis := (script_ok_iff.mp ⟨n, hOk⟩).1
  have hSub : setting.basis.actions ⊆ setting.script.actions := by
    rw [script_actions hOk]
    exact List.subset_append_left ..
  rcases h.record_cases hMem with ⟨type, rfl⟩ | ⟨job, hDone, hPlace⟩
  · rw [uses_openRecord] at ht
    cases ht
  · have hBacks : ∀ {u}, setting.Backs (job.script setting).actions u →
        (s.registry.resolve? u).isSome = true := by
      rintro u ⟨a, ha | ha, hBacks⟩
      · exact hBacks.resolves (h.settled a (hSub ha)) h.stack
      · exact hBacks.resolves (hDone.settled a ha) h.stack
    have hDeclares := Job.declares (mem_placed.mpr hPlace)
    have hCovers := Host.covers_declares hBasis hComplete hDone.ok hDeclares t ht
    exact ⟨hBacks (hCovers u hu), hBacks (Setting.covers_manuallyDrop hBasis hCovers _ (.self _))⟩

end Construction

/-- What a wrapped record uses, it used before, or the wrapper stands around it. -/
theorem Taint.uses_wrapRecord (t : Taint) (r : Registry) {record : Record} {type : TypeExpr}
    (h : type ∈ (t.wrapRecord r record).uses) :
    type ∈ record.uses ∨ ∃ inner ∈ record.uses, type = inner.manuallyDrop := by
  rw [wrapRecord] at h
  split at h
  · rcases List.mem_append.mp h with h | h
    · obtain ⟨m', hm', rfl⟩ := List.mem_map.mp h
      obtain ⟨hMem, hRole⟩ := List.mem_filter.mp hm'
      obtain ⟨m, hm, rfl⟩ := List.mem_map.mp hMem
      have hUses : m.role ≠ .phantom → m.type ∈ record.uses := fun hRole =>
        List.mem_append_left _
          (List.mem_map_of_mem (List.mem_filter.mpr ⟨hm, by simpa using hRole⟩))
      rw [wrapMember] at hRole ⊢
      split at hRole
      · rename_i hWrap
        rw [if_pos hWrap]
        exact .inr ⟨m.type, hUses (by simpa using hRole), rfl⟩
      · rename_i hWrap
        rw [if_neg hWrap]
        exact .inl (hUses (by simpa using hRole))
    · exact .inl (List.mem_append_right _ h)
  · exact .inl h

namespace Export

open Construction

/-- Where every exported type has a known layout, nothing in an export mentions a type that is
neither declared nor registered as a primitive. -/
theorem resolves_references {library : Library} {config : Config} {e : Export}
    (hComplete : Setting.Complete ⟨library, config⟩) (h : build library config = .ok e) :
    ∀ r ∈ e.registry.records, ∀ t ∈ r.uses, ∀ u ∈ t.references,
      (e.registry.resolve? u).isSome = true := by
  intro r hMem t ht u hu
  obtain ⟨-, s, hSession⟩ := exists_session h
  rw [TypeExpr.mem_references_iff] at hu
  rw [hSession.registry, Registry.resolve?_congr (Taint.keys_wrapUnions e.taint s.registry)]
  obtain ⟨key, r', hEntry, rfl⟩ := hSession.exists_entry hMem
  rcases Taint.uses_wrapRecord _ _ ht with hUse | ⟨inner, hUse, rfl⟩
  · exact (hSession.built.resolves hComplete hEntry hUse hu).1
  · cases hu with
    | self => exact (hSession.built.resolves hComplete hEntry hUse (.self inner)).2
    | argument hArgs ha hu =>
      cases hArgs
      rw [List.mem_singleton.mp ha] at hu
      exact (hSession.built.resolves hComplete hEntry hUse hu).1

/-- A struct without a known layout is mentioned, but nothing stands for it. -/
example :
    (build (.ofTypes [
        .ofFields "App.Owner" 8
          [{ name := "data", shape := .pointer (.named "App.Data" []), offset := 0 }],
        { TypeDesc.ofFields "App.Data" 8 [] with placement := .auto }])
      (.forNamespace "App" ["app"])).toOption.map (fun e =>
        (e.registry.records.flatMap Record.uses).map fun t => (t.text, e.registry.resolve? t)) =
      some [("*mut crate::app::Data", none)] := by
  decide +kernel

/-- Two structs that refer to each other, one of them as the argument of a generic type. -/
def ring : Library := .ofTypes [
  .ofFields "App.Node" 8 [
    { name := "links", shape := .pointer (.named "App.List" [.named "App.Link" []]), offset := 0 }],
  .ofFields "App.Link" 8 [
    { name := "target", shape := .pointer (.named "App.Node" []), offset := 0 }],
  { TypeDesc.ofFields "App.List" 0 [] with params := ["T"] }]

theorem resolves_references_ring :
    Setting.Complete ⟨ring, .forNamespace "App" ["app"]⟩ ∧
    ∃ e, build ring (.forNamespace "App" ["app"]) = .ok e ∧
      e.registry.records.map (fun r => (r.key, r.uses.map TypeExpr.text)) =
        [("crate::app::Link", ["*mut crate::app::Node"]), ("crate::app::List<>", []),
          ("crate::app::Node", ["*mut crate::app::List<crate::app::Link>"])] ∧
      ∀ r ∈ e.registry.records, ∀ t ∈ r.uses, ∀ u ∈ t.references,
        (e.registry.resolve? u).isSome = true := by
  have hComplete : Setting.Complete ⟨ring, .forNamespace "App" ["app"]⟩ :=
    ⟨by decide +kernel, by simp [Config.forNamespace]⟩
  have hBuild : ((build ring (.forNamespace "App" ["app"])).toOption.map fun e =>
      e.registry.records.map fun r => (r.key, r.uses.map TypeExpr.text)) =
        some [("crate::app::Link", ["*mut crate::app::Node"]), ("crate::app::List<>", []),
          ("crate::app::Node", ["*mut crate::app::List<crate::app::Link>"])] := by
    decide +kernel
  obtain ⟨e, hOk, hUses⟩ := Option.map_eq_some_iff.mp hBuild
  have hOk := Script.ok_of_toOption hOk
  exact ⟨hComplete, e, hOk, hUses, resolves_references hComplete hOk⟩

end Export

end FixedLayout
