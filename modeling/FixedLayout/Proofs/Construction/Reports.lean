import FixedLayout.Proofs.Construction.Coherent

/-! What a construction reports. A build has something to report only about the declaration of its
own, and at most one thing. -/

namespace FixedLayout

/-- A plan reports one overrun of its owner, or nothing. -/
theorem Layout.layGroups_reports (config : Config) (owner : TypeExpr) (size cursor n : Nat)
    (groups : List (List Layout.Slot)) :
    (layGroups config owner size cursor n groups).diagnostics = [] ∨ ∃ name reached offset,
      (layGroups config owner size cursor n groups).diagnostics =
        [.layoutOverrun owner.canonical name reached offset] := by
  fun_induction layGroups config owner size cursor n groups with
  | case1 => exact .inl rfl
  | case2 _ _ _ ih => exact ih
  | case3 cursor n first others => exact .inr ⟨first.name, cursor, first.offset, rfl⟩
  | case4 _ _ _ _ _ _ _ _ _ _ ih => exact ih

/-- What there is to report about a declaration: the fault of a malformed enumeration, or that
fields of a struct overrun. -/
inductive Declaration.Reports : Declaration → List Diagnostic → Prop
  | nothing {r : Record} : Reports (.record r) []
  | overrun {r : Record} (hForm : r.form = .struct) (field : String) (cursor offset : Nat) :
      Reports (.record r) [.layoutOverrun r.key field cursor offset]
  | enumeration {e : Enumeration} : Reports (.enumeration e) e.diagnostic?.toList

/-- The one thing there may be to report is about the key of the declaration. -/
theorem Declaration.Reports.keys_sublist {d : Declaration} {diagnostics : List Diagnostic}
    (h : d.Reports diagnostics) : (diagnostics.map Diagnostic.key).Sublist [d.key] := by
  cases h with
  | nothing => exact List.nil_sublist _
  | overrun => exact List.Sublist.refl _
  | @enumeration e =>
    unfold Enumeration.diagnostic?
    split
    · exact List.nil_sublist _
    · exact List.Sublist.refl _

namespace Construction

open Script

variable {setting : Setting}

namespace Host

/-- What fields report as they are laid out: a row of members what its plan does, else nothing. -/
theorem reported_layOut {desc : TypeDesc} {type : TypeExpr} {slots : List Layout.Slot}
    {record : Record} (h : ((recorder setting).layOut desc type slots).result = .ok record) :
    reported ((recorder setting).layOut desc type slots).actions = [] ∨ record.form = .struct ∧
      reported ((recorder setting).layOut desc type slots).actions =
        (Layout.reconstruct setting.config type desc.size slots).diagnostics := by
  unfold layOut at h ⊢
  split at h
  · rename_i hBare
    rw [if_pos hBare]
    exact .inl rfl
  · rename_i hBare
    split at h
    · rename_i hUnion
      rw [if_neg hBare, if_pos hUnion]
      exact .inl rfl
    · rename_i hUnion
      rw [if_neg hBare, if_neg hUnion]
      obtain ⟨_, -, h, hReport⟩ := bind_ok h
      obtain ⟨_, -, h, -⟩ := bind_ok h
      cases h
      refine .inr ⟨rfl, ?_⟩
      rw [hReport, reported_append]
      refine (congrArg (_ ++ ·) (reported_eq_nil ?_)).trans
        ((List.append_nil _).trans (List.append_nil _))
      exact Only.bind (P := fun a => reported [a] = [])
        (only_forM _ fun _ _ => only_perform rfl) fun _ _ => only_pure _

/-- Only the layout of a record has something to report, neither its fields nor its functions. -/
theorem reported_buildRecord {desc : TypeDesc} {type : TypeExpr} {slots : List Layout.Slot}
    (hSlots : setting.slots? desc = some slots)
    (h : ((recorder setting).buildRecord desc type).result = .ok ()) :
    reported ((recorder setting).buildRecord desc type).actions =
      reported ((recorder setting).layOut desc type slots).actions := by
  unfold buildRecord at h ⊢
  obtain ⟨slots', hFields, h, hFirst⟩ := bind_ok h
  obtain rfl : slots = slots' :=
    Option.some.inj (hSlots.symm.trans (congrArg Except.toOption hFields))
  obtain ⟨record, -, -, hSecond⟩ := bind_ok h
  have hBefore : reported ((Layout.storageFields (recorder setting).config desc).mapM
      ((recorder setting).slot desc)).actions = [] :=
    reported_eq_nil (only_mapM _ fun f _ a ha => (calls_slot desc f a ha).reported_eq_nil)
  have hAfter : reported (do
      let functions ← (recorder setting).descriptors desc type [] desc.functions
      let table ← ofExcept (desc.table.mapM (addressOf desc.name))
      (recorder setting).perform (.place (.record { record with functions, table }))
      : Script Unit).actions = [] := by
    refine reported_eq_nil (Only.bind ?_ fun _ _ => (only_ofExcept _).bind fun _ _ => ?_)
    · exact fun a ha => (calls_descriptors desc type _ _ a ha).reported_eq_nil
    · exact only_perform rfl
  rw [hFirst, hSecond, reported_append, reported_append, hBefore, hAfter, List.append_nil,
    List.nil_append]

/-- A build that ends without an error places the declaration of its own, and reports what there is
to report about that. -/
theorem reports_buildType {desc : TypeDesc} {type : TypeExpr}
    (hType : setting.typeOf? desc = some type)
    (h : ((recorder setting).buildType desc type).result = .ok ()) :
    ∃ d, setting.declaration? desc type = some d ∧
      .place d ∈ ((recorder setting).buildType desc type).actions ∧
      d.Reports (reported ((recorder setting).buildType desc type).actions) := by
  obtain ⟨d, hOwn, hPlace⟩ := place_mem_of_ok h
  refine ⟨d, hOwn, hPlace, ?_⟩
  rcases Setting.declaration?_cases hOwn with
    ⟨hEnum, rfl⟩ | ⟨slots, record, functions, table, hSlots, hRecord, -, rfl⟩
  · have hActions : ((recorder setting).buildEnumeration desc type).actions =
        [.report (Enumeration.ofDesc type desc).diagnostic?.toList,
          .place (.enumeration (Enumeration.ofDesc type desc))] := rfl
    rw [buildType, if_pos hEnum, hActions]
    simp only [reported, List.flatMap_cons, List.flatMap_nil, List.append_nil]
    exact .enumeration
  · have hEnum := Setting.not_isEnum_of_declaration? hOwn
    have hKey := Setting.key_of_declaration? hType hOwn
    rw [buildType, if_neg hEnum] at h ⊢
    rw [reported_buildRecord hSlots h]
    rcases reported_layOut hRecord with hNone | ⟨hForm, hPlan⟩
    · rw [hNone]
      exact .nothing
    · rw [hPlan]
      rcases Layout.layGroups_reports setting.config type desc.size 0 0 (Layout.groups slots) with
        hNone | ⟨field, cursor, offset, hOver⟩
      · rw [Layout.reconstruct, hNone]
        exact .nothing
      · rw [Layout.reconstruct, hOver, ← hKey]
        exact .overrun (r := { record with functions, table }) hForm field cursor offset

end Host

section Account

variable {s : Session} {jobs : List Job}
  (hAccount : Account setting {} setting.script.actions jobs s)
include hAccount

/-- Every build of a construction has its own declaration in the registry, under its key, and has
reported what there is to report about that. -/
theorem Account.exists_own {job : Job} (hJob : job ∈ jobs) :
    ∃ d, setting.declaration? job.desc job.type = some d ∧ d.key = job.key ∧
      d ∈ placed (job.script setting).actions ∧
      d.Reports (reported (job.script setting).actions) := by
  have hType : setting.typeOf? job.desc = some job.type := (hAccount.reached hJob).known.2
  obtain ⟨d, hOwn, hPlace, hReports⟩ := Host.reports_buildType hType (hAccount.done job hJob).ok
  exact ⟨d, hOwn, Setting.key_of_declaration? hType hOwn, mem_placed.mpr hPlace, hReports⟩

/-- No two builds have the same key. -/
theorem Account.nodup_keys (hKeys : s.registry.keys.Nodup) : (jobs.map Job.key).Nodup := by
  refine (hAccount.nodup_placed hKeys).sublist ?_
  rw [List.map_eq_flatMap]
  refine List.Sublist.flatMap_right jobs fun job hJob => ?_
  obtain ⟨d, -, hKey, hPlaced, -⟩ := hAccount.exists_own hJob
  exact List.singleton_sublist.mpr (hKey ▸ List.mem_map_of_mem hPlaced)

theorem Account.diagnostics_perm : s.diagnostics.Perm
    (jobs.flatMap fun job => reported (job.script setting).actions) := by
  have hAll := hAccount.diagnostics
  rwa [reported_script, List.nil_append] at hAll

theorem Account.nodup_diagnostics (hKeys : s.registry.keys.Nodup) :
    (s.diagnostics.map Diagnostic.key).Nodup := by
  rw [(hAccount.diagnostics_perm.map _).nodup_iff, List.map_flatMap]
  refine (hAccount.nodup_keys hKeys).sublist ?_
  rw [List.map_eq_flatMap]
  refine List.Sublist.flatMap_right jobs fun job hJob => ?_
  obtain ⟨d, -, hKey, -, hReports⟩ := hAccount.exists_own hJob
  exact hKey ▸ hReports.keys_sublist

/-- Whatever is reported is about a declaration in the registry. -/
theorem Account.exists_reported {diagnostic : Diagnostic} (hMem : diagnostic ∈ s.diagnostics) :
    ∃ d diagnostics, (d.key, d) ∈ s.registry.entries ∧ d.Reports diagnostics ∧
      diagnostic ∈ diagnostics := by
  rw [hAccount.diagnostics_perm.mem_iff] at hMem
  obtain ⟨job, hJob, hMem⟩ := List.mem_flatMap.mp hMem
  obtain ⟨d, -, -, hPlaced, hReports⟩ := hAccount.exists_own hJob
  exact ⟨d, _, hAccount.mem_entries hJob hPlaced, hReports, hMem⟩

/-- What there is to report about an enumeration has been reported. -/
theorem Account.enumeration_reported {key : String} {e : Enumeration}
    (hMem : (key, .enumeration e) ∈ s.registry.entries) :
    key = e.key ∧ ∀ diagnostic ∈ e.diagnostic?, diagnostic ∈ s.diagnostics := by
  obtain ⟨hKey, ⟨a, -, hLends⟩ | ⟨job, hJob, hPlaced⟩⟩ := hAccount.origin hMem
  · cases hLends
  · refine ⟨hKey, fun diagnostic hSome => ?_⟩
    obtain ⟨d, hOwn, -, -, hReports⟩ := hAccount.exists_own hJob
    cases Job.declares hPlaced with
    | own hSame =>
      cases hOwn.symm.trans hSame
      have hAll : reported (job.script setting).actions = e.diagnostic?.toList := by
        generalize reported (job.script setting).actions = all at hReports
        cases hReports
        rfl
      rw [hAccount.diagnostics_perm.mem_iff]
      exact List.mem_flatMap.mpr ⟨job, hJob, hAll ▸ Option.mem_toList.mpr hSome⟩

end Account

end Construction

end FixedLayout
