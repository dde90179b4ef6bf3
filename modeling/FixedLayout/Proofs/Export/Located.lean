import FixedLayout.Proofs.Code
import FixedLayout.Proofs.Export.Emission

/-! Where the code of a declaration stands: without a break, in the module that its path names. -/

namespace FixedLayout.Export

open Code

/-- Each piece stands without a break among the separated ones. -/
theorem infix_separated {piece : Code} {pieces : List Code} (h : piece ∈ pieces) :
    piece <:+: separated pieces := by
  cases pieces with
  | nil => cases h
  | cons first rest =>
    rw [separated]
    rcases List.mem_cons.mp h with rfl | h
    · exact (List.prefix_append ..).isInfix
    · have hRest : .blank :: piece <:+: rest.flatMap fun p => .blank :: p :=
        List.infix_of_mem_flatten (List.mem_map_of_mem h)
      exact (List.suffix_cons ..).isInfix.trans (hRest.trans (List.suffix_append ..).isInfix)

theorem Outline.codes_eq_map (declare : String → Code) (parts : List Outline) :
    codes declare parts = parts.map (code declare) := by
  induction parts with
  | nil => rfl
  | cons part parts ih => rw [codes, ih, List.map_cons]

section Outline

variable (declare : String → Code)

mutual

/-- The modules around a declaration of an outline are those in its code. -/
theorem exists_modulesAt_of_mem_sites {part : Outline} {modules site : List String} {key : String}
    (h : (site, key) ∈ part.sites modules) : ∃ path, site = modules ++ path ∧
      ∃ body ∈ modulesAt path (part.code declare), declare key <:+: body := by
  cases part with
  | declaration own =>
    cases List.mem_singleton.mp h
    exact ⟨[], (List.append_nil _).symm, _, List.mem_singleton_self _, List.infix_rfl⟩
  | module name parts =>
    obtain ⟨path, rfl, part, hPart, body, hBody, hInfix⟩ := exists_modulesAt_of_mem_sitesOfAll h
    have hCode : part.code declare <:+: separated (Outline.codes declare parts) := by
      rw [Outline.codes_eq_map]
      exact infix_separated (List.mem_map_of_mem hPart)
    obtain ⟨around, hAround, hWider⟩ := exists_modulesAt_of_infix hCode hBody
    refine ⟨name :: path, by simp, around, ?_, hInfix.trans hWider⟩
    refine List.mem_flatMap.mpr ⟨_, ?_, hAround⟩
    exact mem_bodies.mpr (List.mem_singleton_self _)

theorem exists_modulesAt_of_mem_sitesOfAll {parts : List Outline} {modules site : List String}
    {key : String} (h : (site, key) ∈ Outline.sitesOfAll modules parts) :
    ∃ path, site = modules ++ path ∧ ∃ part ∈ parts,
      ∃ body ∈ modulesAt path (part.code declare), declare key <:+: body := by
  cases parts with
  | nil => cases h
  | cons part parts =>
    rcases List.mem_append.mp h with hHere | hRest
    · obtain ⟨path, hSite, hBody⟩ := exists_modulesAt_of_mem_sites hHere
      exact ⟨path, hSite, part, List.mem_cons_self, hBody⟩
    · obtain ⟨path, hSite, part', hPart', hBody⟩ := exists_modulesAt_of_mem_sitesOfAll hRest
      exact ⟨path, hSite, part', List.mem_cons_of_mem _ hPart', hBody⟩

end

end Outline

theorem Outline.infix_rootCode (declare : String → Code) (part : Outline) :
    part.code declare <:+: part.rootCode declare := by
  cases part with
  | declaration => exact List.infix_rfl
  | module => exact (List.suffix_cons ..).isInfix

variable {e : Export}

theorem Agrees.infix_code (h : e.Agrees) (config : Config) {piece : Code}
    (hPiece : piece ∈
      e.outline.map (Outline.rootCode (declarationCode e.registry e.taint config)) ++
        [.line allowLine :: (wiring e.registry).code]) : piece <:+: e.code config := by
  rw [h.code config]
  exact (infix_separated hPiece).trans (List.suffix_append ..).isInfix

/-- The code of every declaration that is written stands in the module that its path names. -/
theorem Agrees.exists_module (h : e.Agrees) (config : Config) {d : Declaration}
    (hMem : d ∈ e.registry.emitted) :
    ∃ body ∈ modulesAt d.type.modulePath (e.code config),
      declarationCode e.registry e.taint config d.key <:+: body := by
  have hSite : (d.type.modulePath, d.key) ∈ Outline.sitesOfAll [] e.outline :=
    h.sites.mem_iff.mpr (List.mem_map_of_mem hMem)
  obtain ⟨path, rfl, part, hPart, body, hBody, hInfix⟩ :=
    exists_modulesAt_of_mem_sitesOfAll (declarationCode e.registry e.taint config) hSite
  have hRoot := h.infix_code config (List.mem_append_left _ (List.mem_map_of_mem hPart))
  obtain ⟨around, hAround, hWider⟩ :=
    exists_modulesAt_of_infix ((Outline.infix_rootCode _ part).trans hRoot) hBody
  exact ⟨around, hAround, hInfix.trans hWider⟩

/-- The module that resolves addresses is in the output. -/
theorem Agrees.infix_wiring (h : e.Agrees) (config : Config) :
    (wiring e.registry).code <:+: e.code config :=
  (List.suffix_cons ..).isInfix.trans
    (h.infix_code config (List.mem_append_right _ (List.mem_singleton_self _)))

end FixedLayout.Export
