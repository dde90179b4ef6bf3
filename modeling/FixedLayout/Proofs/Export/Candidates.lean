import FixedLayout.Proofs.Construction.Coherent
import FixedLayout.Proofs.Export.Session

/-! What becomes of the plain entries of a library. A key that is taken already is not built again,
so an entry keeps its declaration only as long as nothing else claims its key first. -/

namespace FixedLayout

namespace Construction

/-- A key that a declaration other than a primitive stands under is claimed for its source. -/
theorem Setting.Origin.claims {setting : Setting} {d : Declaration} (h : setting.Origin d) :
    (∃ p, d = .primitive p) ∨ ∃ source, setting.Claims source d.key ∧
      ∀ desc, source = .entry desc → desc.isOpenGeneric = false →
        ∃ type, setting.typeOf? desc = some type ∧ setting.declaration? desc type = some d := by
  cases h with
  | primitive p => exact .inl ⟨p, rfl⟩
  | @placeholder desc target hHolds =>
    refine .inr ⟨.entry desc, ?_, ?_⟩
    · rw [Declaration.key, key_openRecord hHolds.generic]
      exact .placeholder hHolds
    · rintro desc' hSame hClosed
      cases hSame
      rw [hHolds.generic] at hClosed
      cases hClosed
  | @built desc type _ hBuilds hDeclares =>
    rcases hDeclares.claims hBuilds with ⟨hOwn, -, hClaims⟩ | ⟨u, hClaims⟩
    · refine .inr ⟨.entry desc, hClaims, ?_⟩
      rintro desc' hSame -
      cases hSame
      exact ⟨type, hBuilds.known.2, hOwn⟩
    · refine .inr ⟨.union desc u, hClaims, ?_⟩
      rintro desc' hSame
      cases hSame

end Construction

namespace Export

open Construction

/-- Every plain entry has in the export the declaration that it determines, under a key of its own,
and none of the keys that entries claim is claimed for two sources. -/
structure KeepsEntries (setting : Setting) (e : Export) : Prop where
  own : ∀ desc, setting.IsPlain desc → ∃ type d, setting.typeOf? desc = some type ∧
    setting.declaration? desc type = some d ∧
    e.registry.get? type.canonical = some (e.taint.wrapDeclaration e.registry d)
  apart : ∀ desc desc' type type', setting.IsPlain desc → setting.IsPlain desc' →
    setting.typeOf? desc = some type → setting.typeOf? desc' = some type' →
    type.canonical = type'.canonical → desc = desc'
  unambiguous : setting.Unambiguous

variable {setting : Setting} {s : Session} {e : Export}

/-- The key of every plain entry is in the export. -/
theorem FromSession.exists_get? (h : FromSession setting s e)
    (hDistinct : (setting.library.types.map fun t => (t.name, t.args)).Nodup)
    (hExternals : setting.config.externals = []) {desc : TypeDesc} (hPlain : setting.IsPlain desc) :
    ∃ type d, setting.typeOf? desc = some type ∧ setting.Claims (.entry desc) type.canonical ∧
      setting.Origin d ∧ d.key = type.canonical ∧
      e.registry.get? type.canonical = some (e.taint.wrapDeclaration e.registry d) := by
  obtain ⟨n, hOk⟩ := h.built.result
  obtain ⟨type, hType, hMem⟩ := hPlain.ensure_mem hDistinct hExternals hOk
  have hPending : s.isPending type.canonical = true :=
    h.built.settled _ hMem hPlain.candidate
  rw [Session.isPending, h.built.stack] at hPending
  obtain ⟨d, hGet⟩ := Registry.exists_get? (by simpa using hPending)
  obtain ⟨hKey, hRegisters⟩ := h.built.origin _ _ (Registry.mem_of_get? hGet)
  refine ⟨type, d, hType, .entry ⟨.here hMem, hPlain.candidate⟩, hRegisters.origin, hKey.symm, ?_⟩
  rw [h.registry, Taint.get?_wrapUnions, hGet,
    Taint.wrapDeclaration_congr (Taint.keys_wrapUnions e.taint s.registry)]
  rfl

/-- An export keeps the plain entries of its library exactly if no key of an entry is claimed for
two sources and no plain entry has a primitive under its key. -/
theorem keepsEntries_iff {library : Library} {config : Config}
    (hDistinct : (library.types.map fun t => (t.name, t.args)).Nodup)
    (hExternals : config.externals = []) (h : build library config = .ok e) :
    KeepsEntries ⟨library, config⟩ e ↔
      Setting.Unambiguous ⟨library, config⟩ ∧ ∀ desc type, Setting.IsPlain ⟨library, config⟩ desc →
        Setting.typeOf? ⟨library, config⟩ desc = some type →
        ∀ p, e.registry.get? type.canonical ≠ some (.primitive p) := by
  obtain ⟨-, s, hSession⟩ := exists_session h
  constructor
  · rintro ⟨hOwn, -, hUnambiguous⟩
    refine ⟨hUnambiguous, ?_⟩
    intro desc type hPlain hType p hPrimitive
    obtain ⟨type', d, hType', hDecl, hGet⟩ := hOwn desc hPlain
    rw [hType] at hType'
    cases hType'
    rw [hPrimitive] at hGet
    rcases Setting.declaration?_cases hDecl with ⟨-, rfl⟩ | ⟨_, _, _, _, -, -, -, rfl⟩
    · cases hGet
    · cases hGet
  · rintro ⟨hUnambiguous, hPrimitive⟩
    constructor
    case own =>
      intro desc hPlain
      obtain ⟨type, d, hType, hClaims, hOrigin, hKey, hGet⟩ :=
        hSession.exists_get? hDistinct hExternals hPlain
      refine ⟨type, d, hType, ?_, hGet⟩
      rcases hOrigin.claims with ⟨p, rfl⟩ | ⟨source, hSource, hOwn⟩
      · exact absurd hGet (hPrimitive desc type hPlain hType p)
      · rw [hKey] at hSource
        have hSame := hUnambiguous _ _ _ hClaims hSource
        obtain ⟨type', hType', hDecl⟩ := hOwn desc hSame hPlain.closed
        rw [hType] at hType'
        cases hType'
        exact hDecl
    case apart =>
      intro desc desc' type type' hPlain hPlain' hType hType' hKey
      obtain ⟨known, -, hKnown, hClaims, -⟩ := hSession.exists_get? hDistinct hExternals hPlain
      obtain ⟨known', -, hKnown', hClaims', -⟩ :=
        hSession.exists_get? hDistinct hExternals hPlain'
      cases hType.symm.trans hKnown
      cases hType'.symm.trans hKnown'
      rw [hKey] at hClaims
      cases hUnambiguous _ _ _ hClaims hClaims'
      rfl
    case unambiguous => exact hUnambiguous

theorem keepsEntries_iff_pointerPair : (pointerPair.types.map fun t => (t.name, t.args)).Nodup ∧
    (Config.forNamespace "App" ["app"]).externals = [] ∧
    ∃ e, build pointerPair (.forNamespace "App" ["app"]) = .ok e ∧
      KeepsEntries ⟨pointerPair, .forNamespace "App" ["app"]⟩ e := by
  have hDistinct : (pointerPair.types.map fun t => (t.name, t.args)).Nodup := by decide
  have hBuild : ((build pointerPair (.forNamespace "App" ["app"])).toOption.map fun e =>
      decide (∀ desc ∈ pointerPair.types,
        ((Setting.typeOf? ⟨pointerPair, .forNamespace "App" ["app"]⟩ desc).bind fun type =>
          (e.registry.get? type.canonical).map Declaration.isEmitted) = some true)) =
        some true := by
    decide +kernel
  obtain ⟨e, hOk, hEmitted⟩ := Option.map_eq_some_iff.mp hBuild
  have hEmitted := of_decide_eq_true hEmitted
  have hOk := Script.ok_of_toOption hOk
  refine ⟨hDistinct, rfl, e, hOk, (keepsEntries_iff hDistinct rfl hOk).mpr
    ⟨separate_pointerPair.sources, ?_⟩⟩
  intro desc type hPlain hType p hPrimitive
  have hTrue := hEmitted desc hPlain.mem
  rw [hType, Option.bind_some, hPrimitive] at hTrue
  cases hTrue

/-- A nested type, and another one with the name that nesting gives it. -/
def nested : Library := .ofTypes [.ofFields "App.A+B" 8 [], .ofFields "App.A_B" 16 []]

theorem exists_not_keepsEntries : (nested.types.map fun t => (t.name, t.args)).Nodup ∧
    (Config.forNamespace "App" ["app"]).externals = [] ∧
    ∃ e, build nested (.forNamespace "App" ["app"]) = .ok e ∧
      e.registry.records.map (fun r => (r.key, r.size)) = [("crate::app::A_B", 8)] ∧
      ¬KeepsEntries ⟨nested, .forNamespace "App" ["app"]⟩ e := by
  have hBuild : ((build nested (.forNamespace "App" ["app"])).toOption.map fun e =>
      e.registry.records.map fun r => (r.key, r.size)) = some [("crate::app::A_B", 8)] := by
    decide +kernel
  obtain ⟨e, hOk, hRecords⟩ := Option.map_eq_some_iff.mp hBuild
  refine ⟨by decide, rfl, e, Script.ok_of_toOption hOk, hRecords, ?_⟩
  intro hKeeps
  have hType : ∀ desc ∈ nested.types, Setting.typeOf? ⟨nested, .forNamespace "App" ["app"]⟩ desc =
      some (.inModule ["app"] "A_B") := by
    decide +kernel
  have hPlain : ∀ desc ∈ nested.types,
      Setting.IsPlain ⟨nested, .forNamespace "App" ["app"]⟩ desc := by
    have hAll : ∀ desc ∈ nested.types, isCandidate (.forNamespace "App" ["app"]) desc = true ∧
        desc.isOpenGeneric = false ∧ desc.args = [] := by
      decide +kernel
    exact fun desc hMem => ⟨hMem, (hAll desc hMem).1, (hAll desc hMem).2.1, (hAll desc hMem).2.2⟩
  have hInner : TypeDesc.ofFields "App.A+B" 8 [] ∈ nested.types := List.mem_cons_self
  have hOuter : TypeDesc.ofFields "App.A_B" 16 [] ∈ nested.types :=
    List.mem_cons_of_mem _ List.mem_cons_self
  have hSame := hKeeps.apart _ _ _ _ (hPlain _ hInner) (hPlain _ hOuter) (hType _ hInner)
    (hType _ hOuter) rfl
  simp [TypeDesc.ofFields] at hSame

end Export

end FixedLayout
