import FixedLayout.Proofs.Construction.Reordered
import FixedLayout.Proofs.Export.Emission
import FixedLayout.Proofs.Taint.Closure

/-! The order in which a library lists its types does not show in an export, unless a key is claimed
twice: then the first claim counts. -/

namespace FixedLayout

namespace Registry

theorem records_of_emitted (r : Registry) :
    r.records = r.emitted.filterMap Declaration.record? := by
  rw [records, emitted, List.filterMap_filter]
  congr 1
  funext d
  cases d <;> rfl

end Registry

namespace Construction

section Sessions

variable {setting setting' : Setting} {s s' : Session} (h : setting'.SameReach setting)
  (hSeparate : setting.Separate) (hBuilt : s.Built setting) (hBuilt' : s'.Built setting')
include h hSeparate hBuilt hBuilt'

theorem records_of_sameReach : s'.registry.records.Perm s.registry.records := by
  rw [Registry.records_of_emitted, Registry.records_of_emitted]
  exact (emitted_of_sameReach h hSeparate hBuilt hBuilt').filterMap _

theorem seeds_subset_of_sameReach :
    (Taint.seeds s.registry).keySet ⊆ (Taint.seeds s'.registry).keySet := by
  intro key hKey
  obtain ⟨p, ⟨k, hMem⟩, hTainted, rfl⟩ := Taint.mem_keySet_seeds.mp hKey
  refine Taint.mem_keySet_seeds.mpr ⟨p, ⟨k, ?_⟩, hTainted, rfl⟩
  rcases mem_entries_or_untainted h hSeparate hBuilt hBuilt' hMem with hMem' | ⟨_, hEq, hUntainted⟩
  · exact hMem'
  · cases hEq
    rw [hTainted] at hUntainted
    cases hUntainted

/-- Taint spreads to the same keys. -/
theorem spread_of_sameReach :
    (Taint.spread s'.registry (.seeds s'.registry)).1.keySet =
      (Taint.spread s.registry (.seeds s.registry)).1.keySet := by
  have hContains := contains_of_sameReach h hSeparate hBuilt hBuilt'
  have hRecords := records_of_sameReach h hSeparate hBuilt hBuilt'
  have hSeeds : (Taint.seeds s'.registry).keySet = (Taint.seeds s.registry).keySet :=
    (seeds_subset_of_sameReach h.symm (h.separate hSeparate) hBuilt' hBuilt).antisymm
      (seeds_subset_of_sameReach h hSeparate hBuilt hBuilt')
  have hLeast' := Taint.isLeast_spread s'.registry (.seeds s'.registry)
  simp only [hSeeds, Registry.closedUnderMention_congr hContains fun _ => hRecords.mem_iff]
    at hLeast'
  exact hLeast'.unique (Taint.isLeast_spread s.registry (.seeds s.registry))

end Sessions

end Construction

namespace Export

open Construction

/-- The exports differ in nothing but the order of what they hold. -/
structure Same (e' e : Export) : Prop where
  declarations : ∀ key, e'.registry.get? key = e.registry.get? key
  root : e'.root = e.root
  taint : e'.taint.keySet = e.taint.keySet
  diagnostics : e'.diagnostics.Perm e.diagnostics
  text : ∀ config, e'.text config = e.text config

/-- The code of a declaration is determined by what stands under its key and by the taint. -/
theorem declarationCode_congr {r r' : Registry} {t t' : Taint} {key : String}
    (hGet : r'.get? key = r.get? key) (hTaint : t'.contains key = t.contains key)
    (config : Config) : declarationCode r' t' config key = declarationCode r t config key := by
  rw [declarationCode, hGet, hTaint]
  rfl

/-- Records with keys of their own are wired together in the order of these. -/
theorem wiring_of_perm {r r' : Registry} (hRecords : r'.records.Perm r.records)
    (hKeys : (r.records.map Record.key).Nodup) : wiring r' = wiring r := by
  have hPerm : r'.sortedRecords.Perm r.sortedRecords :=
    (r'.sortedRecords_perm.trans hRecords).trans r.sortedRecords_perm.symm
  have hSame : r'.sortedRecords = r.sortedRecords := by
    refine hPerm.eq_of_pairwise (fun a b ha hb hab hba => ?_) r'.pairwise_sortedRecords
      r.pairwise_sortedRecords
    have ha := hRecords.mem_iff.mp (r'.sortedRecords_perm.mem_iff.mp ha)
    have hb := r.sortedRecords_perm.mem_iff.mp hb
    exact List.inj_on_of_nodup_map hKeys ha hb (String.le_antisymm hab hba)
  show Wiring.mk ((r'.sortedRecords.filter _).map _) (r'.sortedRecords.flatMap _) = _
  rw [hSame]
  rfl

variable {setting setting' : Setting} {s s' : Session} {e e' : Export}

theorem FromSession.nodup_records (h : FromSession setting s e) :
    (e.registry.records.map Record.key).Nodup := by
  refine Registry.nodup_records ?_ fun key d hMem => h.own hMem
  rw [h.registry, Taint.keys_wrapUnions]
  exact h.built.keys

/-- Constructions that reach the same actions become the same export. -/
theorem same_of_sameReach (h : setting'.SameReach setting) (hSeparate : setting.Separate)
    (hSpelled : setting.Spelled) (hSession : FromSession setting s e)
    (hSession' : FromSession setting' s' e') : e'.Same e := by
  have hBuilt := hSession.built
  have hBuilt' := hSession'.built
  have hTaint : e'.taint.keySet = e.taint.keySet := by
    have hSpread := spread_of_sameReach h hSeparate hBuilt hBuilt'
    rwa [← hSession.spread, ← hSession'.spread] at hSpread
  have hMarked : ∀ key, e'.taint.contains key = e.taint.contains key := fun key => by
    rw [Bool.eq_iff_iff]
    exact Set.ext_iff.mp hTaint key
  have hResolve := Registry.resolve?_of_contains (contains_of_sameReach h hSeparate hBuilt hBuilt')
  have hWrap : e'.taint.wrapDeclaration s'.registry = e.taint.wrapDeclaration s.registry :=
    funext (Taint.wrapDeclaration_of_same hMarked hResolve)
  have hGet : ∀ key, e'.registry.get? key = e.registry.get? key := fun key => by
    rw [hSession.registry, hSession'.registry, Taint.get?_wrapUnions, Taint.get?_wrapUnions, hWrap,
      get?_of_sameReach h hSeparate hBuilt hBuilt' hSpelled key]
  have hRoot : e'.root = e.root := by
    rw [hSession.root, hSession'.root]
    exact root_of_sameReach h hSeparate hBuilt hBuilt'
  have hRecords : e'.registry.records.Perm e.registry.records := by
    have hWrapRecord : e'.taint.wrapRecord s'.registry = e.taint.wrapRecord s.registry :=
      funext fun r => by
        have hSame := congrFun hWrap (.record r)
        simpa [Taint.wrapDeclaration] using hSame
    rw [hSession.registry, hSession'.registry, Taint.records_wrapUnions, Taint.records_wrapUnions,
      hWrapRecord]
    exact (records_of_sameReach h hSeparate hBuilt hBuilt').map _
  constructor
  case declarations => exact hGet
  case root => exact hRoot
  case taint => exact hTaint
  case diagnostics =>
    rw [hSession.diagnostics, hSession'.diagnostics]
    exact diagnostics_of_sameReach h hSeparate hBuilt hBuilt'
  case text =>
    intro config
    have hCode : declarationCode e'.registry e'.taint config =
        declarationCode e.registry e.taint config :=
      funext fun key => declarationCode_congr (hGet key) (hMarked key) config
    rw [text, text, code_eq, code_eq, hCode, wiring_of_perm hRecords hSession.nodup_records,
      outline, outline, hRoot]

/-- An export can be built exactly if its configuration has no fault and its library can be
built. -/
theorem exists_build_iff {library : Library} {config : Config} :
    (∃ e, build library config = .ok e) ↔
      config.fault? = none ∧ ∃ n s, (buildAll ⟨library, config⟩).on {} = (.ok n, s) := by
  unfold build
  cases config.fault? with
  | some fault => simp
  | none =>
    generalize (buildAll ⟨library, config⟩).on {} = ran
    obtain ⟨e | n, s⟩ := ran <;> simp

/-- The order of a library does not show in its export. As long as no key is claimed for two
sources or for primitives with two types, libraries with the same entries in two orders can both be
built or neither can, and what is built is the same. -/
theorem build_perm {library library' : Library} {config : Config}
    (hPerm : library'.types.Perm library.types)
    (hDistinct : (library.types.map fun t => (t.name, t.args)).Nodup)
    (hSeparate : Setting.Separate ⟨library, config⟩)
    (hSpelled : Setting.Spelled ⟨library, config⟩) :
    ((∃ e, build library' config = .ok e) ↔ ∃ e, build library config = .ok e) ∧
    ∀ e e', build library config = .ok e → build library' config = .ok e' → e'.Same e := by
  constructor
  · rw [exists_build_iff, exists_build_iff, exists_built_perm hDistinct hPerm hSeparate]
  · intro e e' hBuild hBuild'
    obtain ⟨-, s, hSession⟩ := exists_session hBuild
    obtain ⟨-, s', hSession'⟩ := exists_session hBuild'
    obtain ⟨n, hOk⟩ := hSession.built.result
    obtain ⟨n', hOk'⟩ := hSession'.built.result
    have hSame := sameReach_perm hDistinct hPerm hOk hOk'
    exact same_of_sameReach hSame hSeparate hSpelled hSession hSession'

/-- The two structs that point to each other, in the other order. -/
def reversedPair : Library := .ofTypes [pointing "App.B" "App.A", pointing "App.A" "App.B"]

theorem build_perm_pointerPair : reversedPair.types.Perm pointerPair.types ∧
    (pointerPair.types.map fun t => (t.name, t.args)).Nodup ∧
    Setting.Separate ⟨pointerPair, .forNamespace "App" ["app"]⟩ ∧
    Setting.Spelled ⟨pointerPair, .forNamespace "App" ["app"]⟩ ∧
    ∃ e e', build pointerPair (.forNamespace "App" ["app"]) = .ok e ∧
      build reversedPair (.forNamespace "App" ["app"]) = .ok e' ∧
      e.registry.records.map Record.key = ["crate::app::B", "crate::app::A"] ∧
      e'.registry.records.map Record.key = ["crate::app::A", "crate::app::B"] ∧ e'.Same e := by
  have hBuild : ((build pointerPair (.forNamespace "App" ["app"])).toOption.map fun e =>
      e.registry.records.map Record.key) = some ["crate::app::B", "crate::app::A"] := by
    decide +kernel
  have hBuild' : ((build reversedPair (.forNamespace "App" ["app"])).toOption.map fun e =>
      e.registry.records.map Record.key) = some ["crate::app::A", "crate::app::B"] := by
    decide +kernel
  obtain ⟨e, hOk, hRecords⟩ := Option.map_eq_some_iff.mp hBuild
  obtain ⟨e', hOk', hRecords'⟩ := Option.map_eq_some_iff.mp hBuild'
  have hOk := Script.ok_of_toOption hOk
  have hOk' := Script.ok_of_toOption hOk'
  have hPerm : reversedPair.types.Perm pointerPair.types := .swap ..
  have hDistinct : (pointerPair.types.map fun t => (t.name, t.args)).Nodup := by decide
  have hSpelled : Setting.Spelled ⟨pointerPair, .forNamespace "App" ["app"]⟩ :=
    Setting.spelled_of_primitives (by decide +kernel)
  have hSame := (build_perm hPerm hDistinct separate_pointerPair hSpelled).2 e e' hOk hOk'
  exact ⟨hPerm, hDistinct, separate_pointerPair, hSpelled, e, e', hOk, hOk', hRecords, hRecords',
    hSame⟩

/-- Two namespaces that are not exported. Their modules differ, and the paths that these make are
spelled alike. -/
def spelledAlike : Config where
  namespaces := [
    { source := "App", target := ["app"] },
    { source := "Rt", target := ["rt::x"], exported := false },
    { source := "Sys", target := ["rt", "x"], exported := false }]
  pointerWrappers := []
  exclusions := []
  noDerive := []

/-- Two structs that point into one of these namespaces each. -/
def foreignPair : Library := .ofTypes [pointing "App.A" "Rt.Foo", pointing "App.B" "Sys.Foo"]

def reversedForeignPair : Library :=
  .ofTypes [pointing "App.B" "Sys.Foo", pointing "App.A" "Rt.Foo"]

/-- Without the condition on primitives, the order of a library can show in its export. -/
theorem exists_build_perm_ne : reversedForeignPair.types.Perm foreignPair.types ∧
    (foreignPair.types.map fun t => (t.name, t.args)).Nodup ∧ spelledAlike.fault? = none ∧
    Setting.Separate ⟨foreignPair, spelledAlike⟩ ∧
    ∃ e e', build foreignPair spelledAlike = .ok e ∧
      build reversedForeignPair spelledAlike = .ok e' ∧
      e.registry.get? "crate::rt::x::Foo" =
        some (.primitive (.ofType (.inModule ["rt::x"] "Foo"))) ∧
      e'.registry.get? "crate::rt::x::Foo" =
        some (.primitive (.ofType (.inModule ["rt", "x"] "Foo"))) ∧
      e'.registry.get? "crate::rt::x::Foo" ≠ e.registry.get? "crate::rt::x::Foo" := by
  have hBuild : ((build foreignPair spelledAlike).toOption.map fun e =>
      e.registry.get? "crate::rt::x::Foo") =
        some (some (.primitive (.ofType (.inModule ["rt::x"] "Foo")))) := by
    decide +kernel
  have hBuild' : ((build reversedForeignPair spelledAlike).toOption.map fun e =>
      e.registry.get? "crate::rt::x::Foo") =
        some (some (.primitive (.ofType (.inModule ["rt", "x"] "Foo")))) := by
    decide +kernel
  obtain ⟨e, hOk, hGet⟩ := Option.map_eq_some_iff.mp hBuild
  obtain ⟨e', hOk', hGet'⟩ := Option.map_eq_some_iff.mp hBuild'
  have hSeparate : Setting.Separate ⟨foreignPair, spelledAlike⟩ :=
    Setting.separate_of_single (by decide +kernel) (by decide +kernel) (by decide +kernel)
  refine ⟨.swap .., by decide, by decide, hSeparate, e, e', Script.ok_of_toOption hOk,
    Script.ok_of_toOption hOk', hGet, hGet', ?_⟩
  rw [hGet, hGet']
  decide

end Export

end FixedLayout
