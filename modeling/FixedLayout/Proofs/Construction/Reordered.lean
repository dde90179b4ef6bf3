import FixedLayout.Proofs.Construction.Machine
import FixedLayout.Proofs.Construction.SameAnswers
import FixedLayout.Proofs.Construction.Success

/-! Constructions of one library in two orders. They reach the same actions, so one succeeds exactly
if the other does, and then both end with the same diagnostics and module tree, and with the same
declarations if primitives of one key have one type. -/

namespace FixedLayout.Construction

open Script

/-- The settings have the same entries and answer alike, and what is reached is the same. -/
structure Setting.SameReach (setting' setting : Setting) : Prop where
  answers : setting'.SameAnswers setting
  types : ∀ desc, desc ∈ setting'.library.types ↔ desc ∈ setting.library.types
  reaches : ∀ a, setting'.Reaches setting'.script.actions a ↔
    setting.Reaches setting.script.actions a

/-- No key is claimed for two primitives: those of one key have the same type. Where a segment of a
path holds a separator itself, two types have one key. -/
def Setting.Spelled (setting : Setting) : Prop :=
  ∀ p p' : Primitive, setting.Reaches setting.script.actions (.primitive p) →
    setting.Reaches setting.script.actions (.primitive p') → p'.key = p.key → p'.type = p.type

theorem Setting.spelled_of_primitives {setting : Setting}
    (h : ∀ p ∈ setting.primitives, ∀ p' ∈ setting.primitives, p'.key = p.key → p'.type = p.type) :
    setting.Spelled :=
  fun p p' hReaches hReaches' => h p hReaches.mem_primitives p' hReaches'.mem_primitives

variable {setting setting' : Setting} {s s' : Session}

theorem sameReach_perm {library library' : Library} {config : Config}
    (hDistinct : (library.types.map fun t => (t.name, t.args)).Nodup)
    (hPerm : library'.types.Perm library.types) {n n' : Nat}
    (hOk : (Setting.mk library config).script.result = .ok n)
    (hOk' : (Setting.mk library' config).script.result = .ok n') :
    Setting.SameReach ⟨library', config⟩ ⟨library, config⟩ := by
  have hSame : Setting.SameAnswers ⟨library', config⟩ ⟨library, config⟩ :=
    sameAnswers_perm hDistinct hPerm
  have hActions := script_actions_perm hDistinct hPerm hOk hOk'
  refine ⟨hSame, fun _ => hPerm.mem_iff, fun a => ⟨fun hReaches => ?_, fun hReaches => ?_⟩⟩
  · exact hSame.reaches_of (hReaches.mono hActions.subset)
  · exact hSame.symm.reaches_of (hReaches.mono hActions.symm.subset)

namespace Setting.SameReach

theorem symm (h : setting'.SameReach setting) : setting.SameReach setting' :=
  ⟨h.answers.symm, fun desc => (h.types desc).symm, fun a => (h.reaches a).symm⟩

section Congr

variable (h : setting'.SameReach setting)
include h

theorem builds {desc : TypeDesc} {type : TypeExpr} (hBuilds : setting'.Builds desc type) :
    setting.Builds desc type :=
  ⟨(h.reaches _).mp hBuilds.1, h.answers.config ▸ hBuilds.2⟩

theorem reached {job : Job} (hJob : job.Reached setting') : job.Reached setting := h.builds hJob

theorem script (job : Job) : job.script setting' = job.script setting := by
  rw [Job.script, h.answers.buildScript]
  rfl

theorem emits {d : Declaration} (hd : setting'.Emits d) : setting.Emits d := by
  obtain ⟨⟨a, hReaches, hRegisters⟩, hEmitted⟩ := hd
  exact ⟨⟨a, (h.reaches a).mp hReaches, hRegisters⟩, hEmitted⟩

theorem slots? : setting'.slots? = setting.slots? := by
  funext desc
  simp only [Setting.slots?, Host.slot_congr h.answers, h.answers.config]

theorem claims {source : Source} {key : String} (hClaims : setting'.Claims source key) :
    setting.Claims source key := by
  cases hClaims with
  | entry hBuilds => exact .entry (h.builds hBuilds)
  | placeholder hHolds =>
    exact .placeholder ⟨(h.reaches _).mp hHolds.reaches, (h.types _).mp hHolds.mem,
      h.answers.config ▸ hHolds.candidate, hHolds.generic, h.answers.config ▸ hHolds.target⟩
  | union hBuilds hStruct hSlots hMem =>
    rw [h.slots?] at hSlots
    rw [h.answers.config] at hMem
    exact .union (h.builds hBuilds) hStruct hSlots hMem

theorem separate (hSeparate : setting.Separate) : setting'.Separate := by
  constructor
  case sources =>
    exact fun desc source key hEntry hSource =>
      hSeparate.sources desc source key (h.claims hEntry) (h.claims hSource)
  case primitives =>
    exact fun source key p hClaims hReaches =>
      hSeparate.primitives source key p (h.claims hClaims) ((h.reaches _).mp hReaches)

theorem coherent (hCoherent : setting.Coherent) (hScript : ∃ n, setting'.script.result = .ok n) :
    setting'.Coherent := by
  constructor
  case script => exact hScript
  case builds =>
    intro job hJob
    rw [h.script]
    exact hCoherent.builds job (h.reached hJob)
  case claims =>
    exact fun hClaim hClaim' =>
      hCoherent.claims ((h.reaches _).mp hClaim) ((h.reaches _).mp hClaim')
  case own =>
    intro job hJob
    rw [h.script]
    exact hCoherent.own job (h.reached hJob)
  case apart =>
    intro job job' hJob hJob' d d' hd hd'
    rw [h.script] at hd hd'
    exact hCoherent.apart (h.reached hJob) (h.reached hJob') hd hd'
  case spread => exact fun hd hd' => hCoherent.spread (h.emits hd) (h.emits hd')

end Congr

end Setting.SameReach

/-- Whether the construction of a library succeeds does not depend on the order of its entries. -/
theorem exists_built_perm {library library' : Library} {config : Config}
    (hDistinct : (library.types.map fun t => (t.name, t.args)).Nodup)
    (hPerm : library'.types.Perm library.types)
    (hSeparate : Setting.Separate ⟨library, config⟩) :
    (∃ n s, (buildAll ⟨library', config⟩).on {} = (.ok n, s)) ↔
      ∃ n s, (buildAll ⟨library, config⟩).on {} = (.ok n, s) := by
  have hScripts : (∃ n, (Setting.mk library' config).script.result = .ok n) ↔
      ∃ n, (Setting.mk library config).script.result = .ok n := script_ok_perm hDistinct hPerm
  constructor
  · rintro ⟨n, s, hRun⟩
    have hOk := (built_of_buildAll hRun).result
    obtain ⟨⟨_, hScript'⟩, ⟨_, hScript⟩⟩ := And.intro hOk (hScripts.mp hOk)
    have hSame := sameReach_perm hDistinct hPerm hScript hScript'
    have hCoherent := (exists_built_iff (hSame.separate hSeparate)).mp ⟨n, s, hRun⟩
    exact (exists_built_iff hSeparate).mpr (hSame.symm.coherent hCoherent ⟨_, hScript⟩)
  · rintro ⟨n, s, hRun⟩
    have hOk := (built_of_buildAll hRun).result
    obtain ⟨⟨_, hScript⟩, ⟨_, hScript'⟩⟩ := And.intro hOk (hScripts.mpr hOk)
    have hSame := sameReach_perm hDistinct hPerm hScript hScript'
    have hCoherent := (exists_built_iff hSeparate).mp ⟨n, s, hRun⟩
    exact (exists_built_iff (hSame.separate hSeparate)).mpr
      (hSame.coherent hCoherent ⟨_, hScript'⟩)

/-! ### What a successful construction holds -/

/-- What shapes call for and what builds do taints nothing. -/
theorem Setting.Registers.untainted {as : List Action} (hCalls : ∀ a ∈ as, setting.Calls a)
    {p : Primitive} (h : setting.Registers as (.primitive p)) : p.tainted = false := by
  obtain ⟨a, hReaches, hRegisters⟩ := h
  have hCases : setting.Calls a ∨ (∃ diagnostics, a = .report diagnostics) ∨
      ∃ d, a = .place d ∧ d.isEmitted = true := by
    cases hReaches with
    | here hMem => exact .inl (hCalls a hMem)
    | inner _ _ hMem =>
      refine (Host.does_buildType _ _ a hMem).imp_right (Or.imp_right ?_)
      exact fun ⟨d, hEq, hDeclares⟩ => ⟨d, hEq, hDeclares.emitted⟩
  rcases hCases with hCall | ⟨_, rfl⟩ | ⟨d, rfl, hEmitted⟩
  · cases hCall with
    | foreign =>
      cases hRegisters
      rfl
    | claim | ensure | placeholder => cases hRegisters
  · cases hRegisters
  · cases hRegisters
    cases hEmitted

theorem Setting.Registers.reaches {p : Primitive}
    (h : setting.Registers setting.script.actions (.primitive p)) :
    setting.Reaches setting.script.actions (.primitive p) := by
  obtain ⟨a, hReaches, hRegisters⟩ := h
  cases a with
  | primitive =>
    cases hRegisters
    exact hReaches
  | place =>
    cases hRegisters
    rcases hReaches.cases with hCall | ⟨_, hEq⟩ | ⟨_, hEq⟩ | ⟨_, _, _, -, -, hEq, hDeclares⟩
    · cases hCall
    · cases hEq
    · cases hEq
    · cases hEq
      cases hDeclares.emitted
  | claim | ensure | placeholder | report => cases hRegisters

/-- The primitives of the configuration come first. All others are untainted. -/
theorem Session.Built.exists_basis (h : s.Built setting) : ∃ basis : Session,
    Exec setting {} setting.basis.actions (.ok ()) basis ∧
    basis.registry.entries <+: s.registry.entries ∧
    ∀ key p, (key, .primitive p) ∈ s.registry.entries →
      (key, .primitive p) ∈ basis.registry.entries ∨ p.tainted = false := by
  obtain ⟨n, hOk⟩ := h.result
  have hRun := h.run
  rw [script_actions hOk] at hRun
  obtain ⟨basis, hBasis, hRest⟩ := hRun.exists_of_append
  refine ⟨basis, hBasis, hRest.grows.isPrefix, fun key p hMem => ?_⟩
  refine (hRest.grows.origin hMem).imp_right fun hNew => hNew.2.untainted fun a ha => ?_
  obtain ⟨desc, hDesc, ha⟩ := List.mem_flatMap.mp ha
  exact Host.calls_ensureDesc hDesc a ha

section Separate

variable (hSeparate : setting.Separate)
include hSeparate

theorem Session.Built.contains_iff (h : s.Built setting) {key : String} :
    s.registry.contains key = true ↔
      ∃ d, setting.Registers setting.script.actions d ∧ d.key = key := by
  obtain ⟨jobs, hAccount⟩ := h.run.account known_script
  constructor
  · intro hThere
    obtain ⟨d, hGet⟩ := Registry.exists_get? hThere
    obtain ⟨hKey, hRegisters⟩ := h.origin _ _ (Registry.mem_of_get? hGet)
    exact ⟨d, hRegisters, hKey.symm⟩
  · rintro ⟨d, hRegisters, rfl⟩
    cases hEmitted : d.isEmitted with
    | true =>
      have hMem := h.mem_of_emits hSeparate hAccount ⟨hRegisters, hEmitted⟩
      exact Registry.contains_iff.mpr (List.mem_map_of_mem hMem)
    | false =>
      obtain ⟨a, hReaches, hRegisters⟩ := hRegisters
      cases a with
      | primitive p =>
        cases hRegisters
        exact h.settled_of_reaches hSeparate hAccount hReaches
      | placeholder =>
        cases hRegisters
        cases hEmitted
      | place =>
        cases hRegisters
        exact h.settled_of_reaches hSeparate hAccount hReaches
      | claim | ensure | report => cases hRegisters

theorem Session.Built.mem_entries_iff (h : s.Built setting) {key : String} {d : Declaration}
    (hEmitted : d.isEmitted = true) :
    (key, d) ∈ s.registry.entries ↔ key = d.key ∧ setting.Emits d := by
  obtain ⟨jobs, hAccount⟩ := h.run.account known_script
  constructor
  · intro hMem
    obtain ⟨hKey, hRegisters⟩ := h.origin _ _ hMem
    exact ⟨hKey, hRegisters, hEmitted⟩
  · rintro ⟨rfl, hEmits⟩
    exact h.mem_of_emits hSeparate hAccount hEmits

end Separate

section Sessions

variable (h : setting'.SameReach setting) (hSeparate : setting.Separate) (hBuilt : s.Built setting)
  (hBuilt' : s'.Built setting')
include h hSeparate hBuilt hBuilt'

theorem contains_of_sameReach (key : String) :
    s'.registry.contains key = s.registry.contains key := by
  rw [Bool.eq_iff_iff, hBuilt.contains_iff hSeparate, hBuilt'.contains_iff (h.separate hSeparate)]
  simp only [Setting.Registers, h.reaches]

theorem mem_entries_of_sameReach {key : String} {d : Declaration} (hEmitted : d.isEmitted = true) :
    (key, d) ∈ s'.registry.entries ↔ (key, d) ∈ s.registry.entries := by
  rw [hBuilt.mem_entries_iff hSeparate hEmitted,
    hBuilt'.mem_entries_iff (h.separate hSeparate) hEmitted]
  exact and_congr_right fun _ => ⟨h.emits, h.symm.emits⟩

/-- Whatever one construction registers, the other one registers too, unless it is an untainted
primitive. A tainted one comes from the configuration, which both begin with. -/
theorem mem_entries_or_untainted {key : String} {d : Declaration}
    (hMem : (key, d) ∈ s.registry.entries) :
    (key, d) ∈ s'.registry.entries ∨ ∃ p, d = .primitive p ∧ p.tainted = false := by
  cases d with
  | record | enumeration =>
    exact .inl ((mem_entries_of_sameReach h hSeparate hBuilt hBuilt' rfl).mpr hMem)
  | primitive p =>
    obtain ⟨basis, hBasis, -, hCases⟩ := hBuilt.exists_basis
    obtain ⟨basis', hBasis', hKept, -⟩ := hBuilt'.exists_basis
    have hSame : setting'.basis = setting.basis := by
      rw [Setting.basis, h.answers.config]
      rfl
    rw [hSame] at hBasis'
    obtain ⟨-, rfl⟩ := (h.answers.exec hBasis').unique hBasis
    exact (hCases key p hMem).imp (hKept.subset ·) fun hUntainted => ⟨p, rfl, hUntainted⟩

/-- What stands under a key is the same if primitives of one key are. -/
theorem get?_of_sameReach (hSpelled : setting.Spelled) (key : String) :
    s'.registry.get? key = s.registry.get? key := by
  have hContains := contains_of_sameReach h hSeparate hBuilt hBuilt' key
  unfold Registry.contains at hContains
  cases hGet : s.registry.get? key with
  | none =>
    rwa [hGet, Option.isSome_none, Option.isSome_eq_false_iff, Option.isNone_iff_eq_none]
      at hContains
  | some d =>
    rw [hGet] at hContains
    obtain ⟨d', hGet'⟩ := Option.isSome_iff_exists.mp hContains
    have hMem := Registry.mem_of_get? hGet
    have hMem' := Registry.mem_of_get? hGet'
    rcases mem_entries_or_untainted h hSeparate hBuilt hBuilt' hMem with
      hBoth | ⟨p, rfl, hUntainted⟩
    · exact Registry.get?_of_mem hBuilt'.keys hBoth
    · rcases mem_entries_or_untainted h.symm (h.separate hSeparate) hBuilt' hBuilt hMem' with
        hBoth | ⟨p', rfl, hUntainted'⟩
      · rw [hGet', ← hGet]
        exact (Registry.get?_of_mem hBuilt.keys hBoth).symm
      · -- Neither comes from the configuration, so only their types can tell them apart.
        obtain ⟨hKey, hRegisters⟩ := hBuilt.origin _ _ hMem
        obtain ⟨hKey', hRegisters'⟩ := hBuilt'.origin _ _ hMem'
        have hType := hSpelled p p' hRegisters.reaches ((h.reaches _).mp hRegisters'.reaches)
          (hKey'.symm.trans hKey)
        obtain ⟨type, _⟩ := p
        obtain ⟨type', _⟩ := p'
        cases hType
        cases hUntainted
        cases hUntainted'
        exact hGet'

theorem emitted_of_sameReach : s'.registry.emitted.Perm s.registry.emitted := by
  have hNodup := Registry.nodup_emitted hBuilt.keys fun key d hMem =>
    (hBuilt.origin key d hMem).1.symm
  have hNodup' := Registry.nodup_emitted hBuilt'.keys fun key d hMem =>
    (hBuilt'.origin key d hMem).1.symm
  refine (List.perm_ext_iff_of_nodup hNodup'.of_map hNodup.of_map).mpr fun d => ?_
  rw [Registry.mem_emitted, Registry.mem_emitted]
  refine and_congr_left fun hEmitted => exists_congr fun key => ?_
  exact mem_entries_of_sameReach h hSeparate hBuilt hBuilt' hEmitted

theorem root_of_sameReach : s'.root = s.root := by
  have hPlaces := (emitted_of_sameReach h hSeparate hBuilt hBuilt').map Declaration.place
  refine hBuilt'.placed.tidy.ext hBuilt.placed.tidy
    (hBuilt'.placed.path.trans hBuilt.placed.path.symm) ?_
  exact hBuilt'.placed.places.trans (hPlaces.trans hBuilt.placed.places.symm)

theorem diagnostics_of_sameReach : s'.diagnostics.Perm s.diagnostics := by
  obtain ⟨jobs, hAccount⟩ := hBuilt.run.account known_script
  obtain ⟨jobs', hAccount'⟩ := hBuilt'.run.account known_script
  have hSeparate' := h.separate hSeparate
  have hJobs : jobs'.Perm jobs := by
    refine (List.perm_ext_iff_of_nodup (hAccount'.nodup hBuilt'.keys)
      (hAccount.nodup hBuilt.keys)).mpr fun job => ?_
    rw [hAccount.mem_iff hSeparate hBuilt, hAccount'.mem_iff hSeparate' hBuilt']
    exact ⟨h.reached, h.symm.reached⟩
  have hAll := hAccount.diagnostics
  have hAll' := hAccount'.diagnostics
  simp only [reported_script, h.script] at hAll hAll'
  exact hAll'.trans ((hJobs.flatMap_right _).trans hAll.symm)

end Sessions

end FixedLayout.Construction
