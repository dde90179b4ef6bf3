import FixedLayout.Proofs.Construction.Account
import FixedLayout.Proofs.Construction.Claims
import FixedLayout.Proofs.Construction.Placed

/-! When a construction succeeds. As long as no key is claimed for two sources, this depends on what
is reached and not on the order in which that is come to: nothing that is reached may stand in the
way of anything else. -/

namespace FixedLayout.Construction

open Script

variable {setting : Setting}

/-- No key of an entry is claimed for another source, and no claimed key is that of a primitive. -/
structure Setting.Separate (setting : Setting) : Prop where
  sources : setting.Unambiguous
  primitives : ∀ source key p, setting.Claims source key →
    setting.Reaches setting.script.actions (.primitive p) → p.key ≠ key

/-- The declaration is one that is written out, and some action registers it. -/
structure Setting.Emits (setting : Setting) (d : Declaration) : Prop where
  registers : setting.Registers setting.script.actions d
  emitted : d.isEmitted = true

/-- The build is reached from the script of the library. -/
def Job.Reached (setting : Setting) (job : Job) : Prop := setting.Builds job.desc job.type

/-- Nothing that is reached stands in the way of anything else. -/
structure Setting.Coherent (setting : Setting) : Prop where
  script : ∃ n, setting.script.result = .ok n
  builds : ∀ job : Job, job.Reached setting → (job.script setting).result = .ok ()
  claims : ∀ {type type' : TypeExpr} {name name' : String} {args args' : List TypeExpr},
    setting.Reaches setting.script.actions (.claim type name args) →
    setting.Reaches setting.script.actions (.claim type' name' args') →
    type.canonical = type'.canonical → (name, args) = (name', args')
  own : ∀ job : Job, job.Reached setting →
    ((placed (job.script setting).actions).map Declaration.key).Nodup
  apart : ∀ {job job' : Job}, job.Reached setting → job'.Reached setting →
    ∀ {d d' : Declaration}, d ∈ placed (job.script setting).actions →
    d' ∈ placed (job'.script setting).actions → d.key = d'.key → job = job'
  spread : ∀ {d d' : Declaration}, setting.Emits d → setting.Emits d' →
    d.place.1 <+: d'.place.1 → d.key = d'.key

/-! ### Keys of what is placed -/

theorem Job.Reached.known {job : Job} (h : job.Reached setting) :
    job.desc ∈ setting.library.types ∧ setting.typeOf? job.desc = some job.type :=
  Setting.Builds.known h

theorem Job.Reached.emits {job : Job} (h : job.Reached setting) {d : Declaration}
    (hd : d ∈ placed (job.script setting).actions) : setting.Emits d :=
  ⟨⟨.place d, .inner h.1 h.2 (mem_placed.mp hd), rfl⟩, (Job.declares hd).emitted⟩

/-- What a build places claims its key for the entry, under the key of the build, or for a union. -/
theorem Job.Reached.claims {job : Job} (h : job.Reached setting) {d : Declaration}
    (hd : d ∈ placed (job.script setting).actions) : ∃ source, setting.Claims source d.key ∧
      (source = .entry job.desc ∧ d.key = job.key ∨ ∃ u, source = .union job.desc u) := by
  rcases (Job.declares hd).claims h with ⟨-, hKey, hClaims⟩ | ⟨u, hClaims⟩
  · exact ⟨_, hClaims, .inl ⟨rfl, hKey⟩⟩
  · exact ⟨_, hClaims, .inr ⟨u, rfl⟩⟩

/-- The type of an open generic by itself is not known by the key of its placeholder. -/
theorem Setting.Holds.key_ne {desc : TypeDesc} {target : Target} (h : setting.Holds desc target)
    {type : TypeExpr} (hType : setting.typeOf? desc = some type) :
    type.canonical ≠ (openType desc target).erasedText := by
  have hGeneric := h.generic
  have hArgs : desc.args = [] := by
    simp only [TypeDesc.isOpenGeneric, Bool.and_eq_true, List.isEmpty_iff] at hGeneric
    exact hGeneric.2
  have hSame : type = target.type := by
    simpa [Setting.typeOf?, h.target, hArgs, eq_comm] using hType
  intro hKey
  have hLength := congrArg String.length hKey
  rw [hSame] at hLength
  simp [openType, Target.type, TypeExpr.inModule, TypeExpr.ofPath, TypeExpr.withArguments,
    TypeExpr.erasedText, TypeExpr.canonical] at hLength

section Separate

variable (hSeparate : setting.Separate)
include hSeparate

theorem Setting.Separate.key_ne {desc : TypeDesc} {target : Target}
    (hHolds : setting.Holds desc target) {job : Job} (hJob : job.Reached setting) :
    job.key ≠ (openType desc target).erasedText := by
  obtain ⟨desc', type⟩ := job
  intro hKey
  have hClaims := Setting.Claims.placeholder hHolds
  rw [← hKey] at hClaims
  cases hSeparate.sources _ _ _ (.entry hJob) hClaims
  exact hHolds.key_ne hJob.known.2 hKey

theorem Setting.Separate.placeholder_ne {desc : TypeDesc} {target : Target}
    (hHolds : setting.Holds desc target) {job : Job} (hJob : job.Reached setting)
    {d : Declaration} (hd : d ∈ placed (job.script setting).actions) :
    d.key ≠ (openType desc target).erasedText := by
  intro hKey
  obtain ⟨source, hClaims, ⟨-, hOwn⟩ | ⟨u, rfl⟩⟩ := hJob.claims hd
  · exact hSeparate.key_ne hHolds hJob (hOwn.symm.trans hKey)
  · rw [hKey] at hClaims
    cases hSeparate.sources _ _ _ (.placeholder hHolds) hClaims

theorem Setting.Separate.primitive_ne {p : Primitive}
    (hReaches : setting.Reaches setting.script.actions (.primitive p)) {job : Job}
    (hJob : job.Reached setting) {d : Declaration}
    (hd : d ∈ placed (job.script setting).actions) : d.key ≠ p.key := by
  obtain ⟨source, hClaims, -⟩ := hJob.claims hd
  exact (hSeparate.primitives _ _ _ hClaims hReaches).symm

/-- What a build places has another key than what is lent. -/
theorem Setting.Separate.lent_ne {a : Action}
    (hReaches : setting.Reaches setting.script.actions a) {lent : Declaration}
    (hLends : a.Lends lent) {job : Job} (hJob : job.Reached setting) {d : Declaration}
    (hd : d ∈ placed (job.script setting).actions) : d.key ≠ lent.key := by
  cases hLends with
  | primitive => exact hSeparate.primitive_ne hReaches hJob hd
  | placeholder =>
    obtain ⟨desc, target, hHolds, rfl⟩ := hReaches.holds
    have hKey : (Declaration.record (openRecord (openType desc target))).key =
        (openType desc target).erasedText := key_openRecord hHolds.generic target
    rw [hKey]
    exact hSeparate.placeholder_ne hHolds hJob hd

/-- Placeholders of one key are the same. -/
theorem Setting.Separate.placeholder_eq {desc desc' : TypeDesc} {target target' : Target}
    (hHolds : setting.Holds desc target) (hHolds' : setting.Holds desc' target')
    (hKey : (openType desc target).erasedText = (openType desc' target').erasedText) :
    openType desc target = openType desc' target' := by
  have hClaims := Setting.Claims.placeholder hHolds'
  rw [← hKey] at hClaims
  cases hSeparate.sources _ _ _ (.placeholder hHolds) hClaims
  cases hHolds.target.symm.trans hHolds'.target
  rfl

end Separate

/-! ### What a successful construction has come to -/

section Built

variable {s : Session} {jobs : List Job}
  (hAccount : Account setting {} setting.script.actions jobs s)
include hAccount

theorem Account.reached {job : Job} (hJob : job ∈ jobs) : job.Reached setting :=
  ⟨(hAccount.done job hJob).reaches, (hAccount.done job hJob).candidate⟩

theorem Account.mem_entries {job : Job} (hJob : job ∈ jobs) {d : Declaration}
    (hd : d ∈ placed (job.script setting).actions) : (d.key, d) ∈ s.registry.entries := by
  obtain ⟨lent, -, hEntries⟩ := hAccount.registry
  refine hEntries.mem_iff.mpr (List.mem_append_right _ (List.mem_map_of_mem ?_))
  exact List.mem_append_right _ (List.mem_append_right _ (List.mem_flatMap.mpr ⟨job, hJob, hd⟩))

section Nodup

variable (hKeys : s.registry.keys.Nodup)
include hKeys

/-- No two declarations that builds have placed share a key. -/
theorem Account.nodup_placed : (jobs.flatMap fun job =>
    (placed (job.script setting).actions).map Declaration.key).Nodup := by
  obtain ⟨lent, -, hEntries⟩ := hAccount.registry
  have hPerm := hEntries.map Prod.fst
  simp only [placed_script, List.nil_append, List.map_append, List.map_map, Function.comp_def,
    List.map_flatMap] at hPerm
  have hAll := (List.nodup_append.mp (hPerm.nodup_iff.mp hKeys)).2.1
  exact (List.nodup_append.mp hAll).2.1

theorem Account.disjoint_placed {job job' : Job} (hJob : job ∈ jobs) (hJob' : job' ∈ jobs)
    (hne : job ≠ job') : List.Disjoint
      ((placed (job.script setting).actions).map Declaration.key)
      ((placed (job'.script setting).actions).map Declaration.key) := by
  have hSymm : Std.Symm fun job job' : Job => List.Disjoint
      ((placed (job.script setting).actions).map Declaration.key)
      ((placed (job'.script setting).actions).map Declaration.key) := ⟨fun _ _ h => h.symm⟩
  exact (List.nodup_flatMap.mp (hAccount.nodup_placed hKeys)).2.forall hJob hJob' hne

/-- No build is done twice, since each places something. -/
theorem Account.nodup : jobs.Nodup := by
  refine (List.nodup_flatMap.mp (hAccount.nodup_placed hKeys)).2.imp_of_mem ?_
  rintro job _ hJob - hDisjoint rfl
  obtain ⟨d, -, hPlace⟩ := Host.place_mem_of_ok (hAccount.done job hJob).ok
  have hKey := List.mem_map_of_mem (f := Declaration.key) (mem_placed.mpr hPlace)
  exact hDisjoint hKey hKey

end Nodup

end Built

section Success

variable {s : Session} {jobs : List Job} (hSeparate : setting.Separate) (h : s.Built setting)
  (hAccount : Account setting {} setting.script.actions jobs s)
include hSeparate hAccount

/-- What stands under the key of an entry is of that entry. -/
theorem Account.mem_of_contains {job : Job} (hJob : job.Reached setting)
    (hThere : s.registry.contains job.key = true) : job ∈ jobs := by
  obtain ⟨d, hGet⟩ := Registry.exists_get? hThere
  have hClaims : setting.Claims (.entry job.desc) job.key := .entry hJob
  obtain ⟨hKey, ⟨a, hReaches, hLends⟩ | ⟨other, hOther, hd⟩⟩ :=
    hAccount.origin (Registry.mem_of_get? hGet)
  · cases hLends with
    | primitive => exact absurd hKey.symm (hSeparate.primitives _ _ _ hClaims hReaches)
    | placeholder =>
      obtain ⟨desc, target, hHolds, rfl⟩ := hReaches.holds
      rw [Declaration.key, key_openRecord hHolds.generic] at hKey
      exact absurd hKey (hSeparate.key_ne hHolds hJob)
  · obtain ⟨source, hSource, hCases⟩ := (hAccount.reached hOther).claims hd
    rw [← hKey] at hSource
    have hSame := hSeparate.sources _ _ _ hClaims hSource
    rcases hCases with ⟨rfl, -⟩ | ⟨u, rfl⟩
    · obtain ⟨desc, type⟩ := job
      obtain ⟨desc', type'⟩ := other
      cases hSame
      have hType := hJob.known.2.symm.trans (hAccount.reached hOther).known.2
      cases hType
      exact hOther
    · cases hSame

include h

/-- Everything that is reached has had its effect. -/
theorem Session.Built.settled_of_reaches {a : Action}
    (hReaches : setting.Reaches setting.script.actions a) : a.Settled setting.config s := by
  induction hReaches with
  | here hMem => exact h.settled _ hMem
  | @inner desc type a hEnsure hCandidate hMem ih =>
    have hPending : s.isPending type.canonical = true := ih hCandidate
    have hThere : s.registry.contains type.canonical = true := by
      simpa [Session.isPending, h.stack] using hPending
    have hJob : (⟨desc, type⟩ : Job) ∈ jobs :=
      hAccount.mem_of_contains hSeparate ⟨hEnsure, hCandidate⟩ hThere
    exact (hAccount.done _ hJob).settled a hMem

theorem Account.mem_iff {job : Job} : job ∈ jobs ↔ job.Reached setting := by
  refine ⟨hAccount.reached, fun hJob => hAccount.mem_of_contains hSeparate hJob ?_⟩
  have hPending : s.isPending job.key = true :=
    h.settled_of_reaches hSeparate hAccount hJob.1 hJob.2
  simpa [Session.isPending, h.stack] using hPending

/-- Every declaration that is written out and that some action registers is there. -/
theorem Session.Built.mem_of_emits {d : Declaration} (hEmits : setting.Emits d) :
    (d.key, d) ∈ s.registry.entries := by
  obtain ⟨⟨a, hReaches, hRegisters⟩, hEmitted⟩ := hEmits
  cases a with
  | primitive p =>
    cases hRegisters
    cases hEmitted
  | placeholder type =>
    cases hRegisters
    obtain ⟨desc, target, hHolds, rfl⟩ := hReaches.holds
    have hKey := key_openRecord hHolds.generic target
    have hPending := h.settled_of_reaches hSeparate hAccount hReaches hKey
    obtain ⟨d, hGet⟩ := Registry.exists_get? (r := s.registry)
      (by simpa [Session.isPending, h.stack] using hPending)
    have hMem := Registry.mem_of_get? hGet
    obtain ⟨hOwn, ⟨b, hReaches', hLends⟩ | ⟨job, hJob, hd⟩⟩ := hAccount.origin hMem
    · cases hLends with
      | primitive =>
        exact absurd hOwn.symm (hSeparate.primitives _ _ _ (.placeholder hHolds) hReaches')
      | placeholder =>
        obtain ⟨desc', target', hHolds', rfl⟩ := hReaches'.holds
        rw [Declaration.key, key_openRecord hHolds'.generic] at hOwn
        rw [hSeparate.placeholder_eq hHolds hHolds' hOwn] at hMem ⊢
        rwa [Declaration.key, key_openRecord hHolds'.generic]
    · exact absurd hOwn.symm (hSeparate.placeholder_ne hHolds (hAccount.reached hJob) hd)
  | place placed =>
    cases hRegisters
    rcases hReaches.cases with
      hCalls | ⟨_, hEq⟩ | ⟨_, hEq⟩ | ⟨desc, type, d, hBuilds, hMem, hEq, -⟩
    · cases hCalls
    · cases hEq
    · cases hEq
    · cases hEq
      have hJob : (⟨desc, type⟩ : Job) ∈ jobs := (hAccount.mem_iff hSeparate h).mpr hBuilds
      exact hAccount.mem_entries hJob (mem_placed.mpr hMem)
  | claim | ensure | report => cases hRegisters

theorem Session.Built.coherent : setting.Coherent := by
  have hMem : ∀ {job : Job}, job.Reached setting → job ∈ jobs :=
    (hAccount.mem_iff hSeparate h).mpr
  constructor
  case script => exact h.result
  case builds => exact fun job hJob => (hAccount.done job (hMem hJob)).ok
  case claims =>
    intro type type' name name' args args' hReaches hReaches' hKey
    have hClaim := h.settled_of_reaches hSeparate hAccount hReaches
    have hClaim' := h.settled_of_reaches hSeparate hAccount hReaches'
    rw [Action.Settled, hKey] at hClaim
    exact Option.some.inj (hClaim.symm.trans hClaim')
  case own =>
    exact fun job hJob => (List.nodup_flatMap.mp (hAccount.nodup_placed h.keys)).1 job (hMem hJob)
  case apart =>
    intro job job' hJob hJob' d d' hd hd' hKey
    by_contra hne
    have hDisjoint := hAccount.disjoint_placed h.keys (hMem hJob) (hMem hJob') hne
    exact hDisjoint (List.mem_map_of_mem hd) (hKey ▸ List.mem_map_of_mem hd')
  case spread =>
    intro d d' hEmits hEmits' hPrefix
    have hPlace : ∀ {d : Declaration}, setting.Emits d → d.place ∈ s.root.places := by
      intro d hEmits
      refine h.placed.places.mem_iff.mpr (List.mem_map_of_mem ?_)
      have hMem := h.mem_of_emits hSeparate hAccount hEmits
      exact List.mem_filter.mpr ⟨List.mem_map_of_mem hMem, hEmits.emitted⟩
    have hSame := h.placed.tidy.eq_of_isPrefix (hPlace hEmits) (hPlace hEmits') hPrefix
    exact congrArg Prod.snd hSame

end Success

/-! ### Libraries whose entries have one field -/

/-- Where every entry has one field and none is an open generic, it suffices that the types of the
entries have keys of their own, which no primitive has. -/
theorem Setting.separate_of_single
    (hSingle : ∀ desc ∈ setting.library.types,
      desc.isOpenGeneric = false ∧ (setting.slots? desc).map List.length = some 1)
    (hKeys : (setting.library.types.map fun desc =>
      (setting.typeOf? desc).map TypeExpr.canonical).Nodup)
    (hPrimitives : ∀ p ∈ setting.primitives, ∀ desc ∈ setting.library.types,
      (setting.typeOf? desc).map TypeExpr.canonical ≠ some p.key) : setting.Separate := by
  constructor
  case sources =>
    intro desc source key hOwn hSource
    obtain ⟨_, hMem, hEq, hKey⟩ := hOwn.of_single hSingle
    cases hEq
    obtain ⟨desc', hMem', rfl, hKey'⟩ := hSource.of_single hSingle
    rw [List.inj_on_of_nodup_map hKeys hMem' hMem (hKey'.trans hKey.symm)]
  case primitives =>
    intro source key p hClaims hReaches hKey
    obtain ⟨desc, hMem, -, hType⟩ := hClaims.of_single hSingle
    exact hPrimitives p hReaches.mem_primitives desc hMem (hKey ▸ hType)

/-- A struct with nothing but a pointer to another type. -/
def pointing (name other : String) : TypeDesc :=
  .ofFields name 8 [{ name := "to", shape := .pointer (.named other []), offset := 0 }]

/-- Two structs that point to each other. -/
def pointerPair : Library := .ofTypes [pointing "App.A" "App.B", pointing "App.B" "App.A"]

theorem separate_pointerPair : Setting.Separate ⟨pointerPair, .forNamespace "App" ["app"]⟩ :=
  Setting.separate_of_single (by decide +kernel) (by decide +kernel) (by decide +kernel)

end FixedLayout.Construction
