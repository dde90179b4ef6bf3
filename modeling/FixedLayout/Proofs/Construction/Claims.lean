import FixedLayout.Proofs.Construction.Origin

/-! The keys that a construction claims, and for what. A key is claimed for an entry of the library
or for a union that such an entry needs. -/

namespace FixedLayout.Construction

open Script

/-- What a key may be claimed for. -/
inductive Source where
  | entry (desc : TypeDesc)
  | union (desc : TypeDesc) (u : Record)

/-- The key is claimed for the source: an entry claims the key of each type that it is built with,
and that of its placeholder. -/
inductive Setting.Claims (setting : Setting) : Source → String → Prop
  | entry {desc : TypeDesc} {type : TypeExpr} (hBuilds : setting.Builds desc type) :
      Claims setting (.entry desc) type.canonical
  | placeholder {desc : TypeDesc} {target : Target} (hHolds : setting.Holds desc target) :
      Claims setting (.entry desc) (openType desc target).erasedText
  | union {desc : TypeDesc} {type : TypeExpr} {slots : List Layout.Slot} {u : Record}
      (hBuilds : setting.Builds desc type) (hStruct : desc.category = .struct)
      (hSlots : setting.slots? desc = some slots)
      (hMem : u ∈ (Layout.reconstruct setting.config type desc.size slots).unions) :
      Claims setting (.union desc u) u.type.canonical

/-- No key that is claimed for an entry is claimed for another source. -/
def Setting.Unambiguous (setting : Setting) : Prop :=
  ∀ desc source key, setting.Claims (.entry desc) key → setting.Claims source key →
    source = .entry desc

/-- The entry becomes a declaration and is generic in no way. -/
structure Setting.IsPlain (setting : Setting) (desc : TypeDesc) : Prop where
  mem : desc ∈ setting.library.types
  candidate : isCandidate setting.config desc = true
  closed : desc.isOpenGeneric = false
  args : desc.args = []

variable {setting : Setting} {desc : TypeDesc} {type : TypeExpr}

theorem exported_of_candidate {config : Config} {target : Target}
    (hCandidate : isCandidate config desc = true)
    (hTarget : Target.ofName? config desc.name = some target) : target.exported = true := by
  obtain ⟨rule, hRule, hExported⟩ := Target.exists_rule hTarget
  rw [isCandidate, hRule, Option.any_some, Bool.and_eq_true] at hCandidate
  exact hExported.trans hCandidate.1

/-- What a build declares claims its key for the entry or for a union. -/
theorem Setting.Declares.claims {d : Declaration} (hBuilds : setting.Builds desc type)
    (h : setting.Declares desc type d) :
    setting.declaration? desc type = some d ∧ d.key = type.canonical ∧
      setting.Claims (.entry desc) d.key ∨
    ∃ u, setting.Claims (.union desc u) d.key := by
  cases h with
  | own hOwn =>
    have hKey := Setting.key_of_declaration? hBuilds.known.2 hOwn
    exact .inl ⟨hOwn, hKey, hKey ▸ .entry hBuilds⟩
  | @union slots u hStruct hSlots hMem =>
    have hKey : (Declaration.record u).key = u.type.canonical := by
      obtain ⟨k, slots', rfl⟩ := Layout.union_of_mem_layGroups hMem
      exact Setting.key_of_plain rfl
    exact .inr ⟨u, hKey ▸ .union hBuilds hStruct hSlots hMem⟩

/-- A type with one field needs no union. -/
theorem Setting.unions_of_single {slots : List Layout.Slot}
    (hSlots : setting.slots? desc = some slots)
    (hSingle : (setting.slots? desc).map List.length = some 1) (owner : TypeExpr) (size : Nat) :
    (Layout.reconstruct setting.config owner size slots).unions = [] := by
  rw [hSlots, Option.map_some, Option.some.injEq] at hSingle
  obtain ⟨slot, rfl⟩ := List.length_eq_one_iff.mp hSingle
  exact Layout.unions_singleton setting.config owner size slot

/-- Where every entry has one field and none is an open generic, keys are claimed for entries only,
and each of these claims that of its own type. -/
theorem Setting.Claims.of_single (hSingle : ∀ desc ∈ setting.library.types,
      desc.isOpenGeneric = false ∧ (setting.slots? desc).map List.length = some 1)
    {source : Source} {key : String} (h : setting.Claims source key) :
    ∃ desc ∈ setting.library.types, source = .entry desc ∧
      (setting.typeOf? desc).map TypeExpr.canonical = some key := by
  cases h with
  | @entry desc type hBuilds =>
    obtain ⟨hMem, hType⟩ := hBuilds.known
    exact ⟨desc, hMem, rfl, by rw [hType]; rfl⟩
  | placeholder hHolds => cases hHolds.generic.symm.trans (hSingle _ hHolds.mem).1
  | @union desc type slots u hBuilds hStruct hSlots hMem =>
    rw [Setting.unions_of_single hSlots (hSingle desc hBuilds.known.1).2] at hMem
    cases hMem

section Plain

variable (h : setting.IsPlain desc)
  (hDistinct : (setting.library.types.map fun t => (t.name, t.args)).Nodup)
  (hExternals : setting.config.externals = [])
include h hDistinct hExternals

/-- The script of a plain entry builds it with its own type. -/
theorem Setting.IsPlain.ensureDesc {answer : Option TypeExpr}
    (hOk : ((recorder setting).ensureDesc desc).result = .ok answer) :
    ∃ type, setting.typeOf? desc = some type ∧
      .ensure desc type ∈ ((recorder setting).ensureDesc desc).actions := by
  have hNone : (recorder setting).config.external? desc.name = none :=
    external?_of_nil hExternals desc.name
  have hFind : (recorder setting).library.definition? desc.name = some desc :=
    Library.definition?_of_mem hDistinct h.mem h.args
  have hCandidate : isCandidate (recorder setting).config desc = true := h.candidate
  have hRefer : (recorder setting).ensureDesc desc =
      (recorder setting).refer desc.name desc.name []
        ((recorder setting).resolveAll desc.name []) >>= fun type => pure (some type) := by
    unfold Host.ensureDesc
    simp only [hCandidate, h.closed, h.args, Bool.not_true, Bool.false_eq_true, if_false]
  rw [hRefer] at hOk ⊢
  unfold Host.refer at hOk ⊢
  simp only [hNone] at hOk ⊢
  cases hTarget : Target.ofName? (recorder setting).config desc.name with
  | none =>
    rw [hTarget] at hOk
    cases hOk
  | some target =>
    have hExported := exported_of_candidate hCandidate hTarget
    refine ⟨target.type, ?_, ?_⟩
    · have hSame : Target.ofName? setting.config desc.name = some target := hTarget
      simp [Setting.typeOf?, hSame, h.args]
    · simp only [hExported, if_true, Host.referExported, List.isEmpty_nil, hFind]
      exact List.mem_singleton_self _

theorem Setting.IsPlain.ensure_mem {n : Nat} (hOk : setting.script.result = .ok n) :
    ∃ type, setting.typeOf? desc = some type ∧ .ensure desc type ∈ setting.script.actions := by
  obtain ⟨answer, hAnswer⟩ := (script_ok_iff.mp ⟨n, hOk⟩).2 desc h.mem
  obtain ⟨type, hType, hMem⟩ := h.ensureDesc hDistinct hExternals hAnswer
  refine ⟨type, hType, ?_⟩
  rw [script_actions hOk]
  exact List.mem_append_right _ (List.mem_flatMap.mpr ⟨desc, h.mem, hMem⟩)

end Plain

end FixedLayout.Construction
