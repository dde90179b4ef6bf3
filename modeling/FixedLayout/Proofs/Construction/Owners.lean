import FixedLayout.Proofs.Construction.Account
import FixedLayout.Proofs.Construction.Overloads

/-! The owners of functions. Whatever has functions or a known virtual table was built from a
description, under a plain path into the generated crate, and is the owner of its functions. -/

namespace FixedLayout

/-- The record owns its functions, and it is known by a plain path into the generated crate. -/
structure Record.IsOwner (r : Record) : Prop where
  path : r.type = .inModule r.type.modulePath r.type.name
  owns : ∀ d ∈ r.functions, d.owner = r.type

namespace Construction

open Script

variable {setting : Setting}

theorem Setting.typeOf?_inModule {desc : TypeDesc} {type : TypeExpr}
    (h : setting.typeOf? desc = some type) : type = .inModule type.modulePath type.name := by
  obtain ⟨target, rfl⟩ := exists_target_of_typeOf? h
  rw [Target.type, TypeExpr.modulePath_inModule, TypeExpr.name_inModule]

theorem Host.owner_of_descriptors {desc : TypeDesc} {owner : TypeExpr} {earlier : List String}
    {fs : List FunctionDesc} {functions : List Descriptor}
    (h : ((recorder setting).descriptors desc owner earlier fs).result = .ok functions) :
    ∀ d ∈ functions, d.owner = owner.base := by
  replace h := made_of_descriptors h
  generalize Descriptor.overloads earlier (boundNames fs) = names at h
  induction h with
  | nil => exact List.forall_mem_nil _
  | cons hMake _ ih =>
    obtain ⟨binding, params, returns, isStatic, hMake⟩ := hMake
    refine List.forall_mem_cons.mpr ⟨?_, ih⟩
    rw [eq_of_make hMake]

/-- What a description declares with functions or a known virtual table is an owner. -/
theorem Setting.Declares.isOwner {desc : TypeDesc} {type : TypeExpr} {r : Record}
    (hType : setting.typeOf? desc = some type) (h : setting.Declares desc type (.record r))
    (hCalls : r.table.isSome = true ∨ r.functions ≠ []) : r.IsOwner := by
  cases h with
  | own hOwn =>
    obtain ⟨hBase, -⟩ := Setting.typeOf?_plain hType
    rcases Setting.declaration?_cases hOwn with
      ⟨-, hEq⟩ | ⟨slots, record, functions, table, -, hRecord, hFunctions, hEq⟩
    · cases hEq
    · cases hEq
      have hSame : record.type = type := by
        rcases Host.layOut_ok hRecord with rfl | rfl | rfl <;> exact hBase
      refine ⟨?_, fun d hd => ?_⟩
      · rw [show ({ record with functions, table } : Record).type = type from hSame]
        exact Setting.typeOf?_inModule hType
      · exact (Host.owner_of_descriptors hFunctions d hd).trans (hBase.trans hSame.symm)
  | union _ _ hMem =>
    obtain ⟨k, slots, rfl⟩ := Layout.union_of_mem_layGroups hMem
    rcases hCalls with hTable | hFunctions
    · cases hTable
    · exact absurd rfl hFunctions

variable {s : Session}

theorem Session.Built.isOwner (h : s.Built setting) {key : String} {r : Record}
    (hMem : (key, .record r) ∈ s.registry.entries)
    (hCalls : r.table.isSome = true ∨ r.functions ≠ []) : r.IsOwner := by
  obtain ⟨jobs, hAccount⟩ := h.run.account known_script
  rcases (hAccount.origin hMem).2 with ⟨a, -, hLends⟩ | ⟨job, hJob, hPlaced⟩
  · cases hLends
    rcases hCalls with hTable | hFunctions
    · cases hTable
    · exact absurd rfl hFunctions
  · have hKnown : (Action.ensure job.desc job.type).Known setting :=
      (hAccount.done job hJob).reaches.known known_script
    exact (Job.declares hPlaced).isOwner hKnown.2 hCalls

end Construction

end FixedLayout
