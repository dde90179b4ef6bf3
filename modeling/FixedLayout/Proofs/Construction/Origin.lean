import FixedLayout.Proofs.Construction.Whole

/-! Where the declarations of a construction come from: a primitive, the placeholder for an open
generic, or the build of a description that is reached. -/

namespace FixedLayout.Construction

open Script

variable {setting : Setting}

/-- The build of a description is reached from the script of the library. -/
def Setting.Builds (setting : Setting) (desc : TypeDesc) (type : TypeExpr) : Prop :=
  setting.Reaches setting.script.actions (.ensure desc type) ∧
    isCandidate setting.config desc = true

/-- What is built is an entry of the library, with its type. -/
theorem Setting.Builds.known {desc : TypeDesc} {type : TypeExpr} (h : setting.Builds desc type) :
    desc ∈ setting.library.types ∧ setting.typeOf? desc = some type :=
  (h.1.known known_script : (Action.ensure desc type).Known setting)

/-- The placeholder for an open generic is reached from the script of the library. -/
structure Setting.Holds (setting : Setting) (desc : TypeDesc) (target : Target) : Prop where
  reaches : setting.Reaches setting.script.actions (.placeholder (openType desc target))
  mem : desc ∈ setting.library.types
  candidate : isCandidate setting.config desc = true
  generic : desc.isOpenGeneric = true
  target : Target.ofName? setting.config desc.name = some target

/-- Where a declaration comes from. -/
inductive Setting.Origin (setting : Setting) : Declaration → Prop
  | primitive (p : Primitive) : Origin setting (.primitive p)
  | placeholder {desc : TypeDesc} {target : Target} (hHolds : setting.Holds desc target) :
      Origin setting (.record (openRecord (openType desc target)))
  | built {desc : TypeDesc} {type : TypeExpr} {d : Declaration}
      (hBuilds : setting.Builds desc type) (hDeclares : setting.Declares desc type d) :
      Origin setting d

/-- What is reached from the script of the library: what shapes call for, primitives, and what
builds report and place. -/
theorem Setting.Reaches.cases {a : Action} (h : setting.Reaches setting.script.actions a) :
    setting.Calls a ∨ (∃ p, a = .primitive p) ∨ (∃ diagnostics, a = .report diagnostics) ∨
      ∃ desc type d, setting.Builds desc type ∧ a ∈ (setting.buildScript desc type).actions ∧
        a = .place d ∧ setting.Declares desc type d := by
  cases h with
  | here hMem =>
    have hScript : Only (fun a => setting.Calls a ∨ ∃ p, a = .primitive p) setting.script :=
      only_script (fun p => .inr ⟨p, rfl⟩) fun _ h => .inl h
    rcases hScript a hMem with hCalls | hPrimitive
    · exact .inl hCalls
    · exact .inr (.inl hPrimitive)
  | inner hEnsure hCandidate hMem =>
    rcases Host.does_buildType _ _ a hMem with hCalls | hReport | ⟨d, rfl, hDeclares⟩
    · exact .inl hCalls
    · exact .inr (.inr (.inl hReport))
    · exact .inr (.inr (.inr ⟨_, _, d, ⟨hEnsure, hCandidate⟩, hMem, rfl, hDeclares⟩))

/-- The primitive that an action registers. -/
def Action.primitive? : Action → Option Primitive
  | .primitive p => some p
  | _ => none

/-- The primitives that a run can come to: those of its script and of the builds of its entries. -/
def Setting.primitives (setting : Setting) : List Primitive :=
  (setting.script.actions ++ setting.library.types.flatMap fun desc =>
    (setting.typeOf? desc).elim [] fun type =>
      (setting.buildScript desc type).actions).filterMap Action.primitive?

theorem Setting.Reaches.mem_primitives {p : Primitive}
    (h : setting.Reaches setting.script.actions (.primitive p)) : p ∈ setting.primitives := by
  refine List.mem_filterMap.mpr ⟨.primitive p, ?_, rfl⟩
  cases h with
  | here hMem => exact List.mem_append_left _ hMem
  | inner hEnsure hCandidate hMem =>
    obtain ⟨hDesc, hType⟩ := Setting.Builds.known ⟨hEnsure, hCandidate⟩
    refine List.mem_append_right _ (List.mem_flatMap.mpr ⟨_, hDesc, ?_⟩)
    rw [hType]
    exact hMem

/-- A placeholder that is reached is that of an entry. -/
theorem Setting.Reaches.holds {type : TypeExpr}
    (h : setting.Reaches setting.script.actions (.placeholder type)) :
    ∃ desc target, setting.Holds desc target ∧ type = openType desc target := by
  rcases h.cases with hCalls | ⟨p, hEq⟩ | ⟨_, hEq⟩ | ⟨_, _, _, -, -, hEq, -⟩
  · cases hCalls with
    | placeholder hMem hCandidate hOpen hTarget =>
      exact ⟨_, _, ⟨h, hMem, hCandidate, hOpen, hTarget⟩, rfl⟩
  · cases hEq
  · cases hEq
  · cases hEq

/-- Whatever registers a declaration is reached as one of three kinds of action. -/
theorem Setting.Registers.origin {d : Declaration}
    (h : setting.Registers setting.script.actions d) : setting.Origin d := by
  obtain ⟨a, hReaches, hRegisters⟩ := h
  cases a with
  | primitive p =>
    cases hRegisters
    exact .primitive p
  | placeholder type =>
    cases hRegisters
    obtain ⟨desc, target, hHolds, rfl⟩ := hReaches.holds
    exact .placeholder hHolds
  | place placed =>
    cases hRegisters
    rcases hReaches.cases with hCalls | ⟨_, hEq⟩ | ⟨_, hEq⟩ | ⟨_, _, _, hBuilds, -, hEq, hDeclares⟩
    · cases hCalls
    · cases hEq
    · cases hEq
    · cases hEq
      exact .built hBuilds hDeclares
  | claim | ensure | report => cases hRegisters

end FixedLayout.Construction
