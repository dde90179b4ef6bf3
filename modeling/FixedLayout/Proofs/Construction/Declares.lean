import FixedLayout.Proofs.Construction.Calls
import FixedLayout.Proofs.Layout.Groups

/-! What building a description declares: the declaration of its own, as its fields and functions
determine it, and before it the unions that its fields need. -/

namespace FixedLayout.Construction

theorem eq_of_make {owner : TypeExpr} {name : String} {overload : Nat} {binding : Binding}
    {params : List Param} {returns : TypeExpr} {isStatic : Bool} {d : Descriptor}
    (h : Descriptor.make owner name overload binding params returns isStatic = .ok d) :
    d = {
      owner := owner.base
      name, binding, returns, isStatic
      structName := owner.name ++ "_Fn_" ++ name ++ Descriptor.overloadMark overload
      accessor := Ident.escape (Ident.dropRaw (Ident.snake name) ++ Descriptor.overloadMark overload)
      params := params.map fun p => { p with name := Descriptor.paramName p.name } } := by
  unfold Descriptor.make at h
  dsimp only at h
  split at h <;> split at h <;> cases h <;> rfl

namespace Setting

open Script

variable (setting : Setting)

/-- The slots of the fields that take up room, unless one of them has no type. -/
def slots? (desc : TypeDesc) : Option (List Layout.Slot) :=
  ((Layout.storageFields setting.config desc).mapM
    ((recorder setting).slot desc)).result.toOption

/-- The declaration that a description determines, where its fields and functions have types. -/
def declaration? (desc : TypeDesc) (type : TypeExpr) : Option Declaration :=
  if desc.isEnum then some (.enumeration (Enumeration.ofDesc type desc))
  else do
    let slots ← setting.slots? desc
    let record ← ((recorder setting).layOut desc type slots).result.toOption
    let functions ← ((recorder setting).descriptors desc type [] desc.functions).result.toOption
    let table ← (desc.table.mapM (addressOf desc.name)).toOption
    return .record { record with functions, table }

/-- What the build of a description may declare. -/
inductive Declares (desc : TypeDesc) (type : TypeExpr) : Declaration → Prop
  | own {d : Declaration} (hOwn : setting.declaration? desc type = some d) : Declares desc type d
  | union {slots : List Layout.Slot} {u : Record} (hStruct : desc.category = .struct)
      (hSlots : setting.slots? desc = some slots)
      (hMem : u ∈ (Layout.reconstruct setting.config type desc.size slots).unions) :
      Declares desc type (.record u)

/-- What the build of a description may do. -/
def Does (desc : TypeDesc) (type : TypeExpr) (a : Action) : Prop :=
  setting.Calls a ∨ (∃ diagnostics, a = .report diagnostics) ∨
    ∃ d, a = .place d ∧ setting.Declares desc type d

end Setting

namespace Host

open Script

variable {setting : Setting} (desc : TypeDesc) (type : TypeExpr)

theorem calls_slot (f : FieldDesc) : Only setting.Calls ((recorder setting).slot desc f) :=
  (calls_resolveUnder _ _ _ _).bind fun _ _ => only_ofExcept _

theorem calls_descriptors (earlier : List String) (fs : List FunctionDesc) :
    Only setting.Calls ((recorder setting).descriptors desc type earlier fs) := by
  induction fs generalizing earlier with
  | nil => exact only_pure _
  | cons f fs ih =>
    unfold descriptors
    split
    · refine Only.bind ?_ fun d _ => (ih _).bind fun ds _ => only_pure _
      refine (only_ofExcept _).bind fun binding _ => Only.bind ?_ fun params _ => ?_
      · exact only_mapM _ fun p _ => (calls_resolveUnder _ _ _ _).bind fun _ _ => only_pure _
      · exact (calls_resolveUnder _ _ _ _).bind fun returns _ => only_ofExcept _
    · exact ih earlier

theorem does_layOut (hEnum : ¬desc.isEnum = true) {slots : List Layout.Slot}
    (hSlots : setting.slots? desc = some slots) :
    Only (setting.Does desc type) ((recorder setting).layOut desc type slots) := by
  unfold layOut
  split
  · exact only_pure _
  · split
    · exact only_pure _
    · rename_i hUnion
      have hStruct : desc.category = .struct := by
        cases hCategory : desc.category with
        | struct => rfl
        | union => exact absurd hCategory hUnion
        | enum => exact absurd (by rw [TypeDesc.isEnum, hCategory]; rfl) hEnum
      refine (only_perform (.inr (.inl ⟨_, rfl⟩))).bind ?_
      intro _ _
      refine (only_forM _ fun u hMem => ?_).bind fun _ _ => only_pure _
      exact only_perform (.inr (.inr ⟨_, rfl, .union hStruct hSlots hMem⟩))

theorem does_buildType :
    Only (setting.Does desc type) ((recorder setting).buildType desc type) := by
  have hCalls : ∀ {α : Type} {x : Script α}, Only setting.Calls x →
      Only (setting.Does desc type) x := fun h a ha => .inl (h a ha)
  unfold buildType
  split
  · rename_i hEnum
    refine (only_perform (.inr (.inl ⟨_, rfl⟩))).bind ?_
    intro _ _
    refine only_perform (.inr (.inr ⟨_, rfl, .own ?_⟩))
    rw [Setting.declaration?, if_pos hEnum]
  · rename_i hEnum
    unfold buildRecord
    refine (hCalls (only_mapM _ fun f _ => calls_slot desc f)).bind fun slots hSlots => ?_
    have hSlots : setting.slots? desc = some slots := congrArg Except.toOption hSlots
    apply (does_layOut desc type hEnum hSlots).bind
    intro record hRecord
    apply (hCalls (calls_descriptors desc type _ _)).bind
    intro functions hFunctions
    refine (only_ofExcept _).bind ?_
    intro table hTable
    refine only_perform (.inr (.inr ⟨_, rfl, .own ?_⟩))
    rw [result_ofExcept] at hTable
    simp [Setting.declaration?, hEnum, hSlots, hRecord, hFunctions, hTable, Except.toOption]

/-- Fields become bare bytes, members over each other, or members in a row. -/
theorem layOut_ok {desc : TypeDesc} {type : TypeExpr} {slots : List Layout.Slot} {record : Record}
    (h : ((recorder setting).layOut desc type slots).result = .ok record) :
    record = Record.empty type desc.size .blob ∨ record = Layout.unionOf type slots desc.size ∨
    record = { Record.empty type desc.size .struct with
      members := (Layout.reconstruct setting.config type desc.size slots).members } := by
  unfold layOut at h
  split at h
  · cases h
    exact .inl rfl
  · split at h
    · cases h
      exact .inr (.inl rfl)
    · obtain ⟨_, -, h, -⟩ := bind_ok h
      obtain ⟨_, -, h, -⟩ := bind_ok h
      cases h
      exact .inr (.inr rfl)

/-- A build that succeeds declares what its description determines. -/
theorem place_mem_of_ok {desc : TypeDesc} {type : TypeExpr}
    (h : ((recorder setting).buildType desc type).result = .ok ()) :
    ∃ d, setting.declaration? desc type = some d ∧
      .place d ∈ ((recorder setting).buildType desc type).actions := by
  unfold buildType at h ⊢
  split at h
  · rename_i hEnum
    refine ⟨_, if_pos hEnum, ?_⟩
    rw [if_pos hEnum]
    exact List.mem_cons_of_mem _ (List.mem_singleton_self _)
  · rename_i hEnum
    rw [if_neg hEnum]
    unfold buildRecord at h ⊢
    obtain ⟨slots, hSlots, h, hFirst⟩ := bind_ok h
    obtain ⟨record, hRecord, h, hSecond⟩ := bind_ok h
    obtain ⟨functions, hFunctions, h, hThird⟩ := bind_ok h
    obtain ⟨table, hTable, h, hFourth⟩ := bind_ok h
    rw [result_ofExcept] at hTable
    refine ⟨.record { record with functions, table }, ?_, ?_⟩
    · have hSlots : setting.slots? desc = some slots := congrArg Except.toOption hSlots
      simp [Setting.declaration?, hEnum, hSlots, hRecord, hFunctions, hTable, Except.toOption]
    · rw [hFirst, hSecond, hThird, hFourth]
      simp [recorder]

/-- Fields that become members in a row have what their plan reports reported. -/
theorem report_mem_layOut {desc : TypeDesc} {type : TypeExpr} {slots : List Layout.Slot}
    {record : Record} (h : ((recorder setting).layOut desc type slots).result = .ok record)
    (hForm : record.form = .struct) :
    .report (Layout.reconstruct setting.config type desc.size slots).diagnostics ∈
      ((recorder setting).layOut desc type slots).actions := by
  unfold layOut at h ⊢
  split at h
  · cases h
    cases hForm
  · rename_i hBare
    split at h
    · cases h
      cases hForm
    · rename_i hUnion
      rw [if_neg hBare, if_neg hUnion]
      exact List.mem_cons_self

/-- A declared union is as wide as its widest slot. Any other type has the size of its
description. -/
theorem size_layOut {desc : TypeDesc} {type : TypeExpr} {slots : List Layout.Slot}
    {record : Record} (h : ((recorder setting).layOut desc type slots).result = .ok record) :
    record.size =
      if desc.category = .union then max (Layout.widest slots) desc.size else desc.size := by
  unfold layOut at h
  split at h
  · rename_i hBare
    obtain rfl : slots = [] := by simp_all
    cases h
    split
    · exact (Nat.zero_max _).symm
    · rfl
  · split at h
    · rename_i hUnion
      cases h
      rw [if_pos hUnion, Layout.size_unionOf]
    · rename_i hUnion
      obtain ⟨_, -, h, -⟩ := bind_ok h
      obtain ⟨_, -, h, -⟩ := bind_ok h
      cases h
      rw [if_neg hUnion]
      rfl

theorem layOut_subset_buildType {desc : TypeDesc} {type : TypeExpr} {slots : List Layout.Slot}
    (h : ((recorder setting).buildType desc type).result = .ok ()) (hEnum : ¬desc.isEnum = true)
    (hSlots : setting.slots? desc = some slots) :
    ((recorder setting).layOut desc type slots).actions ⊆
      ((recorder setting).buildType desc type).actions := by
  unfold buildType buildRecord at h ⊢
  rw [if_neg hEnum] at h ⊢
  obtain ⟨_, hFields, h, hFirst⟩ := bind_ok h
  obtain rfl : _ = slots := Option.some.inj ((congrArg Except.toOption hFields).symm.trans hSlots)
  obtain ⟨_, -, -, hSecond⟩ := bind_ok h
  rw [hFirst, hSecond]
  intro a ha
  exact List.mem_append_right _ (List.mem_append_left _ ha)

end Host

namespace Setting

open Script

variable {setting : Setting} {desc : TypeDesc} {type : TypeExpr}

section Slot

variable {context : String} {f : FieldDesc} {element : Resolved} {s : Layout.Slot}

/-- The slot of a field of a type and a size, unless it reaches too far. -/
def reachOf (context : String) (f : FieldDesc) (type : TypeExpr) (size : Nat) :
    Except ExportError Layout.Slot :=
  if f.offset + max size Layout.minUnionSize ≤ Layout.maxAddress then
    .ok ⟨f.name, type, f.offset, size⟩
  else .error (.invalidMetadata context (.reach f.offset size))

theorem slotOf_of_none (h : f.count = none) :
    slotOf context f element = reachOf context f element.type element.size := by
  unfold slotOf
  rw [h]
  rfl

theorem slotOf_of_some {count : Nat} (h : f.count = some count) :
    slotOf context f element =
      if element.size * count ≤ Layout.maxAddress then
        reachOf context f (element.type.withExtent count) (element.size * count)
      else .error (.invalidMetadata context (.array element.size count)) := by
  unfold slotOf
  rw [h]
  split_ifs with hArray
  · simp only [if_pos hArray]
    rfl
  · simp only [if_neg hArray]
    rfl

theorem reachOf_ok {type : TypeExpr} {size : Nat} (h : reachOf context f type size = .ok s) :
    s.Fits ∧ s.type = type ∧ s.size = size := by
  unfold reachOf at h
  split at h
  · rename_i hReach
    cases h
    exact ⟨hReach, rfl, rfl⟩
  · cases h

/-- A field becomes a slot that can be addressed, with its element or an array of those. -/
theorem slotOf_cases (h : slotOf context f element = .ok s) : s.Fits ∧
    (f.count = none ∧ s.type = element.type ∧ s.size = element.size ∨
      ∃ count, f.count = some count ∧ s.type = element.type.withExtent count ∧
        s.size = element.size * count) := by
  cases hCount : f.count with
  | none =>
    rw [slotOf_of_none hCount] at h
    obtain ⟨hFits, hSlot⟩ := reachOf_ok h
    exact ⟨hFits, .inl ⟨rfl, hSlot⟩⟩
  | some count =>
    rw [slotOf_of_some hCount] at h
    split at h
    · obtain ⟨hFits, hSlot⟩ := reachOf_ok h
      exact ⟨hFits, .inr ⟨count, rfl, hSlot⟩⟩
    · cases h

end Slot

theorem fits_of_slots? {slots : List Layout.Slot} (h : setting.slots? desc = some slots) :
    ∀ s ∈ slots, s.Fits := by
  intro s hs
  obtain ⟨f, -, hSlot⟩ := exists_of_mem_mapM (ok_of_toOption h) hs
  obtain ⟨element, -, hSlot, -⟩ := bind_ok hSlot
  rw [result_ofExcept] at hSlot
  exact (slotOf_cases hSlot).1

/-- The type of a description is that of a target. -/
theorem exists_target_of_typeOf? (h : setting.typeOf? desc = some type) :
    ∃ target : Target, type = target.type := by
  obtain ⟨target, -, h⟩ := Option.bind_eq_some_iff.mp h
  split at h
  · cases h
    exact ⟨target, rfl⟩
  · obtain ⟨types, -, h⟩ := Option.bind_eq_some_iff.mp h
    cases h
    exact ⟨target.instantiate types, rfl⟩

theorem typeOf?_plain (h : setting.typeOf? desc = some type) : type.base = type ∧
    type.arguments = none := by
  obtain ⟨target, rfl⟩ := exists_target_of_typeOf? h
  exact ⟨rfl, rfl⟩

theorem key_of_plain {r : Record} (h : r.type.arguments = none) : r.key = r.type.canonical := by
  simp [Record.key, Record.isOpenGeneric, h]

theorem declaration?_cases {d : Declaration} (h : setting.declaration? desc type = some d) :
    desc.isEnum = true ∧ d = .enumeration (Enumeration.ofDesc type desc) ∨
    ∃ slots record functions table, setting.slots? desc = some slots ∧
      ((recorder setting).layOut desc type slots).result = .ok record ∧
      ((recorder setting).descriptors desc type [] desc.functions).result = .ok functions ∧
      d = .record { record with functions, table } := by
  unfold declaration? at h
  split at h
  · rename_i hEnum
    cases h
    exact .inl ⟨hEnum, rfl⟩
  · simp only [Option.bind_eq_bind, Option.bind_eq_some_iff, Option.pure_def] at h
    obtain ⟨slots, hSlots, record, hRecord, functions, hFunctions, table, -, h⟩ := h
    cases h
    exact .inr ⟨slots, record, functions, table, hSlots, ok_of_toOption hRecord,
      ok_of_toOption hFunctions, rfl⟩

theorem not_isEnum_of_declaration? {r : Record}
    (h : setting.declaration? desc type = some (.record r)) : ¬desc.isEnum = true := by
  intro hEnum
  rw [declaration?, if_pos hEnum] at h
  cases h

/-- What a build declares as a record is bare bytes, members over each other, or the members of the
plan for its own fields. -/
theorem Declares.record_cases {r : Record} (h : setting.Declares desc type (.record r)) :
    r.form = .blob ∧ r.members = [] ∨
    (r.form = .union ∧ ∃ slots size, r.members = (Layout.unionOf type slots size).members) ∨
    r.form = .struct ∧ r.type = type.base ∧ ∃ slots, setting.slots? desc = some slots ∧
      r.size = desc.size ∧
      r.members = (Layout.reconstruct setting.config type desc.size slots).members := by
  cases h with
  | own hOwn =>
    rcases declaration?_cases hOwn with
      ⟨-, hEq⟩ | ⟨slots, record, functions, table, hSlots, hRecord, -, hEq⟩
    · cases hEq
    · cases hEq
      rcases Host.layOut_ok hRecord with rfl | rfl | rfl
      · exact .inl ⟨rfl, rfl⟩
      · exact .inr (.inl ⟨rfl, slots, desc.size, rfl⟩)
      · exact .inr (.inr ⟨rfl, rfl, slots, hSlots, rfl, rfl⟩)
  | union _ _ hMem =>
    obtain ⟨k, slots, rfl⟩ := Layout.union_of_mem_layGroups hMem
    exact .inr (.inl ⟨rfl, slots, _, rfl⟩)

/-- The build of a struct reports what its plan has to report. -/
theorem Declares.report_mem {r : Record} (h : setting.Declares desc type (.record r))
    (hForm : r.form = .struct) (hOk : ((recorder setting).buildType desc type).result = .ok ())
    {slots : List Layout.Slot} (hSlots : setting.slots? desc = some slots) :
    .report (Layout.reconstruct setting.config type desc.size slots).diagnostics ∈
      ((recorder setting).buildType desc type).actions := by
  cases h with
  | own hOwn =>
    rcases declaration?_cases hOwn with ⟨-, hEq⟩ | ⟨slots', record, _, _, hSlots', hRecord, -, hEq⟩
    · cases hEq
    · cases hEq
      cases hSlots'.symm.trans hSlots
      exact Host.layOut_subset_buildType hOk (not_isEnum_of_declaration? hOwn) hSlots
        (Host.report_mem_layOut hRecord hForm)
  | union _ _ hMem =>
    obtain ⟨k, slots, rfl⟩ := Layout.union_of_mem_layGroups hMem
    cases hForm

theorem key_of_declaration? (hType : setting.typeOf? desc = some type) {d : Declaration}
    (h : setting.declaration? desc type = some d) : d.key = type.canonical := by
  obtain ⟨hBase, hPlain⟩ := typeOf?_plain hType
  rcases declaration?_cases h with ⟨-, rfl⟩ | ⟨slots, record, functions, table, -, hRecord, -, rfl⟩
  · rfl
  · have hRecordType : record.type = type := by
      rcases Host.layOut_ok hRecord with rfl | rfl | rfl <;> exact hBase
    rw [Declaration.key, key_of_plain (by rw [hRecordType, hPlain]), hRecordType]

end Setting

theorem isOpenGeneric_openRecord {desc : TypeDesc} (hOpen : desc.isOpenGeneric = true)
    (target : Target) : (openRecord (openType desc target)).isOpenGeneric = true := by
  have hParams : desc.params.length ≠ 0 := by
    intro hNone
    simp [TypeDesc.isOpenGeneric, List.length_eq_zero_iff.mp hNone] at hOpen
  simp [Record.isOpenGeneric, openRecord, openType, Record.empty, TypeExpr.withArguments,
    TypeExpr.base, hParams]

theorem key_openRecord {desc : TypeDesc} (hOpen : desc.isOpenGeneric = true) (target : Target) :
    (openRecord (openType desc target)).key = (openType desc target).erasedText := by
  rw [Record.key, if_pos (isOpenGeneric_openRecord hOpen target)]
  rfl

end FixedLayout.Construction
