import FixedLayout.Proofs.Construction.Faults
import FixedLayout.Proofs.Construction.Resolution
import FixedLayout.Proofs.Layout.Sums

/-! Fields that leave the address space. A record is built only if all its fields have addresses,
and then no sum of its layout overflows. The error that tells of a field without them comes from a
field of the record itself, or from one of a type that is built before the record is. -/

namespace FixedLayout

/-- The error is not about bytes without addresses. -/
def ExportError.NoOverflow (e : ExportError) : Prop :=
  ∀ context fault, e ≠ .invalidMetadata context fault

theorem ExportError.IsTaken.noOverflow {e : ExportError} (h : e.IsTaken) : e.NoOverflow := by
  obtain ⟨inside, name, rfl⟩ := h
  exact nofun

namespace FieldDesc

/-- The bytes that a field takes up whose element has `size` bytes. -/
def extent (f : FieldDesc) (size : Nat) : Nat :=
  match f.count with
  | none => size
  | some count => size * count

/-- All bytes of the field have addresses, even if a union of the least size has to hold it. -/
structure Addressable (f : FieldDesc) (size : Nat) : Prop where
  array : ∀ count ∈ f.count, size * count < 2 ^ 64
  reach : f.offset + max (f.extent size) 8 < 2 ^ 64

/-- How a field leaves the address space. -/
inductive Overflows (f : FieldDesc) (size : Nat) : ExtentFault → Prop
  | array {count : Nat} (hCount : f.count = some count) (hOver : 2 ^ 64 ≤ size * count) :
      Overflows f size (.array size count)
  | reach (hOver : 2 ^ 64 ≤ f.offset + max (f.extent size) 8) :
      Overflows f size (.reach f.offset (f.extent size))

end FieldDesc

namespace Construction

open Script

variable {setting : Setting}

section Slot

variable {f : FieldDesc}

theorem reachOf_cases {size bytes : Nat} (hArray : ∀ count ∈ f.count, size * count < 2 ^ 64)
    (hBytes : f.extent size = bytes) (context : String) (type : TypeExpr) :
    (f.Addressable size ∧ Setting.reachOf context f type bytes =
      .ok ⟨f.name, type, f.offset, f.extent size⟩) ∨
    ∃ fault, f.Overflows size fault ∧
      Setting.reachOf context f type bytes = .error (.invalidMetadata context fault) := by
  subst hBytes
  unfold Setting.reachOf
  split
  · rename_i hReach
    exact .inl ⟨⟨hArray, Layout.le_maxAddress_iff.mp hReach⟩, rfl⟩
  · rename_i hReach
    exact .inr ⟨_, .reach (not_lt.mp (mt Layout.le_maxAddress_iff.mpr hReach)), rfl⟩

/-- A field becomes a slot of its bytes, or the error tells how it leaves the address space. -/
theorem slotOf_spec (context : String) (f : FieldDesc) (element : Resolved) :
    (f.Addressable element.size ∧ ∃ type, slotOf context f element =
      .ok ⟨f.name, type, f.offset, f.extent element.size⟩) ∨
    ∃ fault, f.Overflows element.size fault ∧
      slotOf context f element = .error (.invalidMetadata context fault) := by
  cases hCount : f.count with
  | none =>
    rw [Setting.slotOf_of_none hCount]
    have hBytes : f.extent element.size = element.size := by rw [FieldDesc.extent, hCount]
    have hCases := reachOf_cases (by simp [hCount]) hBytes context element.type
    exact hCases.imp_left fun ⟨hReach, hOk⟩ => ⟨hReach, _, hOk⟩
  | some count =>
    rw [Setting.slotOf_of_some hCount]
    by_cases hArray : element.size * count ≤ Layout.maxAddress
    · rw [if_pos hArray]
      have hBytes : f.extent element.size = element.size * count := by
        rw [FieldDesc.extent, hCount]
      have hCases := reachOf_cases (by simpa [hCount] using Layout.le_maxAddress_iff.mp hArray)
        hBytes context (element.type.withExtent count)
      exact hCases.imp_left fun ⟨hReach, hOk⟩ => ⟨hReach, _, hOk⟩
    · rw [if_neg hArray]
      exact .inr ⟨_, .array hCount (not_lt.mp (mt Layout.le_maxAddress_iff.mpr hArray)), rfl⟩

end Slot

/-! ### Other errors -/

theorem error_of_bind {ε α β : Type} {x : Except ε α} {f : α → Except ε β} {e : ε}
    (h : x >>= f = .error e) :
    x = .error e ∨ ∃ a, x = .ok a ∧ f a = .error e := by
  cases x with
  | error e' =>
    cases h
    exact .inl rfl
  | ok a => exact .inr ⟨a, rfl, h⟩

theorem noOverflow_parse {text : String} {e : ExportError} (h : TypeExpr.parse text = .error e) :
    e.NoOverflow := by
  unfold TypeExpr.parse at h
  split at h <;> cases h
  exact nofun

theorem noOverflow_pattern {owner text : String} {e : ExportError}
    (h : BytePattern.parse owner text = .error e) : e.NoOverflow := by
  unfold BytePattern.parse at h
  split at h
  · split at h <;> cases h
    exact nofun
  · cases h
    exact nofun

theorem noOverflow_addressOf {owner : String} {a : AddressDesc} {e : ExportError}
    (h : addressOf owner a = .error e) : e.NoOverflow := by
  rcases error_of_bind h with hPattern | ⟨_, -, hEnd⟩
  · exact noOverflow_pattern hPattern
  · cases hEnd

theorem noOverflow_bindingOf {owner : String} {binding : BindingDesc} {e : ExportError}
    (h : bindingOf owner binding = .error e) : e.NoOverflow := by
  cases binding with
  | member signature =>
    rcases error_of_bind h with hPattern | ⟨_, -, hEnd⟩
    · exact noOverflow_pattern hPattern
    · cases hEnd
  | virtual index => cases h
  | address a =>
    rcases error_of_bind h with hAddress | ⟨_, -, hEnd⟩
    · exact noOverflow_addressOf hAddress
    · cases hEnd

theorem noOverflow_make {owner : TypeExpr} {name : String} {overload : Nat} {binding : Binding}
    {params : List Param} {returns : TypeExpr} {isStatic : Bool} {e : ExportError}
    (h : Descriptor.make owner name overload binding params returns isStatic = .error e) :
    e.NoOverflow := by
  unfold Descriptor.make at h
  dsimp only at h
  split at h
  · split at h <;> cases h
    exact nofun
  · cases h

namespace Host

theorem noOverflow_sizeOf {context name : String} {args : List Shape} {e : ExportError}
    (h : (recorder setting).sizeOf context name args = .error e) : e.NoOverflow := by
  unfold sizeOf at h
  split at h
  · cases h
  · dsimp only at h
    generalize (if args.isEmpty then _ else _ : Option TypeDesc) = found at h
    cases found with
    | none =>
      cases h
      exact nofun
    | some desc =>
      dsimp only at h
      split at h
      · cases h
      · split at h <;> cases h
        exact nofun

section Named

variable (context name : String) (args : List Shape) {argTypes : Script (List TypeExpr)}
  (hArgs : FailsOnly ExportError.NoOverflow argTypes)
include hArgs

theorem noOverflow_referExported (target : Target) :
    FailsOnly ExportError.NoOverflow
      ((recorder setting).referExported context name target args argTypes) := by
  unfold referExported
  split
  · cases (recorder setting).library.definition? name with
    | none => exact failsOnly_throw nofun
    | some desc => exact (failsOnly_perform _).bind fun _ _ => failsOnly_pure _
  · apply hArgs.bind
    intro types _
    cases (recorder setting).library.instantiation? name args with
    | some desc =>
      exact (failsOnly_perform _).bind fun _ _ => (failsOnly_perform _).bind fun _ _ =>
        failsOnly_pure _
    | none =>
      cases (recorder setting).library.definition? name with
      | none => exact failsOnly_throw nofun
      | some desc =>
        dsimp only
        split
        · exact failsOnly_throw nofun
        · split
          · exact (failsOnly_perform _).bind fun _ _ => failsOnly_pure _
          · exact failsOnly_pure _

theorem noOverflow_refer :
    FailsOnly ExportError.NoOverflow ((recorder setting).refer context name args argTypes) := by
  unfold refer
  split
  · exact failsOnly_ofExcept fun _ => noOverflow_parse
  · split
    · exact failsOnly_throw nofun
    · split
      · exact noOverflow_referExported context name args hArgs _
      · have hEnd : ∀ type : TypeExpr, FailsOnly ExportError.NoOverflow (do
            (recorder setting).perform (.primitive (.ofType type.erased))
            pure type) := fun type =>
          (failsOnly_perform _).bind fun _ _ => failsOnly_pure _
        unfold referForeign
        split
        · exact hEnd _
        · exact hArgs.bind fun types _ => hEnd _

theorem noOverflow_resolveNamed (depth : Nat) :
    FailsOnly ExportError.NoOverflow
      ((recorder setting).resolveNamed context name depth args argTypes) := by
  unfold resolveNamed
  split
  · unfold resolveWrapper
    split
    · exact failsOnly_throw nofun
    · apply hArgs.bind
      intro types _
      split
      · split
        · exact failsOnly_throw nofun
        · exact failsOnly_pure _
      · exact failsOnly_throw nofun
  · split
    · split
      · exact failsOnly_pure _
      · exact failsOnly_throw nofun
    · apply (noOverflow_refer context name args hArgs).bind
      intro type _
      split
      · exact failsOnly_pure _
      · exact (failsOnly_ofExcept fun _ => noOverflow_sizeOf).bind fun _ _ => failsOnly_pure _

end Named

mutual

theorem noOverflow_resolveUnder (context : String) (whole : Shape) (depth : Nat) (shape : Shape) :
    FailsOnly ExportError.NoOverflow
      ((recorder setting).resolveUnder context whole depth shape) := by
  cases shape with
  | void => exact failsOnly_pure _
  | scalar scalar =>
    simp only [resolveUnder]
    cases scalar.typeExpr? depth with
    | none => exact failsOnly_throw nofun
    | some type => exact failsOnly_pure _
  | pointer pointee => exact noOverflow_resolveUnder context whole (depth + 1) pointee
  | named name args =>
    exact noOverflow_resolveNamed context name args (noOverflow_resolveAll context args) depth
  | param name => exact failsOnly_throw nofun

theorem noOverflow_resolveAll (context : String) (shapes : List Shape) :
    FailsOnly ExportError.NoOverflow ((recorder setting).resolveAll context shapes) := by
  cases shapes with
  | nil => exact failsOnly_pure _
  | cons shape shapes =>
    exact (noOverflow_resolveUnder context shape 0 shape).bind fun resolved _ =>
      (noOverflow_resolveAll context shapes).bind fun types _ => failsOnly_pure _

end

theorem noOverflow_descriptors (desc : TypeDesc) (type : TypeExpr) (earlier : List String)
    (fs : List FunctionDesc) :
    FailsOnly ExportError.NoOverflow
      ((recorder setting).descriptors desc type earlier fs) := by
  induction fs generalizing earlier with
  | nil => exact failsOnly_pure _
  | cons f fs ih =>
    unfold descriptors
    split
    · refine FailsOnly.bind ?_ fun d _ => (ih _).bind fun ds _ => failsOnly_pure _
      refine (failsOnly_ofExcept fun _ => noOverflow_bindingOf).bind fun binding _ =>
        FailsOnly.bind ?_ fun params _ => ?_
      · exact failsOnly_mapM _ fun p _ =>
          (noOverflow_resolveUnder _ _ _ _).bind fun _ _ => failsOnly_pure _
      · exact (noOverflow_resolveUnder _ _ _ _).bind fun returns _ =>
          failsOnly_ofExcept fun _ => noOverflow_make
    · exact ih earlier

theorem failsOnly_layOut {E : ExportError → Prop} (desc : TypeDesc) (type : TypeExpr)
    (slots : List Layout.Slot) : FailsOnly E ((recorder setting).layOut desc type slots) := by
  unfold layOut
  split
  · exact failsOnly_pure _
  · split
    · exact failsOnly_pure _
    · exact (failsOnly_perform _).bind fun _ _ =>
        (failsOnly_forM _ fun _ _ => failsOnly_perform _).bind fun _ _ => failsOnly_pure _

end Host

/-! ### Fields without addresses -/

/-- A field of the description leaves the address space, in the way that the fault says. -/
def Setting.Overflows (setting : Setting) (desc : TypeDesc) (context : String)
    (fault : ExtentFault) : Prop :=
  ∃ f ∈ Layout.storageFields setting.config desc, ∃ element,
    setting.resolved? f.shape = some element ∧ f.Overflows element.size fault ∧
      context = desc.name ++ "." ++ f.name

/-- If the error is about bytes without addresses, then about those of a field of the
description. -/
def Setting.Tells (setting : Setting) (desc : TypeDesc) (e : ExportError) : Prop :=
  ∀ context fault, e = .invalidMetadata context fault → setting.Overflows desc context fault

theorem Setting.tells_of_noOverflow {desc : TypeDesc} {e : ExportError} (h : e.NoOverflow) :
    setting.Tells desc e :=
  fun context fault hEq => absurd hEq (h context fault)

namespace Host

variable {desc : TypeDesc} {type : TypeExpr}

theorem tells_slot {f : FieldDesc} (hf : f ∈ Layout.storageFields setting.config desc) :
    FailsOnly (setting.Tells desc) ((recorder setting).slot desc f) := by
  apply ((noOverflow_resolveUnder _ _ _ _).mono fun _ => Setting.tells_of_noOverflow).bind
  intro element hElement
  refine failsOnly_ofExcept fun e hError context fault hEq => ?_
  rcases slotOf_spec (desc.name ++ "." ++ f.name) f element with
    ⟨-, _, hOk⟩ | ⟨fault', hOver, hFault⟩
  · cases hOk.symm.trans hError
  · cases hEq
    cases hFault.symm.trans hError
    exact ⟨f, hf, element, Setting.resolved?_of_result hElement, hOver, rfl⟩

theorem tells_buildRecord :
    FailsOnly (setting.Tells desc) ((recorder setting).buildRecord desc type) := by
  refine (failsOnly_mapM _ fun f hf => tells_slot hf).bind fun slots _ => ?_
  refine (failsOnly_layOut _ _ _).bind fun record _ => ?_
  refine ((noOverflow_descriptors _ _ _ _).mono fun _ => Setting.tells_of_noOverflow).bind
    fun functions _ => ?_
  refine (failsOnly_ofExcept fun e hError => ?_).bind fun _ _ => failsOnly_perform _
  apply Setting.tells_of_noOverflow
  cases hTable : desc.table with
  | none =>
    rw [hTable] at hError
    cases hError
  | some a =>
    rw [hTable] at hError
    rcases error_of_bind hError with hAddress | ⟨_, -, hEnd⟩
    · exact noOverflow_addressOf hAddress
    · cases hEnd

theorem tells_buildType :
    FailsOnly (setting.Tells desc) ((recorder setting).buildType desc type) := by
  unfold buildType
  split
  · exact (failsOnly_perform _).bind fun _ _ => failsOnly_perform _
  · exact tells_buildRecord

end Host

/-! ### Records -/

/-- The slot has the bytes of the field, and all of them have addresses. -/
def Setting.Stores (setting : Setting) (f : FieldDesc) (slot : Layout.Slot) : Prop :=
  ∃ element, setting.resolved? f.shape = some element ∧ f.Addressable element.size ∧
    slot.offset = f.offset ∧ slot.size = f.extent element.size

theorem Setting.stores_of_slots? {desc : TypeDesc} {slots : List Layout.Slot}
    (h : setting.slots? desc = some slots) :
    List.Forall₂ setting.Stores (Layout.storageFields setting.config desc) slots := by
  refine (forall₂_of_mapM (ok_of_toOption h)).imp fun f slot hSlot => ?_
  obtain ⟨element, hElement, hSlot, -⟩ := bind_ok hSlot
  rw [result_ofExcept] at hSlot
  refine ⟨element, Setting.resolved?_of_result hElement, ?_⟩
  rcases slotOf_spec (desc.name ++ "." ++ f.name) f element with
    ⟨hReach, _, hOk⟩ | ⟨_, -, hError⟩
  · cases hOk.symm.trans hSlot
    exact ⟨hReach, rfl, rfl⟩
  · cases hError.symm.trans hSlot

/-- The first moment of a build. -/
def Setting.buildStart (setting : Setting) (desc : TypeDesc) (type : TypeExpr) (s : Session) :
    Moment :=
  .running s ⟨(setting.buildScript desc type).actions, (setting.buildScript desc type).result⟩ []

namespace Scope

/-- A description that is built for a record: its own one, or one whose build begins before that of
the record is over. -/
inductive BuiltFor (setting : Setting) (desc : TypeDesc) (type : TypeExpr) (s : Session) :
    TypeDesc → Prop
  | own : BuiltFor setting desc type s desc
  | inner {m : Moment} {desc' : TypeDesc} {type' : TypeExpr}
      (hLeads : (setting.buildStart desc type s).Leads setting m)
      (hOpens : m.Opens setting desc' type')
      (hEnd : m.Leads setting (.ended (((top setting).buildRecord desc type).on s).1
        (((top setting).buildRecord desc type).on s).2 [])) :
      BuiltFor setting desc type s desc'

section Record

variable {desc : TypeDesc} (hRecord : desc.isEnum = false)
include hRecord

theorem buildScript_of_record (type : TypeExpr) :
    setting.buildScript desc type = (recorder setting).buildRecord desc type :=
  if_neg (by simp [hRecord])

theorem buildRecord_on (setting : Setting) (type : TypeExpr) (s : Session) :
    ((top setting).buildRecord desc type).on s =
      (((((setting.buildScript desc type).actions.forM (top setting).perform).on s).1.bind
        fun _ => (setting.buildScript desc type).result),
        (((setting.buildScript desc type).actions.forM (top setting).perform).on s).2) := by
  have hRun := Host.runOn_buildRecord (top setting) desc type
  rw [show (top setting).setting = setting from setting_withRoom ..] at hRun
  rw [← hRun, ← buildScript_of_record hRecord, on_runOn]

/-- The moments from the first one on lead to what the build answers and leaves. -/
theorem leads_buildRecord (setting : Setting) (type : TypeExpr) (s : Session) :
    (setting.buildStart desc type s).Leads setting
      (.ended (((top setting).buildRecord desc type).on s).1
        (((top setting).buildRecord desc type).on s).2 []) := by
  rw [buildRecord_on hRecord]
  exact (exec_top s (known_buildScript desc type)).leads _ []

/-- A record that is built has only fields with addresses, so that no sum of its layout overflows.
Bytes without addresses are reported only for a field of the record, or of a type that is built
for it. -/
theorem buildRecord_extents (setting : Setting) (type : TypeExpr) (s : Session) :
    ((((top setting).buildRecord desc type).on s).1 = .ok () → ∃ slots,
      setting.slots? desc = some slots ∧
      List.Forall₂ setting.Stores (Layout.storageFields setting.config desc) slots ∧
      Layout.InRange setting.config type desc.size slots) ∧
    ∀ context fault,
      (((top setting).buildRecord desc type).on s).1 = .error (.invalidMetadata context fault) →
      ∃ desc', BuiltFor setting desc type s desc' ∧ setting.Overflows desc' context fault := by
  constructor
  · intro hOk
    rw [← Host.runOn_buildRecord, top, setting_withRoom] at hOk
    obtain ⟨slots, hSlots, -⟩ := bind_ok (ok_of_on hOk)
    have hSlots : setting.slots? desc = some slots := congrArg Except.toOption hSlots
    exact ⟨slots, hSlots, Setting.stores_of_slots? hSlots,
      Layout.inRange_of_fits (Setting.fits_of_slots? hSlots)⟩
  · -- The error is that of the script, or of one of its actions.
    intro context fault hError
    have hLeads := leads_buildRecord hRecord setting type s
    have hRun : Exec setting s _ _ _ := exec_top s (known_buildScript desc type)
    rw [buildRecord_on hRecord] at hError
    cases hFirst : ((setting.buildScript desc type).actions.forM (top setting).perform).on s with
    | mk r s' =>
      rw [hFirst] at hError hRun
      cases r with
      | ok u => exact ⟨desc, .own, Host.tells_buildType _ hError context fault rfl⟩
      | error e =>
        cases hError
        rcases hRun.error_cases (setting.buildScript desc type).result [] with
          hTaken | ⟨m, desc', type', hLater, hOpens, hResult⟩
        · exact absurd rfl (hTaken.noOverflow context fault)
        · exact ⟨desc', .inner hLater hOpens (Moment.Leads.ended hLater hLeads),
            Host.tells_buildType _ hResult context fault rfl⟩

end Record

/-- A struct whose field is as far out as it may be. -/
def edge : TypeDesc :=
  .ofFields "App.Edge" 8 [{ name := "tail", shape := .scalar .int32, offset := 2 ^ 64 - 9 }]

/-- A struct whose field is one byte further out. -/
def beyond : TypeDesc :=
  .ofFields "App.Beyond" 8 [{ name := "tail", shape := .scalar .int32, offset := 2 ^ 64 - 8 }]

/-- A struct that holds one of those. -/
def holder : TypeDesc :=
  .ofFields "App.Holder" 8 [{ name := "held", shape := .named "App.Beyond" [], offset := 0 }]

def brink : Setting := ⟨.ofTypes [edge, beyond, holder], .forNamespace "App" ["app"]⟩

theorem buildRecord_extents_brink :
    edge.isEnum = false ∧ holder.isEnum = false ∧
    (∃ slots, brink.slots? edge = some slots ∧
      List.Forall₂ brink.Stores (Layout.storageFields brink.config edge) slots ∧
      Layout.InRange brink.config (.inModule ["app"] "Edge") edge.size slots) ∧
    ∃ desc, BuiltFor brink holder (.inModule ["app"] "Holder") {} desc ∧
      brink.Overflows desc "App.Beyond.tail" (.reach (2 ^ 64 - 8) 4) := by
  have hEdge : edge.isEnum = false := rfl
  have hHolder : holder.isEnum = false := rfl
  have hOk : (((top brink).buildRecord edge (.inModule ["app"] "Edge")).on {}).1 = .ok () := by
    decide +kernel
  have hError : (((top brink).buildRecord holder (.inModule ["app"] "Holder")).on {}).1 =
      .error (.invalidMetadata "App.Beyond.tail" (.reach (2 ^ 64 - 8) 4)) := by
    decide +kernel
  exact ⟨hEdge, hHolder, (buildRecord_extents hEdge brink _ _).1 hOk,
    (buildRecord_extents hHolder brink _ _).2 _ _ hError⟩

end Scope

end Construction

end FixedLayout
