import FixedLayout.Proofs.Construction.Builtin
import FixedLayout.Proofs.Construction.Claims
import FixedLayout.Proofs.Construction.Resolution
import FixedLayout.Proofs.Export.Session

/-! The size that a field takes up and the size that its type is declared with. The first is read
from the library, and the second comes of a declaration that may have been widened, or may be that of
another entry. -/

namespace FixedLayout

/-- The bytes that a value of the described type takes up. -/
def TypeDesc.storage (desc : TypeDesc) : Nat := if desc.isEnum then desc.width.size else desc.size

/-- The entry that the size of a name with arguments is read from. -/
def Library.entry? (l : Library) (name : String) (args : List Shape) : Option TypeDesc :=
  if args.isEmpty then l.definition? name else (l.instantiation? name args).or (l.definition? name)

/-- The bytes that a declaration takes up, for those that are written out. -/
def Declaration.size? : Declaration → Option Nat
  | record r => some r.size
  | enumeration e => some e.size
  | primitive _ => none

theorem Taint.size?_wrapDeclaration (t : Taint) (r : Registry) (d : Declaration) :
    (t.wrapDeclaration r d).size? = d.size? := by
  cases d with
  | record record => exact congrArg some (size_wrapRecord t r record)
  | enumeration | primitive => rfl

namespace Construction

open Script

variable {setting : Setting}

theorem Host.sizeOf_ok (hExternals : setting.config.externals = []) {context name : String}
    {args : List Shape} {size : Nat}
    (h : (recorder setting).sizeOf context name args = .ok size) :
    ∃ entry, setting.library.entry? name args = some entry ∧ size = entry.storage := by
  have hNone : (recorder setting).config.external? name = none :=
    external?_of_nil hExternals name
  have hEntry : (if args.isEmpty then (recorder setting).library.definition? name
      else ((recorder setting).library.instantiation? name args).or
        ((recorder setting).library.definition? name)) = setting.library.entry? name args := rfl
  unfold Host.sizeOf at h
  simp only [hNone, Option.bind_none, hEntry] at h
  cases hFind : setting.library.entry? name args with
  | none =>
    rw [hFind] at h
    cases h
  | some entry =>
    refine ⟨entry, rfl, ?_⟩
    simp only [hFind] at h
    unfold TypeDesc.storage
    split at h
    · rename_i hEnum
      cases h
      rw [if_pos hEnum]
    · rename_i hEnum
      rw [if_neg hEnum]
      split at h
      · cases h
      · cases h
        rfl

/-- What is declared for an entry takes up as much as a value of it, unless it is a union with a
slot that is wider. -/
theorem Setting.size?_declaration? {entry : TypeDesc} {type : TypeExpr} {d : Declaration}
    (h : setting.declaration? entry type = some d) :
    d.size? = some entry.storage ↔ (entry.category = .union → ∀ slots,
      setting.slots? entry = some slots → ∀ slot ∈ slots, slot.size ≤ entry.size) := by
  rcases Setting.declaration?_cases h with
    ⟨hEnum, rfl⟩ | ⟨slots, record, functions, table, hSlots, hRecord, -, rfl⟩
  · refine iff_of_true ?_ fun hUnion => ?_
    · rw [TypeDesc.storage, if_pos hEnum]
      rfl
    · simp [TypeDesc.isEnum, hUnion] at hEnum
  · have hEnum := Setting.not_isEnum_of_declaration? h
    have hSize := Host.size_layOut hRecord
    simp only [Declaration.size?, TypeDesc.storage, if_neg hEnum, hSize, hSlots,
      Option.some.injEq, forall_eq']
    split
    · rename_i hUnion
      rw [← Layout.widest_le_iff, max_eq_right_iff]
      simp [hUnion]
    · rename_i hUnion
      simp [hUnion]

theorem mem_builtin_of_scalar {scalar : Scalar} (hValue : scalar.primitive.indirection = 0) :
    Primitive.ofType scalar.primitive ∈ Primitive.builtin := by
  cases scalar with
  | intptr | uintptr => cases hValue
  | _ => decide

/-- Where a field is a value of a type that is declared, the field has a name for its shape, and
takes up as much as the entry for that name. -/
theorem Session.Built.exists_entry {s : Session} (h : s.Built setting)
    (hExternals : setting.config.externals = []) {desc : TypeDesc} {f : FieldDesc}
    {slot : Layout.Slot} (hSlot : ((recorder setting).slot desc f).result = .ok slot)
    (hCount : f.count = none) (hValue : slot.type.indirection = 0) {d : Declaration}
    (hMem : (slot.type.canonical, d) ∈ s.registry.entries) (hEmitted : d.isEmitted = true) :
    ∃ name args entry, f.shape = .named name args ∧
      setting.library.entry? name args = some entry ∧ slot.size = entry.storage := by
  obtain ⟨element, hElement, hSlot, -⟩ := bind_ok hSlot
  rw [result_ofExcept] at hSlot
  obtain ⟨hType, hSize⟩ : slot.type = element.type ∧ slot.size = element.size := by
    rcases (Setting.slotOf_cases hSlot).2 with ⟨-, hSame⟩ | ⟨_, hSome, -⟩
    · exact hSame
    · cases hCount.symm.trans hSome
  rw [hType] at hValue hMem
  -- Built-in primitives have their keys, so no type that is declared is one of them.
  have hDeclared : ∀ p ∈ Primitive.builtin, p.key ≠ element.type.canonical := by
    intro p hp hKey
    have hSame := h.eq_of_key hMem (h.mem_builtin hp) ((h.origin _ _ hMem).1.symm.trans hKey.symm)
    rw [hSame] at hEmitted
    cases hEmitted
  have hSizes := Host.sizes_resolveUnder _ f.shape 0 f.shape element hElement
  generalize f.shape = shape at hSizes
  cases hSizes with
  | pointer hPointer => exact absurd hValue hPointer.ne'
  | void => exact absurd rfl (hDeclared (.ofType (.ofPath ["()"])) (by decide))
  | @scalar scalar hScalar =>
    have hKey : (Primitive.ofType scalar.primitive).key = scalar.primitive.canonical := by
      cases scalar <;> rfl
    exact absurd hKey (hDeclared _ (mem_builtin_of_scalar hScalar))
  | @named name args _ hNamed =>
    obtain ⟨entry, hEntry, hStorage⟩ := Host.sizeOf_ok hExternals hNamed
    exact ⟨name, args, entry, rfl, hEntry, hSize.trans hStorage⟩

end Construction

namespace Export

open Construction

/-- Where a field is a value of a declared type, it takes up as much as the entry for its name. If
the key of the type is claimed for nothing else, the declaration takes up the same, unless the entry
is a union with a field that is wider than the union is said to be. -/
theorem size_slot_iff {library : Library} {config : Config} {e : Export}
    (h : build library config = .ok e) (hExternals : config.externals = []) {room : Nat}
    {desc : TypeDesc} {f : FieldDesc} {s : Session} {slot : Layout.Slot}
    (hSlot : (((Scope.withRoom ⟨library, config⟩ room).slot desc f).on s).1 = .ok slot)
    (hCount : f.count = none) (hValue : slot.type.indirection = 0) {d : Declaration}
    (hGet : e.registry.get? slot.type.canonical = some d) (hEmitted : d.isEmitted = true)
    (hClosed : d.record?.any Record.isOpenGeneric = false) :
    ∃ name args entry, f.shape = .named name args ∧ library.entry? name args = some entry ∧
      slot.size = entry.storage ∧
      ((∀ source, Setting.Claims ⟨library, config⟩ source slot.type.canonical →
          source = .entry entry) →
        (d.size? = some slot.size ↔ (entry.category = .union → ∀ slots,
          Setting.slots? ⟨library, config⟩ entry = some slots →
            ∀ wide ∈ slots, wide.size ≤ entry.size))) := by
  obtain ⟨-, session, hSession⟩ := exists_session h
  rw [hSession.registry, Taint.get?_wrapUnions, Option.map_eq_some_iff] at hGet
  obtain ⟨d, hGet, rfl⟩ := hGet
  have hMem := Registry.mem_of_get? hGet
  have hEmitted : d.isEmitted = true := by cases d <;> exact hEmitted
  obtain ⟨name, args, entry, hShape, hEntry, hSize⟩ := hSession.built.exists_entry hExternals
    (Scope.result_slot hSlot) hCount hValue hMem hEmitted
  refine ⟨name, args, entry, hShape, hEntry, hSize, fun hSole => ?_⟩
  rw [Taint.size?_wrapDeclaration, hSize]
  obtain ⟨hKey, hRegisters⟩ := hSession.built.origin _ _ hMem
  cases hRegisters.origin with
  | primitive p => cases hEmitted
  | placeholder hHolds =>
    have hOpen : (e.taint.wrapRecord session.registry _).isOpenGeneric = false := hClosed
    rw [Taint.isOpenGeneric_wrapRecord, isOpenGeneric_openRecord hHolds.generic] at hOpen
    cases hOpen
  | built hBuilds hDeclares =>
    rw [hKey] at hSole
    rcases hDeclares.claims hBuilds with ⟨hOwn, -, hClaims⟩ | ⟨u, hClaims⟩
    · cases hSole _ hClaims
      exact Setting.size?_declaration? hOwn
    · cases hSole _ hClaims

def holds (name : String) : FieldDesc := { name := "held", shape := .named name [], offset := 0 }

def inner : TypeDesc :=
  .ofFields "App.Inner" 8 [{ name := "x", shape := .scalar .int64, offset := 0 }]

def outer : TypeDesc := .ofFields "App.Outer" 8 [holds "App.Inner"]

/-- A struct of 8 bytes and another one that holds it. -/
def holding : Setting := ⟨.ofTypes [outer, inner], .forNamespace "App" ["app"]⟩

theorem claims_holding {source : Source} (h : holding.Claims source "crate::app::Inner") :
    source = .entry inner := by
  have hTypes : ∀ desc ∈ holding.library.types, desc.isOpenGeneric = false ∧
      (holding.slots? desc).map List.length = some 1 := by
    decide +kernel
  have hInner : ∀ desc ∈ holding.library.types,
      (holding.typeOf? desc).map TypeExpr.canonical = some "crate::app::Inner" → desc = inner := by
    decide +kernel
  obtain ⟨desc, hMem, rfl, hKey⟩ := h.of_single hTypes
  rw [hInner desc hMem hKey]

theorem size_slot_iff_holding :
    ∃ e, build holding.library holding.config = .ok e ∧ ∃ slot d,
      (((Scope.withRoom holding 2).slot outer (holds "App.Inner")).on {}).1 = .ok slot ∧
      (holds "App.Inner").count = none ∧ slot.type.indirection = 0 ∧
      e.registry.get? slot.type.canonical = some d ∧ d.isEmitted = true ∧
      d.record?.any Record.isOpenGeneric = false ∧ d.size? = some slot.size := by
  have hRun : ((build holding.library holding.config).toOption.bind fun e =>
      (((Scope.withRoom holding 2).slot outer (holds "App.Inner")).on {}).1.toOption.bind fun slot =>
        (e.registry.get? slot.type.canonical).map fun d =>
          (slot.type.indirection, slot.type.canonical, d.isEmitted,
            d.record?.any Record.isOpenGeneric)) =
        some (0, "crate::app::Inner", true, false) := by
    decide +kernel
  simp only [Option.bind_eq_some_iff, Option.map_eq_some_iff, Prod.mk.injEq] at hRun
  obtain ⟨e, hOk, slot, hSlot, d, hGet, hValue, hKey, hEmitted, hClosed⟩ := hRun
  have hOk := Script.ok_of_toOption hOk
  have hSlot := Script.ok_of_toOption hSlot
  obtain ⟨name, args, entry, hShape, hEntry, -, hSize⟩ :=
    size_slot_iff hOk rfl hSlot rfl hValue hGet hEmitted hClosed
  refine ⟨e, hOk, slot, d, hSlot, rfl, hValue, hGet, hEmitted, hClosed, ?_⟩
  cases hShape
  have hInner : holding.library.entry? "App.Inner" [] = some inner := by decide +kernel
  cases hInner.symm.trans hEntry
  exact (hSize fun source hClaims => claims_holding (hKey ▸ hClaims)).mpr nofun

/-- A union of 4 bytes with a field of 8, and a struct that holds the union. -/
def narrow : Setting := ⟨.ofTypes [
    { TypeDesc.ofFields "App.U" 4 [{ name := "X", shape := .scalar .int64, offset := 0 }] with
      category := .union },
    .ofFields "App.S" 8 [holds "App.U"]],
  .forNamespace "App" ["app"]⟩

theorem exists_size_slot_ne : (narrow.library.types.map fun t => (t.name, t.args)).Nodup ∧
    narrow.config.externals = [] ∧
    ∃ e, build narrow.library narrow.config = .ok e ∧
    ∃ desc ∈ narrow.library.types, ∃ f ∈ desc.fields, ∃ slot d,
      (((Scope.withRoom narrow 2).slot desc f).on {}).1 = .ok slot ∧
      f.count = none ∧ slot.type.indirection = 0 ∧
      e.registry.get? slot.type.canonical = some d ∧ d.isEmitted = true ∧
      d.record?.any Record.isOpenGeneric = false ∧ slot.size = 4 ∧ d.size? = some 8 := by
  have hRun : ((build narrow.library narrow.config).toOption.bind fun e =>
      (((Scope.withRoom narrow 2).slot (.ofFields "App.S" 8 [holds "App.U"])
        (holds "App.U")).on {}).1.toOption.bind fun slot =>
        (e.registry.get? slot.type.canonical).map fun d =>
          (slot.type.indirection, d.isEmitted, d.record?.any Record.isOpenGeneric, slot.size,
            d.size?)) =
        some (0, true, false, 4, some 8) := by
    decide +kernel
  simp only [Option.bind_eq_some_iff, Option.map_eq_some_iff, Prod.mk.injEq] at hRun
  obtain ⟨e, hOk, slot, hSlot, d, hGet, hRest⟩ := hRun
  refine ⟨by decide, rfl, e, Script.ok_of_toOption hOk, .ofFields "App.S" 8 [holds "App.U"],
    List.mem_cons_of_mem _ List.mem_cons_self, holds "App.U", List.mem_cons_self, slot, d,
    Script.ok_of_toOption hSlot, rfl, ?_⟩
  exact ⟨hRest.1, hGet, hRest.2⟩

end Export

end FixedLayout
