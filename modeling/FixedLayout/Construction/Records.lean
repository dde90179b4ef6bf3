import FixedLayout.Construction.Scope
import FixedLayout.Layout.Plan

/-! Descriptions of structs, unions and enumerations become declarations. What their fields and
functions mention is declared first. -/

namespace FixedLayout.Construction

def addressOf (owner : String) (a : AddressDesc) : Except ExportError StaticAddress := do
  return ⟨← BytePattern.parse owner a.signature, a.offset, a.isPointer⟩

def bindingOf (owner : String) : BindingDesc → Except ExportError Binding
  | .member signature => do return .pattern (← BytePattern.parse owner signature)
  | .virtual index => return .slot index
  | .address a => do return .address (← addressOf owner a)

/-- The type and the size of a field whose element is resolved, as long as all its bytes can be
addressed. The bound leaves room for the least union that a shared offset may need. -/
def slotOf (context : String) (f : FieldDesc) (element : Resolved) :
    Except ExportError Layout.Slot := do
  let (type, size) ← match f.count with
    | none => Except.ok (element.type, element.size)
    | some count =>
      if element.size * count ≤ Layout.maxAddress then
        .ok (element.type.withExtent count, element.size * count)
      else .error (.invalidMetadata context (.array element.size count))
  if f.offset + max size Layout.minUnionSize ≤ Layout.maxAddress then
    return ⟨f.name, type, f.offset, size⟩
  else .error (.invalidMetadata context (.reach f.offset size))

namespace Host

variable {m : Type → Type} [Monad m] [MonadExcept ExportError m]

def slot (h : Host m) (desc : TypeDesc) (f : FieldDesc) : m Layout.Slot := do
  let context := desc.name ++ "." ++ f.name
  let element ← h.resolve context f.shape
  ofExcept (slotOf context f element)

/-- The descriptor of a bound function, where `overload` counts the earlier ones of its name. -/
def descriptor (h : Host m) (desc : TypeDesc) (owner : TypeExpr) (f : FunctionDesc)
    (binding : BindingDesc) (overload : Nat) : m Descriptor := do
  let context := desc.name ++ "." ++ f.name
  let binding ← ofExcept (bindingOf context binding)
  let params ← f.params.mapM fun p => do
    let resolved ← h.resolve context p.shape
    return { name := p.name, type := resolved.type : Param }
  let returns ← h.resolve context f.returns
  ofExcept (Descriptor.make owner f.name overload binding params returns.type f.isStatic)

/-- The descriptors of the bound functions that are not deprecated. `earlier` holds the names of
those before them. -/
def descriptors (h : Host m) (desc : TypeDesc) (owner : TypeExpr) (earlier : List String) :
    List FunctionDesc → m (List Descriptor)
  | [] => return []
  | f :: fs =>
    match f.binding, f.deprecated with
    | some binding, false => do
      let d ← h.descriptor desc owner f binding (earlier.count f.name)
      let ds ← descriptors h desc owner (f.name :: earlier) fs
      return d :: ds
    | _, _ => descriptors h desc owner earlier fs

/-- The record for some slots, without functions. The unions that it needs are declared. A type
without slots is bare bytes. -/
def layOut (h : Host m) (desc : TypeDesc) (type : TypeExpr) (slots : List Layout.Slot) :
    m Record := do
  if slots.isEmpty && 0 < desc.size then return Record.empty type desc.size .blob
  else if desc.category = .union then return Layout.unionOf type slots desc.size
  else
    let plan := Layout.reconstruct h.config type desc.size slots
    h.perform (.report plan.diagnostics)
    plan.unions.forM fun union => h.perform (.place (.record union))
    return { Record.empty type desc.size .struct with members := plan.members }

def buildRecord (h : Host m) (desc : TypeDesc) (type : TypeExpr) : m Unit := do
  let slots ← (Layout.storageFields h.config desc).mapM (h.slot desc)
  let record ← h.layOut desc type slots
  let functions ← h.descriptors desc type [] desc.functions
  let table ← ofExcept (desc.table.mapM (addressOf desc.name))
  h.perform (.place (.record { record with functions, table }))

/-- Declares an enumeration, with a diagnostic where it is malformed. -/
def buildEnumeration (h : Host m) (desc : TypeDesc) (type : TypeExpr) : m Unit := do
  let e := Enumeration.ofDesc type desc
  h.perform (.report e.diagnostic?.toList)
  h.perform (.place (.enumeration e))

def buildType (h : Host m) (desc : TypeDesc) (type : TypeExpr) : m Unit :=
  if desc.isEnum then h.buildEnumeration desc type else h.buildRecord desc type

/-- Ensures one description. There is no type for what does not become a declaration. -/
def ensureDesc (h : Host m) (desc : TypeDesc) : m (Option TypeExpr) := do
  if !isCandidate h.config desc then return none
  else if desc.isOpenGeneric then
    match Target.ofName? h.config desc.name with
    | some target => do
      h.perform (.placeholder (openType desc target))
      return some (openType desc target)
    | none => throw (.unsupportedShape desc.name desc.name)
  else
    let type ← h.refer desc.name desc.name desc.args (h.resolveAll desc.name desc.args)
    return some type

/-- Ensures every description of the library and counts those that become declarations. -/
def ensureAll (h : Host m) : m Nat := do
  let types ← h.library.types.mapM h.ensureDesc
  return types.countP Option.isSome

def ensureNamed (h : Host m) (name : String) : m (Option TypeExpr) :=
  match h.library.definition? name with
  | some desc => h.ensureDesc desc
  | none => throw (.unknownType name "export root")

end Host

namespace Scope

/-- The scope with room for `room` more types on the stack. Every type on the stack is an entry of
the library of its own, so a scope without room has nothing left to build. -/
def withRoom (setting : Setting) : Nat → Scope
  | 0 => ⟨setting, performOn setting.config fun _ _ => return ()⟩
  | room + 1 =>
    ⟨setting, performOn setting.config fun desc type =>
      building type.canonical ((withRoom setting room).buildType desc type)⟩

/-- The scope with room for all types of the library. -/
def top (setting : Setting) : Scope := withRoom setting setting.library.size

end Scope

/-- Populates a session and ensures every description of the library. -/
def buildAll (setting : Setting) : Build Nat := do
  populate setting.config
  (Scope.top setting).ensureAll

end FixedLayout.Construction
