import FixedLayout.Construction.Session
import FixedLayout.Construction.Target
import FixedLayout.Primitive

/-! Shapes become types of the generated crate. Every type that a shape names is declared first,
unless it is declared already or just being built, which ends the recursion on types that refer to
themselves. -/

namespace FixedLayout.Construction

def pointerSize : Nat := 8

/-- A type of the generated crate with its size. -/
structure Resolved where
  type : TypeExpr
  size : Nat
deriving Repr, DecidableEq

/-- One thing that a construction does to its session. -/
inductive Action where
  /-- Registers a primitive unless its key is taken. -/
  | primitive (p : Primitive)
  /-- Claims the key of a closed instantiation. -/
  | claim (type : TypeExpr) (name : String) (args : List TypeExpr)
  /-- Declares a described type, if it is to be declared and is not pending. -/
  | ensure (desc : TypeDesc) (type : TypeExpr)
  /-- Declares the placeholder for an open generic, unless it is pending. -/
  | placeholder (type : TypeExpr)
  | report (diagnostics : List Diagnostic)
  /-- Declares something whose name has to be free. -/
  | place (d : Declaration)
deriving DecidableEq

/-- Where shapes are resolved: the setting, and how actions are performed there. -/
structure Host (m : Type → Type) where
  setting : Setting
  perform : Action → m Unit

abbrev Scope := Host Build

/-- The type of an open generic with names for its parameters. -/
def openType (desc : TypeDesc) (target : Target) : TypeExpr :=
  target.type.withArguments
    ((List.range desc.params.length).map fun i => .ofPath ["T" ++ toString (i + 1)])

/-- The placeholder for an open generic: a marker for each parameter, and no size. -/
def openRecord (type : TypeExpr) : Record :=
  { Record.empty type 0 .struct with
    members := ((type.arguments.getD []).zipIdx 1).map fun (param, i) =>
      ⟨"__phantom_t" ++ toString i, Primitive.phantomOf param, 0, 0, .phantom⟩ }

/-- Performs an action on a session, where `build` declares a described type. -/
def performOn (config : Config) (build : TypeDesc → TypeExpr → Build Unit) : Action → Build Unit
  | .primitive p => registerPrimitive p
  | .claim type name args => claimInstance type name args
  | .ensure desc type => do
    if isCandidate config desc && !(← get).isPending type.canonical then build desc type
    else return ()
  | .placeholder type => do
    if !(← get).isPending type.erasedText then place (.record (openRecord type))
    else return ()
  | .report diagnostics => report diagnostics
  | .place d => place d

namespace Host

variable {m : Type → Type}

def library (h : Host m) : Library := h.setting.library

def config (h : Host m) : Config := h.setting.config

def sizeOf (h : Host m) (context name : String) (args : List Shape) : Except ExportError Nat :=
  match (h.config.external? name).bind (·.size) with
  | some size => .ok size
  | none =>
    let desc := if args.isEmpty then h.library.definition? name
      else (h.library.instantiation? name args).or (h.library.definition? name)
    match desc with
    | none => .error (.unknownType name context)
    | some desc =>
      if desc.isEnum then .ok desc.width.size
      else if !args.isEmpty && desc.args.isEmpty && desc.size == 0 then
        .error (.unknownType (name ++ " instantiation") context)
      else .ok desc.size

variable [Monad m] [MonadExcept ExportError m]

/-- The type for a name whose namespace is exported. -/
def referExported (h : Host m) (context name : String) (target : Target) (args : List Shape)
    (argTypes : m (List TypeExpr)) : m TypeExpr := do
  if args.isEmpty then
    match h.library.definition? name with
    | none => throw (.unknownType name context)
    | some desc => do
      h.perform (.ensure desc target.type)
      return target.type
  else
    let types ← argTypes
    match h.library.instantiation? name args with
    | some desc => do
      let type := (target.instantiate types).type
      h.perform (.claim type name types)
      h.perform (.ensure desc type)
      return type
    | none =>
      match h.library.definition? name with
      | none => throw (.unknownType name context)
      | some desc => do
        if desc.params.length ≠ args.length then
          throw (.unsupportedShape context
            (name ++ " with " ++ toString args.length ++ " arguments"))
        if isCandidate h.config desc then
          h.perform (.placeholder (openType desc target))
        return target.type.withArguments types

/-- The type for a name that the runtime crate has under its own target. -/
def referForeign (h : Host m) (target : Target) (args : List Shape)
    (argTypes : m (List TypeExpr)) : m TypeExpr := do
  let type ←
    if args.isEmpty then pure target.type
    else do pure (target.type.withArguments (← argTypes))
  h.perform (.primitive (.ofType type.erased))
  return type

/-- The type for a name with arguments. `argTypes` resolves the arguments. -/
def refer (h : Host m) (context name : String) (args : List Shape)
    (argTypes : m (List TypeExpr)) : m TypeExpr :=
  match h.config.external? name with
  | some external => ofExcept (TypeExpr.parse external.target)
  | none =>
    match Target.ofName? h.config name with
    | none => throw (.unsupportedShape context name)
    | some target =>
      if target.exported then h.referExported context name target args argTypes
      else h.referForeign target args argTypes

/-- The type of `depth` pointers to a type that is itself a pointer to the one argument. -/
def resolveWrapper (context name : String) (depth : Nat) (args : List Shape)
    (argTypes : m (List TypeExpr)) : m Resolved := do
  if args.length ≠ 1 then throw (.unsupportedShape context name)
  match ← argTypes with
  | [pointee] =>
    if pointee.extent.isSome then throw (.unsupportedShape context name)
    else return ⟨pointee.withIndirection (pointee.indirection + depth + 1), pointerSize⟩
  | _ => throw (.unsupportedShape context name)

/-- The type of `depth` pointers to a named type. A pointer may point to something unknown. -/
def resolveNamed (h : Host m) (context name : String) (depth : Nat) (args : List Shape)
    (argTypes : m (List TypeExpr)) : m Resolved := do
  if h.config.isPointerWrapper name then resolveWrapper context name depth args argTypes
  else if (h.config.external? name).isNone && (Target.ofName? h.config name).isNone then
    if 0 < depth then return ⟨Primitive.opaquePointer depth, pointerSize⟩
    else throw (.unsupportedShape context name)
  else
    let type ← h.refer context name args argTypes
    let size ← if 0 < depth then pure pointerSize else ofExcept (h.sizeOf context name args)
    return ⟨type.withIndirection depth, size⟩

mutual

/-- The type of `depth` pointers to a shape, the inner part of the shape `whole`. -/
def resolveUnder (h : Host m) (context : String) (whole : Shape) (depth : Nat) :
    Shape → m Resolved
  | .pointer pointee => resolveUnder h context whole (depth + 1) pointee
  | .void => return ⟨Primitive.void depth, if 0 < depth then pointerSize else 0⟩
  | .scalar scalar =>
    match scalar.typeExpr? depth with
    | some type => return ⟨type, if 0 < depth then pointerSize else scalar.size⟩
    | none => throw (.unsupportedShape context whole.text)
  | .named name args => h.resolveNamed context name depth args (resolveAll h context args)
  | .param _ => throw (.unsupportedShape context whole.text)

def resolveAll (h : Host m) (context : String) : List Shape → m (List TypeExpr)
  | [] => return []
  | shape :: shapes => do
    let resolved ← resolveUnder h context shape 0 shape
    let types ← resolveAll h context shapes
    return resolved.type :: types

end

def resolve (h : Host m) (context : String) (shape : Shape) : m Resolved :=
  resolveUnder h context shape 0 shape

end Host

end FixedLayout.Construction
