import FixedLayout.Config
import FixedLayout.ModuleTree
import FixedLayout.Registry
import FixedLayout.TypeExpr.Reader

/-! The state of a construction. Apart from the stack it only grows, and what was done before an
error stays. -/

namespace FixedLayout.Construction

/-- What has been built so far. -/
structure Session where
  registry : Registry := .empty
  root : Module := .root
  diagnostics : List Diagnostic := []
  /-- For the key of each closed instantiation, the name and the arguments that it stands for. -/
  instances : List (String × String × List TypeExpr) := []
  /-- The keys of the types that are being built, the innermost first. -/
  stack : List String := []
deriving Repr

/-- The key belongs to a declaration or to a type that is being built. -/
def Session.isPending (s : Session) (key : String) : Bool :=
  s.registry.contains key || s.stack.contains key

/-- A step that may fail and keeps the session as it left it. -/
abbrev Build := ExceptT ExportError (StateM Session)

def Build.on (step : Build α) (s : Session) : Except ExportError α × Session :=
  (ExceptT.run step).run s

/-- Runs a step with one more key on the stack, which is taken off again even if the step fails. -/
def building (key : String) (step : Build α) : Build α := ExceptT.mk do
  modify fun s => { s with stack := key :: s.stack }
  let result ← step.run
  modify fun s => { s with stack := s.stack.tail }
  return result

def report (diagnostics : List Diagnostic) : Build Unit :=
  modify fun s => { s with diagnostics := s.diagnostics ++ diagnostics }

/-- Claims the name of a declaration in its module. -/
def claimName (d : Declaration) : Build Unit := do
  let s ← get
  let (result, root) := s.root.add d.type.modulePath d.type.name d.key
  set { s with root }
  ofExcept result

def register (d : Declaration) : Build Unit := do
  let s ← get
  let registry ← ofExcept (s.registry.register d)
  set { s with registry }

/-- Claims the name of a declaration and registers it. -/
def place (d : Declaration) : Build Unit := do
  claimName d
  register d

/-- Registers a primitive unless its key is taken. -/
def registerPrimitive (p : Primitive) : Build Unit := do
  if (← get).registry.contains p.key then return ()
  else register (.primitive p)

/-- Claims the key of a closed instantiation. A key stands for one name with one list of
arguments. -/
def claimInstance (type : TypeExpr) (name : String) (args : List TypeExpr) : Build Unit := do
  let s ← get
  match s.instances.lookup type.canonical with
  | some claimed =>
    if claimed = (name, args) then return ()
    else throw (.duplicateRegistration ("::".intercalate type.modulePath) type.name)
  | none => set { s with instances := (type.canonical, name, args) :: s.instances }

/-- The primitive for a provided type. Arguments of its target do not count. -/
def externalPrimitive (external : External) (target : TypeExpr) : Primitive :=
  let primitive :=
    if target.arguments.isSome then Primitive.wrapper target else Primitive.ofType target
  if external.tainted then primitive.asTainted else primitive

/-- The built-in primitives and the types that are provided, each registered by `register`. -/
def populateWith [Monad m] [MonadExcept ExportError m] (register : Primitive → m Unit)
    (config : Config) : m Unit := do
  Primitive.builtin.forM register
  config.externals.forM fun external => do
    let target ← ofExcept (TypeExpr.parse external.target)
    register (externalPrimitive external target)

def populate (config : Config) : Build Unit := populateWith registerPrimitive config

end FixedLayout.Construction
