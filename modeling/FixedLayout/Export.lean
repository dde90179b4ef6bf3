import FixedLayout.Construction.Records
import FixedLayout.Taint
import FixedLayout.Wiring

/-! An export: the declarations of a library, built and tainted, and the code that declares them,
module by module and in the order of their names. -/

namespace FixedLayout

/-- A finished run. -/
structure Export where
  registry : Registry
  root : Module
  taint : Taint
  /-- The number of declarations that each pass over the registry tainted. -/
  passes : List Nat
  diagnostics : List Diagnostic
deriving Repr

namespace Export

/-- Builds every declaration of a library and spreads the taint. -/
def build (library : Library) (config : Config) : Except ExportError Export :=
  match config.fault? with
  | some fault => .error (.invalidConfig fault)
  | none =>
    match (Construction.buildAll ⟨library, config⟩).on {} with
    | (.error e, _) => .error e
    | (.ok _, s) =>
      let (registry, taint, passes) := Taint.propagate s.registry (.seeds s.registry)
      .ok ⟨registry, s.root, taint, passes, s.diagnostics⟩

/-- The lints that generated names do not keep to. -/
def allowLine : String :=
  "#[allow(non_camel_case_types, non_snake_case, non_upper_case_globals, dead_code)]"

/-- The code of the declaration under a key. Nothing is written for a primitive. -/
def declarationCode (registry : Registry) (taint : Taint) (config : Config) (key : String) :
    Code :=
  match registry.get? key with
  | some (.record r) => r.code (r.derive (taint.contains key) (config.suppressesDerive key))
  | some (.enumeration e) => e.code
  | some (.primitive _) | none => []

/-- Pieces of code with a blank line between each two. -/
def separated : List Code → Code
  | [] => []
  | piece :: pieces => piece ++ pieces.flatMap fun p => .blank :: p

mutual

/-- The code of one member of a module, or nothing for a module without declarations. `declare`
writes the declaration under a key. -/
def memberCode? (declare : String → Code) : ModuleTree → Option Code
  | .module path members =>
    if Members.areBare members then none
    else
      some [.block ("pub mod " ++ path.getLast?.getD "")
        (separated (membersCode declare members))]
  | .leaf key => some (declare key)

def membersCode (declare : String → Code) : List (String × ModuleTree) → List Code
  | [] => []
  | (_, member) :: rest =>
    (memberCode? declare member).toList ++ membersCode declare rest

end

/-- The code of a member of the root. Modules there allow for the generated names. -/
def rootMemberCode? (declare : String → Code) (member : ModuleTree) : Option Code :=
  (memberCode? declare member).map fun code =>
    match member with
    | .module .. => .line allowLine :: code
    | .leaf _ => code

/-- The records with a virtual table and all functions, in the order of the keys of their
owners. -/
def wiring (registry : Registry) : Wiring :=
  let records := registry.records.mergeSort fun a b => decide (a.key ≤ b.key)
  ⟨(records.filter (·.table.isSome)).map (·.type), records.flatMap (·.functions)⟩

/-- The first line and a blank one, for a configuration that names a revision. -/
def headerCode (config : Config) : Code :=
  match config.revision with
  | some revision => [.line ("// rev: " ++ revision), .blank]
  | none => []

def code (e : Export) (config : Config) : Code :=
  let declare := declarationCode e.registry e.taint config
  let members := e.root.members.filterMap fun m => rootMemberCode? declare m.2
  headerCode config
    ++ separated (members ++ [.line allowLine :: (wiring e.registry).code])

def text (e : Export) (config : Config) : String := (e.code config).render config.indentWidth

def registered (e : Export) : Nat := e.registry.size

def emitted (e : Export) : Nat := e.registry.declarations.countP (·.isEmitted)

end Export

end FixedLayout
