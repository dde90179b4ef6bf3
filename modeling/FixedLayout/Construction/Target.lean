import FixedLayout.Config
import FixedLayout.Metadata
import FixedLayout.TypeExpr

/-! Where the types of the library land in the generated crate. -/

namespace FixedLayout.Construction

/-- What a construction is about. -/
structure Setting where
  library : Library
  config : Config

/-- The place of a type in the generated crate. -/
structure Target where
  modules : List String
  ident : String
  /-- The type is declared there. Otherwise it is there already. -/
  exported : Bool
deriving Repr, DecidableEq

namespace Target

def type (t : Target) : TypeExpr := .inModule t.modules t.ident

/-- A type name without the beginning that its namespace drops. A name is not dropped as a
whole. -/
def stripped (stripped : Option String) (ident : String) : String :=
  match stripped with
  | some start =>
    match Text.after? start.toList ident.toList with
    | some rest => if rest.isEmpty then ident else String.ofList rest
    | none => ident
  | none => ident

/-- The target of a name, where a namespace is configured for it. The namespaces below it become
modules in snake case. -/
def ofName? (config : Config) (name : String) : Option Target := do
  let rule ← config.ruleFor? name
  let rest ← rule.rest? name
  let parts := (Text.splitAt '.' rest.toList).map String.ofList
  return {
    modules := rule.target ++ parts.dropLast.map Ident.snake
    ident := stripped rule.stripped (Ident.ofTypeName (parts.getLast?.getD ""))
    exported := rule.exported }

/-- The target of a closed instantiation, which has its arguments in its name. -/
def instantiate (t : Target) (args : List TypeExpr) : Target :=
  { t with ident := t.ident ++ String.join (TypeExpr.mangledArguments args) }

end Target

/-- The type becomes a declaration: its namespace is exported, and its layout is known. -/
def isCandidate (config : Config) (desc : TypeDesc) : Bool :=
  (config.ruleFor? desc.name).any (·.exported) && (desc.isEnum || desc.placement != .auto)

end FixedLayout.Construction
