import FixedLayout.Error
import FixedLayout.Text.Affix

/-! What an export is configured with: where the namespaces of the library land, which types are
provided elsewhere, and which fields and types are treated apart. -/

namespace FixedLayout

/-- Where a namespace lands. -/
structure NamespaceRule where
  /-- The dotted namespace in the library. -/
  source : String
  /-- The module that takes its place; nothing for the root. -/
  target : List String := []
  /-- Types are declared. Otherwise the runtime crate has them, and they are only mentioned. -/
  exported : Bool := true
  /-- A beginning that type names lose. -/
  stripped : Option String := none
deriving Repr, DecidableEq

/-- The name below the namespace, for names in it. -/
def NamespaceRule.rest? (rule : NamespaceRule) (name : String) : Option String :=
  (Text.after? (rule.source.toList ++ ['.']) name.toList).map String.ofList

structure Exclusion where
  owner : String
  field : String
deriving Repr, DecidableEq

/-- A type of the library that the runtime crate provides. -/
structure External where
  source : String
  /-- The text of the type that takes its place. -/
  target : String
  /-- It cannot be copied. -/
  tainted : Bool := false
  /-- Its size, where the library does not describe it. -/
  size : Option Nat := none
deriving Repr, DecidableEq

/-- A configuration. The defaults fit the library that the tool was made for. -/
structure Config where
  /-- Written on the first line. -/
  revision : Option String := none
  /-- Blanks for each level of the generated code. -/
  indentWidth : Nat := 4
  namespaces : List NamespaceRule :=
    [{ source := "FFXIVClientStructs.FFXIV", target := ["ffxiv"] },
      { source := "FFXIVClientStructs.Havok", target := ["havok"] },
      { source := "FFXIVClientStructs.STD", target := ["cpp_std"], exported := false,
        stripped := some "Std" },
      { source := "FFXIVClientStructs.Interop", exported := false }]
  /-- Generic types that are pointers to their argument. -/
  pointerWrappers : List String := ["FFXIVClientStructs.Interop.Pointer`1"]
  /-- Names of fields that hold a virtual table, in any case. -/
  tableMarkers : List String := ["vtbl", "vtable"]
  exclusions : List Exclusion :=
    [⟨"FFXIVClientStructs.FFXIV.Client.Graphics.Scene.Human", "EquipSlotData"⟩]
  /-- Keys of declarations that derive nothing. -/
  noDerive : List String :=
    ["crate::ffxiv::client::ui::misc::ItemOrderModule_Union",
      "crate::ffxiv::client::ui::misc::ItemOrderModule",
      "crate::ffxiv::client::system::resource::ResourceGraph_CategoryContainer",
      "crate::ffxiv::client::system::resource::ResourceGraph",
      "crate::ffxiv::component::gui::AtkStage",
      "crate::ffxiv::component::gui::AtkValue"]
  externals : List External := []
deriving Repr, DecidableEq

namespace Config

/-- One exported namespace and nothing else apart. -/
def forNamespace (source : String) (target : List String) : Config :=
  { namespaces := [{ source, target }], pointerWrappers := [], exclusions := [], noDerive := [] }

/-- The first fault of the namespaces, where `seen` holds the sources before them. -/
def namespaceFault? (seen : List String) : List NamespaceRule → Option ConfigFault
  | [] => none
  | rule :: rules =>
    if rule.source.isEmpty then some (.emptySource seen.length)
    else if seen.contains rule.source then some (.repeatedSource rule.source)
    else namespaceFault? (seen ++ [rule.source]) rules

def fault? (config : Config) : Option ConfigFault :=
  if config.namespaces.isEmpty then some .noNamespaces
  else if config.indentWidth = 0 then some .zeroIndent
  else match namespaceFault? [] config.namespaces with
    | some fault => some fault
    | none =>
      if config.externals.any fun e => e.source.isEmpty || e.target.isEmpty then
        some .emptyExternal
      else none

/-- The more specific of two rules. The later one wins a tie. -/
def moreSpecific (best : Option NamespaceRule) (rule : NamespaceRule) : Option NamespaceRule :=
  match best with
  | some other =>
    if other.source.utf8ByteSize ≤ rule.source.utf8ByteSize then some rule else some other
  | none => some rule

def ruleFor? (config : Config) (name : String) : Option NamespaceRule :=
  (config.namespaces.filter fun rule => (rule.rest? name).isSome).foldl moreSpecific none

def isPointerWrapper (config : Config) (name : String) : Bool :=
  config.pointerWrappers.contains name

def isTableMarker (config : Config) (field : String) : Bool :=
  config.tableMarkers.any fun marker => Text.foldCase marker == Text.foldCase field

def isExcluded (config : Config) (owner field : String) : Bool :=
  config.exclusions.contains ⟨owner, field⟩

def suppressesDerive (config : Config) (key : String) : Bool := config.noDerive.contains key

/-- The provided type for a name. The first one counts. -/
def external? (config : Config) (name : String) : Option External :=
  config.externals.find? (·.source == name)

end Config

end FixedLayout
