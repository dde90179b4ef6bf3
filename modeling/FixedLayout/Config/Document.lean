import FixedLayout.Config
import FixedLayout.Toml.Printer
import FixedLayout.Toml.Reader

/-! Configuration documents: how a configuration is written down. Every field of the configuration
has a default. With `lax`, a record that is written as a list may have items too many. -/

namespace FixedLayout

namespace NamespaceRule

def ofDatum (lax : Bool) (d : Datum) : Option NamespaceRule := do
  let fields ← d.fields ["source", "target", "export", "strip_type_prefix"] lax
  return {
    source := ← fields.need "source" Datum.string?
    target := ← fields.want "target" [] (Datum.listOf Datum.string?)
    exported := ← fields.want "export" true Datum.bool?
    stripped := ← fields.want "strip_type_prefix" none (Datum.optional Datum.string?) }

def toDatum (r : NamespaceRule) : Datum :=
  .table
    [("source", .text r.source), ("target", .list (r.target.map .text)),
      ("export", .bool r.exported), ("strip_type_prefix", .ofOption .text r.stripped)]

end NamespaceRule

namespace Exclusion

def ofDatum (lax : Bool) (d : Datum) : Option Exclusion := do
  let fields ← d.fields ["owner", "field"] lax
  return {
    owner := ← fields.need "owner" Datum.string?
    field := ← fields.need "field" Datum.string? }

def toDatum (e : Exclusion) : Datum := .table [("owner", .text e.owner), ("field", .text e.field)]

end Exclusion

namespace External

def ofDatum (lax : Bool) (d : Datum) : Option External := do
  let fields ← d.fields ["source", "target", "copy_tainted", "size"] lax
  return {
    source := ← fields.need "source" Datum.string?
    target := ← fields.need "target" Datum.string?
    tainted := ← fields.want "copy_tainted" false Datum.bool?
    size := ← fields.want "size" none (Datum.optional Datum.address?) }

def toDatum (e : External) : Datum :=
  .table
    [("source", .text e.source), ("target", .text e.target), ("copy_tainted", .bool e.tainted),
      ("size", .ofOption .nat e.size)]

end External

namespace Config

def ofDatum (lax : Bool) (d : Datum) : Option Config := do
  let fields ← d.fields
    ["revision", "indent_width", "namespaces", "pointer_wrappers", "vtable_markers",
      "field_exclusions", "no_derive", "external_types"] lax
  let default : Config := {}
  let texts := Datum.listOf Datum.string?
  return {
    revision := ← fields.want "revision" default.revision (Datum.optional Datum.string?)
    indentWidth := ← fields.want "indent_width" default.indentWidth Datum.address?
    namespaces :=
      ← fields.want "namespaces" default.namespaces (Datum.listOf (NamespaceRule.ofDatum lax))
    pointerWrappers := ← fields.want "pointer_wrappers" default.pointerWrappers texts
    tableMarkers := ← fields.want "vtable_markers" default.tableMarkers texts
    exclusions :=
      ← fields.want "field_exclusions" default.exclusions (Datum.listOf (Exclusion.ofDatum lax))
    noDerive := ← fields.want "no_derive" default.noDerive texts
    externals :=
      ← fields.want "external_types" default.externals (Datum.listOf (External.ofDatum lax)) }

/-- Every field of a configuration, null for what is not there. -/
def toFields (c : Config) : List (String × Datum) :=
  [("revision", .ofOption .text c.revision), ("indent_width", .nat c.indentWidth),
    ("namespaces", .list (c.namespaces.map NamespaceRule.toDatum)),
    ("pointer_wrappers", .list (c.pointerWrappers.map .text)),
    ("vtable_markers", .list (c.tableMarkers.map .text)),
    ("field_exclusions", .list (c.exclusions.map Exclusion.toDatum)),
    ("no_derive", .list (c.noDerive.map .text)),
    ("external_types", .list (c.externals.map External.toDatum))]

inductive DocumentFault where
  | malformed
  | invalid (fault : ConfigFault)
deriving Repr, DecidableEq

/-- The configuration of a TOML document, if it has no fault. -/
def ofDocument (text : String) : Except DocumentFault Config :=
  match (Toml.parse text).bind (ofDatum true) with
  | none => .error .malformed
  | some config =>
    match config.fault? with
    | some fault => .error (.invalid fault)
    | none => .ok config

def toDocument (c : Config) : String := Toml.printDocument c.toFields

end Config

end FixedLayout
