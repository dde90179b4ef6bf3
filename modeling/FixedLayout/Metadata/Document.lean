import FixedLayout.Json.Reader
import FixedLayout.Metadata

/-! Metadata documents: how the described types are written down. A record may have more fields
than the ones named here. Reading what was written gives the description back. -/

namespace FixedLayout

open Datum (Fields)

def Scalar.ofDatum (d : Datum) : Option Scalar := d.choice?.bind Scalar.ofKeyword?

def Scalar.toDatum (s : Scalar) : Datum := .text s.keyword

namespace Shape

/-- The kinds of shapes. Inside another shape a kind may also be given by its position here. -/
def kinds : List String := ["void", "scalar", "pointer", "named", "param"]

/-- The kind that a tag names. -/
def kind? (inner : Bool) : Datum → Option String
  | .string s => some s
  | .int false n => if inner then kinds[n]? else none
  | _ => none

/-- The shape that a record writes, whose own parts are shapes read by `part`. `inner` says that it
is part of another shape. -/
def ofRecord (inner : Bool) (part : Datum → Option Shape) (d : Datum) : Option Shape := do
  let (tag, content) ← d.tagged
  match ← kind? inner tag with
  | "void" =>
    let _ ← content.fields [] false
    return .void
  | "scalar" =>
    let fields ← content.fields ["scalar"] false
    return .scalar (← fields.need "scalar" fun d => d.taggedChoice?.bind Scalar.ofKeyword?)
  | "pointer" =>
    let fields ← content.fields ["pointee"] false
    return .pointer (← fields.need "pointee" part)
  | "named" =>
    let fields ← content.fields ["name", "args"] false
    let name ← fields.need "name" Datum.string?
    return .named name (← fields.want "args" [] (Datum.listOf part))
  | "param" =>
    let fields ← content.fields ["name"] false
    return .param (← fields.need "name" Datum.string?)
  | _ => none

/-- The shape that a datum of at most `depth` levels writes. One of no levels is no record. -/
def ofDatumWithin (inner : Bool) : Nat → Datum → Option Shape
  | 0, _ => none
  | depth + 1, d => ofRecord inner (ofDatumWithin true depth) d

def ofDatum (d : Datum) : Option Shape := ofDatumWithin false d.depth d

mutual

def toDatum : Shape → Datum
  | .void => .table [("kind", .text "void")]
  | .scalar s => .table [("kind", .text "scalar"), ("scalar", s.toDatum)]
  | .pointer pointee => .table [("kind", .text "pointer"), ("pointee", toDatum pointee)]
  | .named name args =>
    .table [("kind", .text "named"), ("name", .text name), ("args", .list (toData args))]
  | .param name => .table [("kind", .text "param"), ("name", .text name)]

def toData : List Shape → List Datum
  | [] => []
  | shape :: shapes => toDatum shape :: toData shapes

end

end Shape

namespace Category

def ofDatum (d : Datum) : Option Category := do
  match ← d.choice? with
  | "struct" => return .struct
  | "union" => return .union
  | "enum" => return .enum
  | _ => none

def toDatum : Category → Datum
  | .struct => .text "struct"
  | .union => .text "union"
  | .enum => .text "enum"

end Category

namespace Placement

def ofDatum (d : Datum) : Option Placement := do
  match ← d.choice? with
  | "explicit" => return .explicit
  | "sequential" => return .sequential
  | "auto" => return .auto
  | _ => none

def toDatum : Placement → Datum
  | .explicit => .text "explicit"
  | .sequential => .text "sequential"
  | .auto => .text "auto"

end Placement

namespace FieldDesc

def ofDatum (d : Datum) : Option FieldDesc := do
  let fields ← d.fields
    ["name", "shape", "offset", "fixed_length", "deprecated", "is_static", "is_literal",
      "synthetic"] false
  return {
    name := ← fields.need "name" Datum.string?
    shape := ← fields.need "shape" Shape.ofDatum
    offset := ← fields.need "offset" Datum.address?
    count := ← fields.want "fixed_length" none (Datum.optional Datum.address?)
    deprecated := ← fields.want "deprecated" false Datum.bool?
    isStatic := ← fields.want "is_static" false Datum.bool?
    isLiteral := ← fields.want "is_literal" false Datum.bool?
    synthetic := ← fields.want "synthetic" false Datum.bool? }

def toDatum (f : FieldDesc) : Datum :=
  .table
    [("name", .text f.name), ("shape", f.shape.toDatum), ("offset", .nat f.offset),
      ("fixed_length", .ofOption .nat f.count), ("deprecated", .bool f.deprecated),
      ("is_static", .bool f.isStatic), ("is_literal", .bool f.isLiteral),
      ("synthetic", .bool f.synthetic)]

end FieldDesc

namespace ConstantDesc

def ofDatum (d : Datum) : Option ConstantDesc := do
  let fields ← d.fields ["name", "value"] false
  return {
    name := ← fields.need "name" Datum.string?
    value := ← fields.need "value" Datum.wide? }

end ConstantDesc

namespace AddressDesc

def ofDatum (d : Datum) : Option AddressDesc := do
  let fields ← d.fields ["signature", "offset", "is_pointer"] false
  return {
    signature := ← fields.need "signature" Datum.string?
    offset := ← fields.want "offset" 0 Datum.offset?
    isPointer := ← fields.want "is_pointer" false Datum.bool? }

def toFields (a : AddressDesc) : List (String × Datum) :=
  [("signature", .text a.signature), ("offset", .ofInt a.offset), ("is_pointer", .bool a.isPointer)]

end AddressDesc

namespace BindingDesc

def ofDatum (d : Datum) : Option BindingDesc := do
  let (tag, content) ← d.tagged
  match ← tag.string? with
  | "member_function" =>
    let fields ← content.fields ["signature"] false
    return .member (← fields.need "signature" Datum.string?)
  | "virtual_function" =>
    let fields ← content.fields ["index"] false
    return .virtual (← fields.need "index" Datum.address?)
  | "static_address" => return .address (← AddressDesc.ofDatum content)
  | _ => none

def toDatum : BindingDesc → Datum
  | .member signature =>
    .table [("kind", .text "member_function"), ("signature", .text signature)]
  | .virtual index => .table [("kind", .text "virtual_function"), ("index", .nat index)]
  | .address a => .table (("kind", .text "static_address") :: a.toFields)

end BindingDesc

namespace ParamDesc

def ofDatum (d : Datum) : Option ParamDesc := do
  let fields ← d.fields ["name", "shape"] false
  return {
    name := ← fields.need "name" Datum.string?
    shape := ← fields.need "shape" Shape.ofDatum }

def toDatum (p : ParamDesc) : Datum :=
  .table [("name", .text p.name), ("shape", p.shape.toDatum)]

end ParamDesc

namespace FunctionDesc

def ofDatum (d : Datum) : Option FunctionDesc := do
  let fields ← d.fields ["name", "params", "returns", "is_static", "deprecated", "binding"] false
  return {
    name := ← fields.need "name" Datum.string?
    params := ← fields.want "params" [] (Datum.listOf ParamDesc.ofDatum)
    returns := ← fields.want "returns" .void Shape.ofDatum
    isStatic := ← fields.want "is_static" false Datum.bool?
    deprecated := ← fields.want "deprecated" false Datum.bool?
    binding := ← fields.want "binding" none (Datum.optional BindingDesc.ofDatum) }

def toDatum (f : FunctionDesc) : Datum :=
  .table
    [("name", .text f.name), ("params", .list (f.params.map ParamDesc.toDatum)),
      ("returns", f.returns.toDatum), ("is_static", .bool f.isStatic),
      ("deprecated", .bool f.deprecated), ("binding", .ofOption BindingDesc.toDatum f.binding)]

end FunctionDesc

namespace TypeDesc

def ofDatum (d : Datum) : Option TypeDesc := do
  let fields ← d.fields
    ["name", "kind", "layout", "size", "generic_params", "args", "fields", "underlying",
      "variants", "functions", "vtable"] false
  return {
    name := ← fields.need "name" Datum.string?
    category := ← fields.need "kind" Category.ofDatum
    placement := ← fields.want "layout" .explicit Placement.ofDatum
    size := ← fields.want "size" 0 Datum.address?
    params := ← fields.want "generic_params" [] (Datum.listOf Datum.string?)
    args := ← fields.want "args" [] (Datum.listOf Shape.ofDatum)
    fields := ← fields.want "fields" [] (Datum.listOf FieldDesc.ofDatum)
    underlying := ← fields.want "underlying" none (Datum.optional Scalar.ofDatum)
    constants :=
      ← fields.want "variants" none (Datum.optional (Datum.listOf ConstantDesc.ofDatum))
    functions := ← fields.want "functions" [] (Datum.listOf FunctionDesc.ofDatum)
    table := ← fields.want "vtable" none (Datum.optional AddressDesc.ofDatum) }

end TypeDesc

namespace Library

def ofDatum (d : Datum) : Option Library := do
  let fields ← d.fields ["types"] false
  return ofTypes (← fields.need "types" (Datum.listOf TypeDesc.ofDatum))

def ofDocument (text : String) : Option Library := (Json.document text).bind ofDatum

end Library

end FixedLayout
