import FixedLayout.Descriptor
import FixedLayout.Primitive

/-! Structs and unions with a fixed layout: their members, the functions bound to them, and the
code that declares them. -/

namespace FixedLayout

inductive Role where
  | field
  /-- Bytes that no field claims. -/
  | gap
  /-- A union of fields that share an offset. -/
  | union
  /-- A marker for a parameter of an open generic. -/
  | phantom
deriving Repr, DecidableEq

/-- A member of a struct or union, `size` bytes from `offset` on. -/
structure Member where
  name : String
  type : TypeExpr
  offset : Nat
  size : Nat
  role : Role
deriving Repr, DecidableEq

namespace Member

/-- Bytes as a type: one byte is no array. -/
def bytesType (size : Nat) : TypeExpr :=
  if size = 1 then .ofPath ["u8"] else (TypeExpr.ofPath ["u8"]).withExtent size

/-- Unclaimed bytes, named by their offset. -/
def gap (offset size : Nat) : Member :=
  ⟨"_gap_0x" ++ Text.hexLower offset, bytesType size, offset, size, .gap⟩

/-- The first offset after the member. -/
def stop (m : Member) : Nat := m.offset + m.size

def isPublic (m : Member) : Bool := m.role != .gap

end Member

inductive Derive where
  | copy
  | clone
  | nothing
deriving Repr, DecidableEq

/-- The attribute that derives the traits, if there are any. -/
def Derive.attribute? : Derive → Option String
  | copy => some "#[derive(Copy, Clone)]"
  | clone => some "#[derive(Clone)]"
  | nothing => none

/-- The form of a declaration: members in a row, members over each other, or bare bytes. -/
inductive Form where
  | struct
  | union
  | blob
deriving Repr, DecidableEq

/-- A struct or union of the generated code. -/
structure Record where
  type : TypeExpr
  size : Nat
  form : Form
  members : List Member := []
  functions : List Descriptor := []
  /-- Where the virtual table stands, if that is known. -/
  table : Option StaticAddress := none
deriving Repr, DecidableEq

namespace Record

def empty (type : TypeExpr) (size : Nat) (form : Form) : Record := { type := type.base, size, form }

def isUnion (r : Record) : Bool := r.form == .union

/-- A placeholder for an open generic: parameters, markers only, and no known size. -/
def isOpenGeneric (r : Record) : Bool :=
  r.type.arguments.any (!·.isEmpty) && r.members.all (·.role == .phantom) && r.size == 0

/-- What the record is known by. An open generic is known without its parameters. -/
def key (r : Record) : String :=
  if r.isOpenGeneric then r.type.erasedText else r.type.canonical

/-- Some function or the table itself calls for a cell with the address of the virtual table. -/
def hasTableCell (r : Record) : Bool := r.table.isSome || r.functions.any (·.isVirtual)

def hasManuallyDrop (r : Record) : Bool := r.members.any (·.type.isManuallyDrop)

/-- The traits of a record. A tainted one cannot be copied, and a union with a wrapped member
derives nothing. -/
def derive (r : Record) (tainted suppressed : Bool) : Derive :=
  if suppressed || (r.isUnion && r.hasManuallyDrop) then .nothing
  else if tainted then .clone
  else .copy

def sizeComment (r : Record) : String :=
  if r.isOpenGeneric then " /* Size=unknown (generic type with parameters) */"
  else " /* Size=0x" ++ Text.hexUpper r.size ++ " */"

/-- The line of a member, its offset as wide as the size of the record. -/
def memberLine (r : Record) (m : Member) : String :=
  "/* 0x" ++ Text.hexPadded (Text.hexUpper r.size).length m.offset ++ " */ "
    ++ (if m.isPublic then "pub " else "") ++ m.name ++ ": " ++ m.type.text ++ ","

def itemCode (r : Record) : Code :=
  let header := "pub " ++ (if r.isUnion then "union" else "struct") ++ " " ++ r.type.declaredName
  if r.form = .blob then
    [.line (header ++ "(pub [u8; 0x" ++ Text.hexUpper r.size ++ "]);" ++ r.sizeComment)]
  else if r.members.isEmpty then
    [.line (header ++ ";" ++ r.sizeComment)]
  else
    [.line (header ++ " \x7b" ++ r.sizeComment), .indent]
      ++ r.members.map (fun m => .line (r.memberLine m))
      ++ [.dedent, .line "\x7d"]

/-- The accessors of the functions. Blank lines stand between them, and before the first one too
if something precedes it. -/
def accessorsCode (r : Record) : Code :=
  if r.hasTableCell then
    tableAccessors r.type r.table ++ r.functions.flatMap fun d => .blank :: d.accessorCode
  else
    match r.functions with
    | [] => []
    | d :: ds => d.accessorCode ++ ds.flatMap fun d => .blank :: d.accessorCode

/-- The methods of the record, with the cell for its virtual table in front. -/
def methodsCode (r : Record) : Code :=
  if r.functions.isEmpty && !r.hasTableCell then []
  else
    (if r.hasTableCell then [.blank, .line (cellDeclaration (tableCell r.type))] else [])
      ++ [.blank, .block ("impl " ++ r.type.name) r.accessorsCode]

/-- The item, its methods and the descriptors of its functions. -/
def code (r : Record) (derive : Derive) : Code :=
  [.line "#[repr(C)]"]
    ++ derive.attribute?.toList.map .line
    ++ r.itemCode
    ++ r.methodsCode
    ++ r.functions.flatMap fun d => .blank :: d.code

end Record

end FixedLayout
