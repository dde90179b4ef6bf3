import FixedLayout.BytePattern
import FixedLayout.Code
import FixedLayout.TypeExpr

/-! Descriptors of native functions. Each becomes a unit struct with a process-wide address cell:
zero until the address is resolved, and written once. Its call reads the cell and goes through a
function pointer of the declared form. -/

namespace FixedLayout

/-- How the address of a function is found. -/
inductive Binding where
  | pattern (p : BytePattern)
  /-- A position in the virtual table of the owner. -/
  | slot (index : Nat)
  | address (a : StaticAddress)
deriving Repr, DecidableEq

structure Param where
  name : String
  type : TypeExpr
deriving Repr, DecidableEq

/-- A native function bound to its owner. -/
structure Descriptor where
  owner : TypeExpr
  name : String
  structName : String
  /-- The method of the owner that answers the descriptor. -/
  accessor : String
  binding : Binding
  params : List Param
  returns : TypeExpr
  isStatic : Bool
deriving Repr, DecidableEq

def cellType : String := "std::sync::atomic::AtomicUsize"

def cellDeclaration (cell : String) : String :=
  "static " ++ cell ++ ": " ++ cellType ++ " = " ++ cellType ++ "::new(0);"

/-- The methods that read and write an address cell. Those of a descriptor take a receiver, those
of an owner do not. -/
def cellAccessors (cell getter setter : String) (byRef : Bool) : Code :=
  [.block ("pub fn " ++ getter ++ "(" ++ (if byRef then "&self" else "") ++ ") -> Option<usize>")
      [.block ("match " ++ cell ++ ".load(std::sync::atomic::Ordering::Acquire)")
        [.line "0 => None,", .line "address => Some(address),"]],
    .blank,
    .line "/// Store the resolved address. Only the first non-zero write wins.",
    .block ("pub fn " ++ setter ++ "(" ++ (if byRef then "&self, " else "")
        ++ "address: usize) -> bool")
      [.line ("address != 0 && " ++ cell),
        .indent,
        .line ".compare_exchange(",
        .indent,
        .line "0,",
        .line "address,",
        .line "std::sync::atomic::Ordering::AcqRel,",
        .line "std::sync::atomic::Ordering::Acquire,",
        .dedent,
        .line ")",
        .line ".is_ok()",
        .dedent]]

namespace Descriptor

/-- The mark that tells the overloads of one name apart. The first has none. -/
def overloadMark (overload : Nat) : String :=
  if overload = 0 then "" else "_" ++ toString overload

/-- The identifier of a parameter, which leaves the name of the receiver free. -/
def paramName (name : String) : String :=
  let ident := Ident.snake name
  if ident = "this" then "this_" else ident

/-- The descriptor of a function, where `overload` counts the earlier ones of its name. A static
address takes no parameters and answers a pointer. -/
def make (owner : TypeExpr) (name : String) (overload : Nat) (binding : Binding)
    (params : List Param) (returns : TypeExpr) (isStatic : Bool) :
    Except ExportError Descriptor :=
  let owner := owner.base
  let fits := match binding with
    | .address _ => params.isEmpty && returns.isPointer
    | _ => true
  if fits then
    .ok
      { owner, name, binding, returns, isStatic
        structName := owner.name ++ "_Fn_" ++ name ++ overloadMark overload
        accessor := Ident.escape (Ident.dropRaw (Ident.snake name) ++ overloadMark overload)
        params := params.map fun p => { p with name := paramName p.name } }
  else
    .error (.unsupportedShape (owner.canonical ++ "::" ++ name)
      ("static address returning " ++ returns.text))

/-- Bound to a position in the virtual table. -/
def isVirtual (d : Descriptor) : Bool :=
  match d.binding with
  | .slot _ => true
  | _ => false

def type (d : Descriptor) : TypeExpr := .inModule d.owner.modulePath d.structName

def cell (d : Descriptor) : String := Ident.ofStatic d.structName

/-- Names and types of the parameters of the native function. An instance function takes its owner
first. -/
def nativeParams (d : Descriptor) : List (String × String) :=
  let receiver := match d.binding with
    | .address _ => []
    | _ => if d.isStatic then [] else [("this", d.owner.pointerTo.text)]
  receiver ++ d.params.map fun p => (p.name, p.type.text)

/-- The result of the native function as a header has it. Nothing is written for no result. -/
def returnText (d : Descriptor) : String :=
  if d.returns.name = "()" ∧ d.returns.isPointer = false then "" else " -> " ++ d.returns.text

def bindingLine (d : Descriptor) : String :=
  match d.binding with
  | .pattern p =>
    "pub const SIGNATURE: " ++ BytePattern.typeName ++ " = " ++ p.render ++ ";"
  | .slot index => "pub const VIRTUAL_INDEX: usize = " ++ toString index ++ ";"
  | .address a =>
    "pub const STATIC_ADDRESS: " ++ StaticAddress.typeName ++ " = " ++ a.render ++ ";"

/-- The method that takes the address from a virtual table, for virtual functions. -/
def tableResolver (d : Descriptor) : Code :=
  if d.isVirtual then
    [.blank,
      .line "/// # Safety",
      .line "/// `vtable` must be the address of the owner's virtual table.",
      .block "pub unsafe fn resolve_from_vtable(&self, vtable: usize) -> bool"
        [.line "let slot = (vtable as *const usize).add(Self::VIRTUAL_INDEX);",
          .line "self.set_address(slot.read())"]]
  else []

/-- The last lines of the call: the address itself, or a call through it. -/
def callLines (d : Descriptor) : Code :=
  match d.binding with
  | .address _ => [.line ("address as " ++ d.returns.text)]
  | _ =>
    [.line ("let function: unsafe extern \"C\" fn("
        ++ ", ".intercalate (d.nativeParams.map (·.2)) ++ ")" ++ d.returnText
        ++ " = std::mem::transmute(address);"),
      .line ("function(" ++ ", ".intercalate (d.nativeParams.map (·.1)) ++ ")")]

def callCode (d : Descriptor) : Code :=
  let declared := d.nativeParams.map fun p => ", " ++ p.1 ++ ": " ++ p.2
  [.line "/// # Safety",
    .line "/// The resolved address must match the declared native signature.",
    .block ("pub unsafe fn call(&self" ++ String.join declared ++ ")" ++ d.returnText)
      ([.line "let address = match self.address() \x7b",
        .indent,
        .line "Some(address) => address,",
        .line ("None => panic!(\"\x7b\x7d called before its address was resolved\", "
          ++ "Self::NAME),"),
        .dedent,
        .line "\x7d;"] ++ d.callLines)]

def code (d : Descriptor) : Code :=
  [.line (cellDeclaration d.cell),
    .blank,
    .line "#[derive(Copy, Clone)]",
    .line ("pub struct " ++ d.structName ++ ";"),
    .blank,
    .block ("impl " ++ d.structName)
      ([.line ("pub const NAME: &'static str = \"" ++ d.owner.name ++ "." ++ d.name ++ "\";"),
        .line d.bindingLine,
        .blank]
        ++ cellAccessors d.cell "address" "set_address" true
        ++ d.tableResolver
        ++ [.blank]
        ++ d.callCode)]

/-- The method of the owner that answers the descriptor. -/
def accessorCode (d : Descriptor) : Code :=
  [.block ("pub fn " ++ d.accessor ++ "() -> " ++ d.structName) [.line d.structName]]

end Descriptor

/-- The cell for the address of an owner's virtual table. -/
def tableCell (owner : TypeExpr) : String := Ident.ofStatic (owner.name ++ "_VTABLE")

/-- The methods of an owner for its virtual table, with the place of the table where it is known. -/
def tableAccessors (owner : TypeExpr) (table : Option StaticAddress) : Code :=
  (match table with
    | some a =>
      [.line ("pub const VTABLE_SIGNATURE: " ++ StaticAddress.typeName ++ " = " ++ a.render
          ++ ";"),
        .blank]
    | none => [])
    ++ cellAccessors (tableCell owner) "vtable_address" "set_vtable_address" false

end FixedLayout
