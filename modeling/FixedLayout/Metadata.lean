import FixedLayout.Shape

/-! Descriptions of the types of a library, as an inspector of that library writes them down. Names
and shapes are still those of the library. -/

namespace FixedLayout

inductive Category where
  | struct
  | union
  | enum
deriving Repr, DecidableEq, Inhabited

inductive Placement where
  | explicit
  | sequential
  | auto
deriving Repr, DecidableEq, Inhabited

/-- A field of a type. For an inline array the shape is that of an element. -/
structure FieldDesc where
  name : String
  shape : Shape
  offset : Nat
  /-- The number of elements of an inline array. -/
  count : Option Nat := none
  deprecated : Bool := false
  isStatic : Bool := false
  /-- A constant of the compiler. -/
  isLiteral : Bool := false
  /-- Made up by the compiler. -/
  synthetic : Bool := false
deriving Repr, DecidableEq

/-- The field takes up room in an instance. -/
def FieldDesc.hasStorage (f : FieldDesc) : Bool :=
  !(f.deprecated || f.isStatic || f.isLiteral || f.synthetic)

structure ConstantDesc where
  name : String
  value : Int
deriving Repr, DecidableEq

/-- Where a static address or a virtual table stands, its pattern still unread. -/
structure AddressDesc where
  signature : String
  offset : Int := 0
  isPointer : Bool := false
deriving Repr, DecidableEq

/-- How a native function is found. -/
inductive BindingDesc where
  | member (signature : String)
  | virtual (index : Nat)
  | address (a : AddressDesc)
deriving Repr, DecidableEq

structure ParamDesc where
  name : String
  shape : Shape
deriving Repr, DecidableEq

/-- A function of a type. Without a binding it is no native function. -/
structure FunctionDesc where
  name : String
  params : List ParamDesc := []
  returns : Shape := .void
  isStatic : Bool := false
  deprecated : Bool := false
  binding : Option BindingDesc := none
deriving Repr, DecidableEq

/-- A type of the library. -/
structure TypeDesc where
  name : String
  category : Category
  placement : Placement := .explicit
  size : Nat := 0
  /-- The parameters of an open generic definition. -/
  params : List String := []
  /-- The arguments of a closed instantiation. -/
  args : List Shape := []
  fields : List FieldDesc := []
  /-- The width of an enumeration. -/
  underlying : Option Scalar := none
  /-- The constants of an enumeration, where they could be listed. -/
  constants : Option (List ConstantDesc) := none
  functions : List FunctionDesc := []
  table : Option AddressDesc := none
deriving Repr, DecidableEq

namespace TypeDesc

/-- A struct with one field per description. -/
def ofFields (name : String) (size : Nat) (fields : List FieldDesc) : TypeDesc :=
  { name, category := .struct, size, fields }

/-- An enumeration of the given width. -/
def ofConstants (name : String) (underlying : Scalar) (constants : List ConstantDesc) : TypeDesc :=
  { name, category := .enum, size := underlying.size, underlying := some underlying,
    constants := some constants }

def isEnum (t : TypeDesc) : Bool := t.category == .enum

/-- A definition with parameters that no arguments are given for. -/
def isOpenGeneric (t : TypeDesc) : Bool := !t.params.isEmpty && t.args.isEmpty

/-- The width of an enumeration. Where none is described it is that of a plain integer. -/
def width (t : TypeDesc) : Scalar := t.underlying.getD .int32

end TypeDesc

namespace Library

/-- Adds a position to those of a name. -/
def addPosition (name : String) (i : Nat) : List (String × List Nat) → List (String × List Nat)
  | [] => [(name, [i])]
  | (n, is) :: rest =>
    if n = name then (n, is ++ [i]) :: rest else (n, is) :: addPosition name i rest

/-- The positions of each name among `types`, whose first stands at `i`. -/
def indexFrom (i : Nat) (index : List (String × List Nat)) :
    List TypeDesc → List (String × List Nat)
  | [] => index
  | t :: ts => indexFrom (i + 1) (addPosition t.name i index) ts

end Library

/-- The described types of a library in the order of the document, with the positions of each
name. -/
structure Library where
  types : List TypeDesc
  index : List (String × List Nat)
  indexed : index = Library.indexFrom 0 [] types
deriving Repr

namespace Library

def ofTypes (types : List TypeDesc) : Library := ⟨types, indexFrom 0 [] types, rfl⟩

def size (l : Library) : Nat := l.types.length

/-- The entries of a name, in document order. -/
def entries (l : Library) (name : String) : List TypeDesc :=
  ((l.index.lookup name).getD []).filterMap (l.types[·]?)

/-- The plain type or open generic of a name. -/
def definition? (l : Library) (name : String) : Option TypeDesc :=
  (l.entries name).find? (·.args.isEmpty)

/-- The closed instantiation of a name with exactly these arguments. -/
def instantiation? (l : Library) (name : String) (args : List Shape) : Option TypeDesc :=
  (l.entries name).find? (·.args == args)

end Library

end FixedLayout
