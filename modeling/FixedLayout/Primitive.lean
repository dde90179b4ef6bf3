import FixedLayout.TypeExpr

/-! Types that the generated code mentions and does not declare: the primitives of the output
language, its opaque pointers and wrappers, and the containers of the runtime crate. -/

namespace FixedLayout

/-- A type that is declared elsewhere. A tainted one cannot be copied. -/
structure Primitive where
  type : TypeExpr
  tainted : Bool
deriving Repr, DecidableEq

namespace Primitive

/-- A primitive, known without decoration. -/
def ofType (type : TypeExpr) : Primitive := ⟨type.base, false⟩

/-- A generic wrapper, known with an empty argument list. -/
def wrapper (type : TypeExpr) : Primitive := ofType (type.withArguments [])

def asTainted (p : Primitive) : Primitive := { p with tainted := true }

def key (p : Primitive) : String := p.type.canonical

def untyped : TypeExpr := .ofPath [TypeExpr.stdRoot, "ffi", "c_void"]

/-- The path of the marker that mentions a type without storing it. -/
def phantomPath : TypeExpr := .ofPath [TypeExpr.stdRoot, "marker", "PhantomData"]

def phantomOf (param : TypeExpr) : TypeExpr := phantomPath.withArguments [param]

/-- No value, or `depth` pointers to untyped memory. -/
def void (depth : Nat) : TypeExpr :=
  if depth = 0 then .ofPath ["()"] else untyped.withIndirection depth

/-- A pointer to something unknown, at least one level deep. -/
def opaquePointer (depth : Nat) : TypeExpr := untyped.withIndirection (max depth 1)

/-- The module of the runtime crate that holds the containers. -/
def containerModule : String := "cpp_std"

/-- Containers that own memory. -/
def containers : List String := ["Map", "Deque", "Vector", "Set"]

/-- The names that need no path. -/
def plainNames : List String :=
  ["()", "bool", "i8", "u8", "i16", "u16", "i32", "u32", "i64", "u64", "f32", "f64", "usize"]

/-- The primitives that every run starts with. The containers are tainted. -/
def builtin : List Primitive :=
  plainNames.map (fun name => ofType (.ofPath [name]))
    ++ [ofType untyped, wrapper phantomPath, wrapper (.ofPath TypeExpr.manuallyDropPath)]
    ++ containers.map fun name =>
      (wrapper (.ofPath [TypeExpr.crateRoot, containerModule, name])).asTainted

end Primitive

end FixedLayout
