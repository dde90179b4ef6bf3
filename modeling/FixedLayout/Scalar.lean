import FixedLayout.TypeExpr

/-! The scalar types of the described library: their sizes, the integers that they hold, and the
types that stand for them in the generated code. -/

namespace FixedLayout

inductive Scalar where
  | bool | char | sbyte | byte | int16 | uint16 | int32 | uint32 | int64 | uint64
  | single | double | intptr | uintptr
deriving Repr, DecidableEq, Inhabited

namespace Scalar

def all : List Scalar :=
  [bool, char, sbyte, byte, int16, uint16, int32, uint32, int64, uint64, single, double, intptr,
    uintptr]

def label : Scalar → String
  | bool => "Bool"
  | char => "Char"
  | sbyte => "SByte"
  | byte => "Byte"
  | int16 => "Int16"
  | uint16 => "UInt16"
  | int32 => "Int32"
  | uint32 => "UInt32"
  | int64 => "Int64"
  | uint64 => "UInt64"
  | single => "Single"
  | double => "Double"
  | intptr => "IntPtr"
  | uintptr => "UIntPtr"

def keyword : Scalar → String
  | bool => "bool"
  | char => "char"
  | sbyte => "sbyte"
  | byte => "byte"
  | int16 => "int16"
  | uint16 => "uint16"
  | int32 => "int32"
  | uint32 => "uint32"
  | int64 => "int64"
  | uint64 => "uint64"
  | single => "single"
  | double => "double"
  | intptr => "intptr"
  | uintptr => "uintptr"

def ofKeyword? (s : String) : Option Scalar := all.find? (·.keyword == s)

/-- Bytes of storage. A truth value takes one. -/
def size : Scalar → Nat
  | bool | sbyte | byte => 1
  | char | int16 | uint16 => 2
  | int32 | uint32 | single => 4
  | int64 | uint64 | double | intptr | uintptr => 8

def isInteger : Scalar → Bool
  | bool | single | double => false
  | _ => true

/-- The primitive that an enumeration of this width is represented by, for integers. -/
def reprName? : Scalar → Option String
  | sbyte => some "i8"
  | byte => some "u8"
  | int16 => some "i16"
  | uint16 | char => some "u16"
  | int32 => some "i32"
  | uint32 => some "u32"
  | int64 => some "i64"
  | uint64 => some "u64"
  | intptr => some "isize"
  | uintptr => some "usize"
  | bool | single | double => none

/-- The least and the greatest value, for integers. -/
def range? : Scalar → Option (Int × Int)
  | sbyte => some (-0x80, 0x7F)
  | byte => some (0, 0xFF)
  | int16 => some (-0x8000, 0x7FFF)
  | uint16 | char => some (0, 0xFFFF)
  | int32 => some (-0x8000_0000, 0x7FFF_FFFF)
  | uint32 => some (0, 0xFFFF_FFFF)
  | int64 | intptr => some (-0x8000_0000_0000_0000, 0x7FFF_FFFF_FFFF_FFFF)
  | uint64 | uintptr => some (0, 0xFFFF_FFFF_FFFF_FFFF)
  | bool | single | double => none

/-- The primitive for a value of the scalar. Integers of pointer width are pointers themselves. -/
def primitive : Scalar → TypeExpr
  | bool => .ofPath ["bool"]
  | char | uint16 => .ofPath ["u16"]
  | sbyte => .ofPath ["i8"]
  | byte => .ofPath ["u8"]
  | int16 => .ofPath ["i16"]
  | int32 => .ofPath ["i32"]
  | uint32 => .ofPath ["u32"]
  | int64 => .ofPath ["i64"]
  | uint64 => .ofPath ["u64"]
  | single => .ofPath ["f32"]
  | double => .ofPath ["f64"]
  | intptr | uintptr => (TypeExpr.ofPath ["usize"]).pointerTo

/-- The deepest chain of pointers that has a known form, where there is one. -/
def pointerLimit? : Scalar → Option Nat
  | sbyte | byte | bool => some 2
  | char => none
  | _ => some 1

/-- The type of `depth` pointers to the scalar, up to its limit. -/
def typeExpr? (s : Scalar) (depth : Nat) : Option TypeExpr :=
  if s.pointerLimit?.all (depth ≤ ·) then
    some (s.primitive.withIndirection (s.primitive.indirection + depth))
  else none

theorem typeExpr?_eq_some_iff {s : Scalar} {depth : Nat} {t : TypeExpr} :
    s.typeExpr? depth = some t ↔ s.pointerLimit?.all (depth ≤ ·) = true ∧
      t = s.primitive.withIndirection (s.primitive.indirection + depth) := by
  rw [typeExpr?, Option.ite_none_right_eq_some, Option.some.injEq, @eq_comm _ t]

end Scalar

end FixedLayout
