import FixedLayout.Code
import FixedLayout.Error
import FixedLayout.Metadata

/-! Enumerations. A value has one variant; later constants of the same value become aliases of it.
Constants that make no enumeration leave an empty body and a diagnostic behind. -/

namespace FixedLayout

/-- A constant that takes a value first. -/
structure Variant where
  name : String
  value : Int
deriving Repr, DecidableEq

/-- A constant whose value the variant `target` has taken. -/
structure Alias where
  name : String
  target : String
deriving Repr, DecidableEq

/-- Why constants make no enumeration. -/
inductive EnumFault where
  | notInteger (width : Scalar)
  | unlisted
  | repeatedName (name : String)
  | outOfRange (value : Int) (name : String) (width : Scalar)
deriving Repr, DecidableEq

def EnumFault.reason : EnumFault → String
  | notInteger width => "non-integer underlying type " ++ width.label
  | unlisted => "variants could not be enumerated"
  | repeatedName name => "duplicate variant name " ++ name
  | outOfRange value name width =>
    "value " ++ toString value ++ " of " ++ name ++ " does not fit " ++ width.label

structure Variants where
  variants : List Variant := []
  aliases : List Alias := []
deriving Repr, DecidableEq

namespace Variants

/-- Adds a constant at the end: an alias where its value is taken, else a variant. -/
def add (vs : Variants) (c : ConstantDesc) : Variants :=
  match vs.variants.find? (·.value == c.value) with
  | some v => { vs with aliases := vs.aliases ++ [⟨Ident.escape c.name, v.name⟩] }
  | none => { vs with variants := vs.variants ++ [⟨Ident.escape c.name, c.value⟩] }

/-- Adds constants in order, each with a name of its own and a value between `lo` and `hi`. `seen`
holds the names so far. -/
def addAll (width : Scalar) (lo hi : Int) (seen : List String) (vs : Variants) :
    List ConstantDesc → Except EnumFault Variants
  | [] => .ok vs
  | c :: cs =>
    if seen.contains c.name then .error (.repeatedName c.name)
    else if c.value < lo ∨ hi < c.value then .error (.outOfRange c.value c.name width)
    else addAll width lo hi (c.name :: seen) (vs.add c) cs

def ofConstants (width : Scalar) (constants : Option (List ConstantDesc)) :
    Except EnumFault Variants :=
  match width.range?, constants with
  | none, _ => .error (.notInteger width)
  | some _, none => .error .unlisted
  | some (lo, hi), some cs => addAll width lo hi [] {} cs

end Variants

/-- Outcomes are compared by their kind and what they hold. -/
instance decEqOutcome {ε α : Type} [DecidableEq ε] [DecidableEq α] : DecidableEq (Except ε α)
  | .ok a, .ok b => if h : a = b then isTrue (by rw [h]) else isFalse (by simpa using h)
  | .error a, .error b => if h : a = b then isTrue (by rw [h]) else isFalse (by simpa using h)
  | .ok _, .error _ => isFalse (by simp)
  | .error _, .ok _ => isFalse (by simp)

/-- An enumeration of the generated code, with its variants or what they failed on. -/
structure Enumeration where
  type : TypeExpr
  width : Scalar
  body : Except EnumFault Variants
deriving Repr, DecidableEq

namespace Enumeration

def ofDesc (type : TypeExpr) (desc : TypeDesc) : Enumeration :=
  ⟨type, desc.width, Variants.ofConstants desc.width desc.constants⟩

def key (e : Enumeration) : String := e.type.canonical

def size (e : Enumeration) : Nat := e.width.size

def variants (e : Enumeration) : List Variant :=
  match e.body with
  | .ok vs => vs.variants
  | .error _ => []

def aliases (e : Enumeration) : List Alias :=
  match e.body with
  | .ok vs => vs.aliases
  | .error _ => []

def isMalformed (e : Enumeration) : Bool :=
  match e.body with
  | .ok _ => false
  | .error _ => true

def diagnostic? (e : Enumeration) : Option Diagnostic :=
  match e.body with
  | .ok _ => none
  | .error fault => some (.malformedEnum e.key fault.reason)

def aliasCode (name : String) (aliases : List Alias) : Code :=
  if aliases.isEmpty then []
  else
    [.blank,
      .line "#[allow(non_upper_case_globals)]",
      .block ("impl " ++ name) (aliases.map fun a =>
        .line ("pub const " ++ a.name ++ ": " ++ name ++ " = " ++ name ++ "::" ++ a.target ++ ";"))]

/-- The item and, after it, its aliases. -/
def code (e : Enumeration) : Code :=
  let name := e.type.name
  .line ("#[repr(" ++ e.width.reprName?.getD "C" ++ ")]") ::
    match e.body with
    | .error fault =>
      [.block ("pub enum " ++ name)
        [.line ("// enum metadata unavailable: " ++ fault.reason)]]
    | .ok vs =>
      [.line "#[derive(Copy, Clone, Debug)]",
        .block ("pub enum " ++ name) (vs.variants.map fun v =>
          .line (v.name ++ " = " ++ toString v.value ++ ","))]
        ++ aliasCode name vs.aliases

end Enumeration

end FixedLayout
