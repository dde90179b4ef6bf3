import FixedLayout.Enumeration
import FixedLayout.Record

/-! Declarations and the registry that knows each by its key. -/

namespace FixedLayout

/-- A type that a run knows. -/
inductive Declaration where
  | record (r : Record)
  | enumeration (e : Enumeration)
  | primitive (p : Primitive)
deriving Repr, DecidableEq

namespace Declaration

def type : Declaration → TypeExpr
  | record r => r.type
  | enumeration e => e.type
  | primitive p => p.type

def key : Declaration → String
  | record r => r.key
  | enumeration e => e.key
  | primitive p => p.key

def record? : Declaration → Option Record
  | record r => some r
  | _ => none

/-- The declaration is written to the output. -/
def isEmitted : Declaration → Bool
  | primitive _ => false
  | _ => true

end Declaration

/-- The declarations of a run in the order of registration, each under the key that it was
registered with. -/
structure Registry where
  entries : List (String × Declaration)
deriving Repr, DecidableEq

namespace Registry

def empty : Registry := ⟨[]⟩

def size (r : Registry) : Nat := r.entries.length

def declarations (r : Registry) : List Declaration := r.entries.map (·.2)

def get? (r : Registry) (key : String) : Option Declaration := r.entries.lookup key

def contains (r : Registry) (key : String) : Bool := (r.get? key).isSome

/-- Adds a declaration under its key, which must be free. -/
def register (r : Registry) (d : Declaration) : Except ExportError Registry :=
  if r.contains d.key then
    .error (.duplicateRegistration ("::".intercalate d.type.modulePath) d.key)
  else .ok ⟨r.entries ++ [(d.key, d)]⟩

/-- The key that a type stands for: its full name, or else the one with its arguments erased. -/
def resolve? (r : Registry) (t : TypeExpr) : Option String :=
  if r.contains t.canonical then some t.canonical
  else if r.contains t.erasedText then some t.erasedText
  else none

/-- Changes the declaration under a key and leaves the key as it is. -/
def modify (r : Registry) (key : String) (f : Declaration → Declaration) : Registry :=
  ⟨r.entries.map fun e => if e.1 = key then (e.1, f e.2) else e⟩

/-- The structs and unions in the order of registration. -/
def records (r : Registry) : List Record := r.declarations.filterMap Declaration.record?

end Registry

end FixedLayout
