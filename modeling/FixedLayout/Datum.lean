/-! What a document says, whatever its notation: a tree of values with named or numbered parts.
Tables keep the order and the repetitions of the document. -/

namespace FixedLayout

inductive Datum where
  | null
  | bool (b : Bool)
  /-- A numeral without fraction and exponent. The sign of zero counts. -/
  | int (negative : Bool) (magnitude : Nat)
  | string (s : String)
  | list (items : List Datum)
  | table (fields : List (String × Datum))
  /-- A value of a kind that nothing asks for, such as a fraction or a date. -/
  | other
  /-- A value that cannot be read and may only stand where nobody reads it. -/
  | broken
deriving Repr, Inhabited

namespace Datum

def nat (n : Nat) : Datum := .int false n

def text (s : String) : Datum := .string s

def ofInt (i : Int) : Datum := .int (i < 0) i.natAbs

/-- The datum of a value, null for none. -/
def ofOption (f : α → Datum) : Option α → Datum
  | some a => f a
  | none => .null

mutual

/-- The datum with every list and table below `depth` levels of them made unreadable. -/
def limit (depth : Nat) : Datum → Datum
  | .list items =>
    match depth with
    | 0 => .broken
    | depth + 1 => .list (limitItems depth items)
  | .table fields =>
    match depth with
    | 0 => .broken
    | depth + 1 => .table (limitFields depth fields)
  | d => d

def limitItems (depth : Nat) : List Datum → List Datum
  | [] => []
  | d :: ds => limit depth d :: limitItems depth ds

def limitFields (depth : Nat) : List (String × Datum) → List (String × Datum)
  | [] => []
  | (name, d) :: fields => (name, limit depth d) :: limitFields depth fields

end

mutual

/-- The levels of lists and tables in a datum. -/
def depth : Datum → Nat
  | .list items => depthOfItems items + 1
  | .table fields => depthOfFields fields + 1
  | _ => 0

def depthOfItems : List Datum → Nat
  | [] => 0
  | d :: ds => max (depth d) (depthOfItems ds)

def depthOfFields : List (String × Datum) → Nat
  | [] => 0
  | (_, d) :: fields => max (depth d) (depthOfFields fields)

end

mutual

/-- Every part of the datum can be read. -/
def isSound : Datum → Bool
  | .broken => false
  | .list items => areSound items
  | .table fields => haveSound fields
  | _ => true

def areSound : List Datum → Bool
  | [] => true
  | d :: ds => isSound d && areSound ds

def haveSound : List (String × Datum) → Bool
  | [] => true
  | (_, d) :: fields => isSound d && haveSound fields

end

def bool? : Datum → Option Bool
  | .bool b => some b
  | _ => none

def string? : Datum → Option String
  | .string s => some s
  | _ => none

/-- A size or an offset: at most 64 bits, and not written with a sign. -/
def address? : Datum → Option Nat
  | .int false n => if n < 0x1_0000_0000_0000_0000 then some n else none
  | _ => none

/-- A signed number of 64 bits. Zero is not written with a sign. -/
def offset? : Datum → Option Int
  | .int false n => if n < 0x8000_0000_0000_0000 then some n else none
  | .int true n => if 0 < n ∧ n ≤ 0x8000_0000_0000_0000 then some (-n) else none
  | _ => none

/-- A signed number of 128 bits. -/
def wide? : Datum → Option Int
  | .int false n => if n < 0x8000_0000_0000_0000_0000_0000_0000_0000 then some n else none
  | .int true n => if n ≤ 0x8000_0000_0000_0000_0000_0000_0000_0000 then some (-n) else none
  | _ => none

/-- The items of a list, each read by `f`. -/
def listOf (f : Datum → Option α) : Datum → Option (List α)
  | .list items => items.mapM f
  | _ => none

/-- A value read by `f`, or none for null. -/
def optional (f : Datum → Option α) : Datum → Option (Option α)
  | .null => some none
  | d => (f d).map some

/-- A name out of a fixed choice: plain, or as the one field of a table without a value. -/
def choice? : Datum → Option String
  | .string s => some s
  | .table [(s, .null)] => some s
  | _ => none

/-- A name out of a fixed choice as part of a tagged record, where an empty table does for null. -/
def taggedChoice? : Datum → Option String
  | .table [(s, .table [])] => some s
  | d => d.choice?

/-- The values of a record by the names of its fields. -/
abbrev Fields := List (String × Datum)

/-- The fields of a record with the given names: those of a table, where none of the names may
stand twice, or the items of a list in the order of the names. With `lax`, items too many do not
count. Other names do not count either. -/
def fields (names : List String) (lax : Bool) : Datum → Option Fields
  | .table fields =>
    if names.all fun name => fields.countP (·.1 == name) ≤ 1 then some fields else none
  | .list items =>
    if lax || items.length ≤ names.length then some (names.zip items) else none
  | _ => none

/-- The tag of a record of one of several kinds and the record itself: the only field named `kind`
and the others, or the first item and those after it. Every part of the record must be readable. -/
def tagged : Datum → Option (Datum × Datum)
  | .table fields =>
    match fields.filter (·.1 == "kind") with
    | [(_, tag)] =>
      let content := Datum.table (fields.filter (·.1 != "kind"))
      if content.isSound then some (tag, content) else none
    | _ => none
  | .list (tag :: items) =>
    if (Datum.list items).isSound then some (tag, .list items) else none
  | _ => none

/-- A field that must be there, read by `f`. -/
def Fields.need (fields : Fields) (name : String) (f : Datum → Option α) : Option α :=
  (fields.lookup name).bind f

/-- A field read by `f`, or the default where it is missing. -/
def Fields.want (fields : Fields) (name : String) (default : α) (f : Datum → Option α) :
    Option α :=
  match fields.lookup name with
  | some d => f d
  | none => some default

end Datum

end FixedLayout
