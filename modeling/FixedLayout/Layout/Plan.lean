import FixedLayout.Config
import FixedLayout.Layout.Gaps
import FixedLayout.Metadata

/-! The members of a struct, put back in order from fields with known offsets. Fields that share an
offset become one union, and gaps close what is left, so that every byte belongs to one member. -/

namespace FixedLayout.Layout

/-- The least size of a union of fields that share an offset. -/
def minUnionSize : Nat := 8

def maxAddress : Nat := 0xFFFF_FFFF_FFFF_FFFF

/-- The sum of two addresses, or the greatest one where they go beyond it. -/
def clampedAdd (a b : Nat) : Nat := min (a + b) maxAddress

/-- A field with its type and its size in bytes. -/
structure Slot where
  name : String
  type : TypeExpr
  offset : Nat
  size : Nat
deriving Repr, DecidableEq

def Slot.member (s : Slot) (offset : Nat) : Member :=
  ⟨Ident.snake s.name, s.type, offset, s.size, .field⟩

/-- The fields that take up room and are not left out. -/
def storageFields (config : Config) (desc : TypeDesc) : List FieldDesc :=
  desc.fields.filter fun f => f.hasStorage && !config.isExcluded desc.name f.name

/-- The widest of the slots comes first; equally wide ones keep their order. -/
def widestFirst (slots : List Slot) : List Slot :=
  slots.mergeSort fun a b => decide (b.size ≤ a.size)

/-- The slots over each other in a union of at least `minSize` bytes. Bytes beyond the widest slot
are a gap. -/
def unionOf (type : TypeExpr) (slots : List Slot) (minSize : Nat) : Record :=
  let ordered := widestFirst slots
  let widest := (ordered.head?.map Slot.size).getD 0
  let size := max widest minSize
  { Record.empty type size .union with
    members := ordered.map (·.member 0) ++ if widest < size then [.gap 0 size] else [] }

/-- The members of a struct, the unions among them and what there is to report. -/
structure Plan where
  members : List Member := []
  /-- Unions made up for shared offsets, in the order of the members. -/
  unions : List Record := []
  diagnostics : List Diagnostic := []
deriving Repr, DecidableEq

/-- The slots by offset; slots that share one keep their order. -/
def byOffset (slots : List Slot) : List Slot :=
  slots.mergeSort fun a b => decide (a.offset ≤ b.offset)

/-- The slots of each offset, in the order of the offsets. -/
def groups (slots : List Slot) : List (List Slot) :=
  (byOffset slots).splitBy fun a b => a.offset == b.offset

/-- The slots of a shared offset that count. Where there are others, a pointer to the virtual table
is not among them. -/
def contenders (config : Config) (first : Slot) (others : List Slot) : List Slot :=
  if others.isEmpty then [first]
  else
    let kept := (first :: others).filter fun s => !config.isTableMarker s.name
    if kept.isEmpty then [first] else kept

/-- The type of the `n`-th union of an owner, counted from zero. -/
def unionType (owner : TypeExpr) (n : Nat) : TypeExpr :=
  .inModule owner.modulePath (owner.name ++ "_Union" ++ if n = 0 then "" else "_" ++ toString n)

/-- The member for the slots at one offset, with the union that it needs unless there is only one
slot. `n` counts the unions so far. -/
def place (owner : TypeExpr) (n offset : Nat) : List Slot → Member × List Record
  | [slot] => (slot.member offset, [])
  | slots =>
    let type := unionType owner n
    let union := unionOf type slots minUnionSize
    (⟨"_union_0x" ++ Text.hexLower offset, type, offset, union.size, .union⟩, [union])

/-- Lays groups of slots from `cursor` on and fills up to `size`. A group that starts before the
cursor is left out with all that follow it. `n` counts the unions so far. -/
def layGroups (config : Config) (owner : TypeExpr) (size : Nat) (cursor n : Nat) :
    List (List Slot) → Plan
  | [] => { members := fillGaps cursor size }
  | [] :: rest => layGroups config owner size cursor n rest
  | (first :: others) :: rest =>
    if first.offset < cursor then
      { members := fillGaps cursor size
        diagnostics := [.layoutOverrun owner.canonical first.name cursor first.offset] }
    else
      let (member, unions) := place owner n first.offset (contenders config first others)
      let plan := layGroups config owner size (clampedAdd first.offset member.size)
        (n + unions.length) rest
      { plan with
        members := fillGaps cursor first.offset ++ member :: plan.members
        unions := unions ++ plan.unions }

/-- The plan of a struct of `size` bytes with the given slots. -/
def reconstruct (config : Config) (owner : TypeExpr) (size : Nat) (slots : List Slot) : Plan :=
  layGroups config owner size 0 0 (groups slots)

end FixedLayout.Layout
