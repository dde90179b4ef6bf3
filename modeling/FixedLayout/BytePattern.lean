import FixedLayout.Error
import FixedLayout.Text.Blank

/-! Byte patterns that locate native code: bytes to match, with wildcards between them. -/

namespace FixedLayout

/-- The cells of a pattern in order. A wildcard has no byte. -/
structure BytePattern where
  cells : List (Option UInt8)
deriving Repr, DecidableEq, Inhabited

namespace BytePattern

/-- A byte of two hexadecimal digits. A plus sign in the first place counts as nothing. -/
def byte? (high low : Char) : Option UInt8 := do
  let h ← if high == '+' then some 0 else Text.digitValue? high
  let l ← Text.digitValue? low
  return UInt8.ofNat (16 * h + l)

/-- The cell that a word writes: one or two question marks for a wildcard, two digits for a byte. -/
def cell? : List Char → Option (Option UInt8)
  | ['?'] => some none
  | [high, low] => if high == '?' && low == '?' then some none else (byte? high low).map some
  | _ => none

/-- The pattern of a text, which names at least one byte. Only the owner is told of a failure. -/
def parse (owner text : String) : Except ExportError BytePattern :=
  match (Text.words text.toList).mapM cell? with
  | some cells =>
    if cells.any Option.isSome then .ok ⟨cells⟩ else .error (.invalidSignature owner text)
  | none => .error (.invalidSignature owner text)

/-- The byte of each cell, zero for a wildcard. -/
def bytes (p : BytePattern) : List UInt8 := p.cells.map (·.getD 0)

/-- For each cell, whether its byte has to match. -/
def mask (p : BytePattern) : List Bool := p.cells.map Option.isSome

def cellText : Option UInt8 → String
  | some b => Text.hexPadded 2 b.toNat
  | none => "??"

/-- The pattern in normal form: upper-case digits, two question marks for a wildcard, one space. -/
def text (p : BytePattern) : String := " ".intercalate (p.cells.map cellText)

def typeName : String := "crate::resolution::Signature"

def render (p : BytePattern) : String :=
  let bytes := ", ".intercalate (p.bytes.map fun b => "0x" ++ Text.hexPadded 2 b.toNat)
  let mask := ", ".intercalate (p.mask.map fun m => if m then "true" else "false")
  typeName ++ "::new(" ++ Text.quoted p.text ++ ", &[" ++ bytes ++ "], &[" ++ mask ++ "])"

end BytePattern

/-- Where a static address stands: `offset` bytes from the match of a pattern, behind one more
pointer if `isPointer` says so. -/
structure StaticAddress where
  pattern : BytePattern
  offset : Int
  isPointer : Bool
deriving Repr, DecidableEq

namespace StaticAddress

def typeName : String := "crate::resolution::StaticAddressSignature"

def render (a : StaticAddress) : String :=
  typeName ++ "::new(" ++ a.pattern.render ++ ", " ++ toString a.offset ++ ", "
    ++ (if a.isPointer then "true" else "false") ++ ")"

end StaticAddress

end FixedLayout
