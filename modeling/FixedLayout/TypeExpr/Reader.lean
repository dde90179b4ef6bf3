import FixedLayout.Error
import FixedLayout.Text.Alphanumeric
import FixedLayout.Text.Blank
import FixedLayout.TypeExpr

/-! Reading type expressions. Each step takes characters from the front and answers what it read
with the characters left. Blanks may stand between the parts, but not inside a path. -/

namespace FixedLayout.TypeExpr

/-- A character of a path segment. The hash belongs to raw identifiers. -/
def isSegmentChar (c : Char) : Bool := Text.isAlphanumeric c || c == '_' || c == '#'

/-- Counts the pointers at the front, with the blanks around them taken away. -/
def readPointers (count : Nat) : List Char → Nat × List Char
  | '*' :: 'm' :: 'u' :: 't' :: ' ' :: cs => readPointers (count + 1) cs
  | '*' :: 'c' :: 'o' :: 'n' :: 's' :: 't' :: ' ' :: cs => readPointers (count + 1) cs
  | c :: cs =>
    if c == '*' then readPointers (count + 1) cs
    else if Text.isBlank c then readPointers count cs
    else (count, c :: cs)
  | [] => (count, [])

/-- The segments of a path, with `segment` the current one, last character first. -/
def readSegments (segment : List Char) : List Char → Except TypeFault (List String × List Char)
  | ':' :: ':' :: cs =>
    if segment.isEmpty then .error .missingIdentifier
    else do
      let (segments, rest) ← readSegments [] cs
      return (String.ofList segment.reverse :: segments, rest)
  | c :: cs =>
    if isSegmentChar c then readSegments (c :: segment) cs
    else if segment.isEmpty then .error .missingIdentifier
    else .ok ([String.ofList segment.reverse], c :: cs)
  | [] =>
    if segment.isEmpty then .error .missingIdentifier
    else .ok ([String.ofList segment.reverse], [])

/-- A path, or the unit type as a path of one segment. -/
def readPath : List Char → Except TypeFault (List String × List Char)
  | '(' :: ')' :: cs => .ok (["()"], cs)
  | cs => readSegments [] cs

/-- The value of an array length: decimal, or hexadecimal after `0x`. Underscores do not count. -/
def lengthValue? (literal : List Char) : Option Nat :=
  match literal.filter (· != '_') with
  | '0' :: 'x' :: digits => Text.readDigits 16 digits
  | '0' :: 'X' :: digits => Text.readDigits 16 digits
  | digits => Text.readDigits 10 digits

/-- The number of elements of an array, at most what an address can hold. -/
def readLength (cs : List Char) : Except TypeFault (Nat × List Char) :=
  let literal := cs.takeWhile fun c => c.isAlphanum || c == '_'
  match lengthValue? literal with
  | some n =>
    if n < 0x1_0000_0000_0000_0000 then .ok (n, cs.drop literal.length) else .error .badLength
  | none => .error .badLength

/-- Takes a mark, or fails with `fault`. -/
def readMark (mark : Char) (fault : TypeFault) (cs : List Char) : Except TypeFault (List Char) :=
  match Text.skipBlank cs with
  | c :: rest => if c == mark then .ok rest else .error fault
  | [] => .error fault

mutual

/-- One expression. `fuel` bounds the calls below this one. -/
def readExpr (fuel : Nat) (cs : List Char) : Except TypeFault (TypeExpr × List Char) :=
  match fuel with
  | 0 => .error .missingIdentifier
  | fuel + 1 =>
    match readPointers 0 cs with
    | (count, '[' :: cs) =>
      if count > 0 then .error .pointerToArray
      else do
        let (element, cs) ← readExpr fuel cs
        if element.extent.isSome then .error .nestedArrays
        else do
          let cs ← readMark ';' .missingSemicolon cs
          let (length, cs) ← readLength (Text.skipBlank cs)
          let cs ← readMark ']' .missingBracket cs
          return (element.withExtent length, cs)
    | (count, cs) => do
      let (path, cs) ← readPath cs
      match Text.skipBlank cs with
      | '<' :: cs =>
        match Text.skipBlank cs with
        | '>' :: cs => return (⟨path, some [], count, none⟩, cs)
        | cs => do
          let (args, cs) ← readArguments fuel cs
          return (⟨path, some args, count, none⟩, cs)
      | cs => return (⟨path, none, count, none⟩, cs)

/-- One argument or more, with commas between them, and the bracket that closes them. -/
def readArguments (fuel : Nat) (cs : List Char) : Except TypeFault (List TypeExpr × List Char) :=
  match fuel with
  | 0 => .error .missingIdentifier
  | fuel + 1 => do
    let (arg, cs) ← readExpr fuel cs
    match Text.skipBlank cs with
    | ',' :: cs => do
      let (args, cs) ← readArguments fuel cs
      return (arg :: args, cs)
    | cs => do
      let cs ← readMark '>' .missingAngle cs
      return ([arg], cs)

end

/-- The expression that a text writes, and nothing after it. A call without fuel is out of reach:
every second call takes a character. -/
def readAll (cs : List Char) : Except TypeFault TypeExpr := do
  let (expr, rest) ← readExpr (2 * cs.length + 2) cs
  if (Text.skipBlank rest).isEmpty then return expr else .error .trailing

def parse (text : String) : Except ExportError TypeExpr :=
  match readAll text.toList with
  | .ok expr => .ok expr
  | .error fault => .error (.invalidType text fault)

end FixedLayout.TypeExpr
