import FixedLayout.Datum
import FixedLayout.Json.Numeral
import FixedLayout.Text.Digits

/-! Reading JSON. Each step takes characters from the front and answers what it read with the
characters left. What nobody reads need not be readable: a text may hold half a surrogate pair, and
a number may be out of range. -/

namespace FixedLayout.Json

def isSpace (c : Char) : Bool := c == ' ' || c == '\n' || c == '\r' || c == '\t'

def skipSpace (cs : List Char) : List Char := cs.dropWhile isSpace

def unit? (a b c d : Char) : Option Nat := Text.readDigits 16 [a, b, c, d]

/-- The first half of a pair that stands for a character beyond 16 bits. -/
def isHigh (unit : Nat) : Bool := 0xD800 ≤ unit && unit < 0xDC00

/-- The second half of such a pair. -/
def isLow (unit : Nat) : Bool := 0xDC00 ≤ unit && unit < 0xE000

/-- The character that two halves stand for. -/
def pairChar (high low : Nat) : Char :=
  Char.ofNat (0x10000 + (high - 0xD800) * 0x400 + (low - 0xDC00))

def shortEscape? : Char → Option Char
  | '\x22' => some '\x22'
  | '\\' => some '\\'
  | '/' => some '/'
  | 'b' => some '\x08'
  | 'f' => some '\x0c'
  | 'n' => some '\n'
  | 'r' => some '\r'
  | 't' => some '\t'
  | _ => none

/-- A text that is being read: its characters so far, last first, the half of a pair at its end,
and whether a half has stayed alone. -/
structure Pending where
  chars : List Char := []
  high : Option Nat := none
  sound : Bool := true

namespace Pending

def push (p : Pending) (c : Char) : Pending := ⟨c :: p.chars, none, p.sound && p.high.isNone⟩

/-- Adds a unit of 16 bits, which may be half of a pair. -/
def pushUnit (p : Pending) (unit : Nat) : Pending :=
  if isHigh unit then { p with high := some unit, sound := p.sound && p.high.isNone }
  else if isLow unit then
    match p.high with
    | some high => { p with chars := pairChar high unit :: p.chars, high := none }
    | none => { p with sound := false }
  else p.push (Char.ofNat unit)

/-- The text, if no half stayed alone. -/
def finish? (p : Pending) : Option String :=
  if p.sound && p.high.isNone then some (String.ofList p.chars.reverse) else none

end Pending

/-- The rest of a text after its opening quote. There is no value where half a pair stands
alone. -/
def readText (p : Pending) : List Char → Option (Option String × List Char)
  | '\x22' :: cs => some (p.finish?, cs)
  | '\\' :: 'u' :: a :: b :: c :: d :: cs =>
    match unit? a b c d with
    | some unit => readText (p.pushUnit unit) cs
    | none => none
  | '\\' :: c :: cs =>
    match shortEscape? c with
    | some e => readText (p.push e) cs
    | none => none
  | c :: cs => if c.toNat < 0x20 || c == '\\' then none else readText (p.push c) cs
  | [] => none

/-- The table of some fields. It cannot be read where a name cannot. -/
def tableOf (fields : List (Option String × Datum)) : Datum :=
  match fields.mapM fun (name, value) => name.map (·, value) with
  | some fields => .table fields
  | none => .broken

mutual

/-- One value. `fuel` bounds the calls below this one. -/
def readValue (fuel : Nat) (cs : List Char) : Option (Datum × List Char) :=
  match fuel with
  | 0 => none
  | fuel + 1 =>
    match skipSpace cs with
    | 'n' :: 'u' :: 'l' :: 'l' :: cs => some (.null, cs)
    | 't' :: 'r' :: 'u' :: 'e' :: cs => some (.bool true, cs)
    | 'f' :: 'a' :: 'l' :: 's' :: 'e' :: cs => some (.bool false, cs)
    | '\x22' :: cs => do
      let (text, cs) ← readText {} cs
      return ((text.map Datum.string).getD .broken, cs)
    | '[' :: cs =>
      match skipSpace cs with
      | ']' :: cs => some (.list [], cs)
      | cs => do
        let (items, cs) ← readItems fuel cs
        return (.list items, cs)
    | '\x7b' :: cs =>
      match skipSpace cs with
      | '\x7d' :: cs => some (.table [], cs)
      | cs => do
        let (fields, cs) ← readFields fuel cs
        return (tableOf fields, cs)
    | '-' :: cs => readNumeral true cs
    | cs => readNumeral false cs

/-- One item or more and the bracket after them. -/
def readItems (fuel : Nat) (cs : List Char) : Option (List Datum × List Char) :=
  match fuel with
  | 0 => none
  | fuel + 1 => do
    let (item, cs) ← readValue fuel cs
    match skipSpace cs with
    | ',' :: cs => do
      let (items, cs) ← readItems fuel cs
      return (item :: items, cs)
    | ']' :: cs => return ([item], cs)
    | _ => none

/-- One field or more and the brace after them. -/
def readFields (fuel : Nat) (cs : List Char) :
    Option (List (Option String × Datum) × List Char) :=
  match fuel with
  | 0 => none
  | fuel + 1 =>
    match skipSpace cs with
    | '\x22' :: cs => do
      let (name, cs) ← readText {} cs
      match skipSpace cs with
      | ':' :: cs => do
        let (value, cs) ← readValue fuel cs
        match skipSpace cs with
        | ',' :: cs => do
          let (fields, cs) ← readFields fuel cs
          return ((name, value) :: fields, cs)
        | '\x7d' :: cs => return ([(name, value)], cs)
        | _ => none
      | _ => none
    | _ => none

end

/-- The datum of a whole text. A call without fuel is out of reach: every second call takes a
character. -/
def parse (text : String) : Option Datum :=
  let cs := text.toList
  match readValue (2 * cs.length + 2) cs with
  | some (d, rest) => if (skipSpace rest).isEmpty then some d else none
  | none => none

/-- The levels of lists and tables that a document may have. -/
def maxDepth : Nat := 127

/-- The datum of a document, which cannot be read below `maxDepth` levels. -/
def document (text : String) : Option Datum := (parse text).map (Datum.limit maxDepth)

end FixedLayout.Json
