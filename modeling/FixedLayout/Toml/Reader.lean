import FixedLayout.Toml.Numeral
import FixedLayout.Toml.Text
import FixedLayout.Toml.Tree

/-! Reading TOML. A document is a sequence of lines: headers, which say what table the values after
them belong to, and keys with values. A value may go on over several lines. -/

namespace FixedLayout.Toml

def skipGaps (cs : List Char) : List Char := cs.dropWhile isGap

def skipComment : List Char → List Char
  | '#' :: cs => cs.dropWhile isLineChar
  | cs => cs

/-- The characters after the end of the line, where nothing but a comment may stand before it. -/
def endLine? (cs : List Char) : Option (List Char) :=
  match skipComment (skipGaps cs) with
  | [] => some []
  | cs => newline? cs

/-- Skips blanks, comments and line ends. `inComment` says that a comment is being skipped. -/
def skipLines (inComment : Bool) : List Char → List Char
  | [] => []
  | '\r' :: '\n' :: cs => skipLines false cs
  | '\n' :: cs => skipLines false cs
  | c :: cs =>
    if inComment then if isLineChar c then skipLines true cs else c :: cs
    else if c == '#' then skipLines true cs
    else if isGap c then skipLines false cs
    else c :: cs

/-- A character of a key without quotes. -/
def isKeyChar (c : Char) : Bool := c.isAlphanum || c == '_' || c == '-'

def readKeyPart (cs : List Char) : Option (String × List Char) :=
  match cs with
  | '\x22' :: cs => readBasic [] cs
  | '\'' :: cs => readLiteral [] cs
  | cs =>
    let part := cs.takeWhile isKeyChar
    if part.isEmpty then none else some (String.ofList part, cs.drop part.length)

/-- The levels that a document may have: the parts of a key, and the values inside each other. -/
def maxDepth : Nat := 79

/-- The parts of a key with blanks around the dots between them. `room` bounds their number. -/
def readKeyParts (room : Nat) (cs : List Char) : Option (List String × List Char) :=
  match room with
  | 0 => none
  | room + 1 => do
    let (part, cs) ← readKeyPart (skipGaps cs)
    match skipGaps cs with
    | '.' :: cs => do
      let (parts, cs) ← readKeyParts room cs
      return (part :: parts, cs)
    | cs => return ([part], cs)

/-- A key: the parts in front of the last one, and the last one. -/
def readKey (cs : List Char) : Option ((List String × String) × List Char) := do
  let (parts, cs) ← readKeyParts maxDepth cs
  return ((parts.dropLast, parts.getLast?.getD ""), cs)

mutual

/-- One value with at most `depth` levels of lists and tables. `fuel` bounds the calls below this
one. -/
def readValue (fuel depth : Nat) (cs : List Char) : Option (Datum × List Char) :=
  match fuel with
  | 0 => none
  | fuel + 1 =>
    match cs with
    | '\x22' :: _ | '\'' :: _ => do
      let (text, cs) ← readText cs
      return (.string text, cs)
    | '[' :: cs =>
      match depth with
      | 0 => none
      | depth + 1 => do
        let (items, cs) ← readItems fuel depth (skipLines false cs)
        return (.list items, cs)
    | '\x7b' :: cs =>
      match depth with
      | 0 => none
      | depth + 1 => do
        match skipGaps cs with
        | '\x7d' :: cs => return (.table [], cs)
        | cs => do
          let (table, cs) ← readEntries fuel depth {} cs
          return (table.toTree.toDatum, cs)
    | cs => readWord cs

/-- The items of a list up to the bracket after them. A comma may stand after the last one. -/
def readItems (fuel depth : Nat) (cs : List Char) : Option (List Datum × List Char) :=
  match fuel with
  | 0 => none
  | fuel + 1 =>
    match cs with
    | ']' :: cs => some ([], cs)
    | cs => do
      let (item, cs) ← readValue fuel depth cs
      match skipLines false cs with
      | ',' :: cs => do
        let (items, cs) ← readItems fuel depth (skipLines false cs)
        return (item :: items, cs)
      | ']' :: cs => return ([item], cs)
      | _ => none

/-- The entries of a table on one line, added to those before them, up to the brace after them. -/
def readEntries (fuel depth : Nat) (table : Table) (cs : List Char) :
    Option (Table × List Char) :=
  match fuel with
  | 0 => none
  | fuel + 1 => do
    let ((path, key), cs) ← readKey cs
    match cs with
    | '=' :: cs => do
      let (value, cs) ← readValue fuel depth (skipGaps cs)
      let table ← table.add path key value
      match skipGaps cs with
      | ',' :: cs => readEntries fuel depth table cs
      | '\x7d' :: cs => return (table, cs)
      | _ => none
    | _ => none

end

/-- A document that is being read: its tables, and the path of the one that values belong to. -/
structure Draft where
  root : Table := {}
  here : List String := []

namespace Draft

/-- Begins the table of a header. A table that came into being on the way to one inside it may get
its own header later. -/
def beginTable (d : Draft) (path : List String) (key : String) : Option Draft := do
  let root ← d.root.update .passage
    (fun parent =>
      match parent.find? key with
      | none => some (parent.put key (.table .header []))
      | some (.table .passage entries) => some (parent.put key (.table .header entries))
      | some _ => none)
    path
  return { root, here := path ++ [key] }

/-- Begins one more table of a header in double brackets. -/
def beginRow (d : Draft) (path : List String) (key : String) : Option Draft := do
  let root ← d.root.update .passage
    (fun parent =>
      match parent.find? key with
      | none => some (parent.put key (.tables [[]]))
      | some (.tables rows) => some (parent.put key (.tables ([] :: rows)))
      | some _ => none)
    path
  return { root, here := path ++ [key] }

def add (d : Draft) (path : List String) (key : String) (value : Datum) : Option Draft := do
  let root ← d.root.update .passage (Table.add path key value) d.here
  return { d with root }

end Draft

/-- One line, or the lines of one value, and the end of the last line. -/
def readLine (d : Draft) (cs : List Char) : Option (Draft × List Char) :=
  match skipGaps cs with
  | '[' :: '[' :: cs => do
    let ((path, key), cs) ← readKey cs
    match cs with
    | ']' :: ']' :: cs => return (← d.beginRow path key, ← endLine? cs)
    | _ => none
  | '[' :: cs => do
    let ((path, key), cs) ← readKey cs
    match cs with
    | ']' :: cs => return (← d.beginTable path key, ← endLine? cs)
    | _ => none
  | cs =>
    match endLine? cs with
    | some rest => some (d, rest)
    | none => do
      let ((path, key), cs) ← readKey cs
      match cs with
      | '=' :: cs => do
        let (value, cs) ← readValue (2 * cs.length + 2) maxDepth (skipGaps cs)
        return (← d.add path key value, ← endLine? cs)
      | _ => none

/-- The lines of a document. `fuel` bounds their number. -/
def readLinesOf (fuel : Nat) (d : Draft) (cs : List Char) : Option Draft :=
  match fuel, cs with
  | _, [] => some d
  | 0, _ :: _ => none
  | fuel + 1, cs => do
    let (d, cs) ← readLine d cs
    readLinesOf fuel d cs

def skipMark : List Char → List Char
  | '\uFEFF' :: cs => cs
  | cs => cs

/-- The table of a document. Every line takes a character, so the fuel suffices. -/
def parse (text : String) : Option Datum :=
  let cs := skipMark text.toList
  (readLinesOf cs.length {} cs).map (·.root.toTree.toDatum)

end FixedLayout.Toml
