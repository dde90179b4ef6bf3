import FixedLayout.Text.Uppercase

/-! Identifiers of the generated code. Source names run their words together and mark each with a
capital; modules, fields and accessors are written in snake case, a run of capitals counting as one
word. Reserved words are escaped. -/

namespace FixedLayout.Ident

/-- Words that the generated code cannot use as plain identifiers. -/
def reserved : List String :=
  ["as", "break", "const", "continue", "crate", "else", "enum", "extern", "false", "fn", "for",
    "if", "impl", "in", "let", "loop", "match", "mod", "move", "mut", "pub", "ref", "return",
    "self", "Self", "static", "struct", "super", "trait", "true", "type", "unsafe", "use",
    "where", "while", "async", "await", "dyn", "abstract", "become", "box", "do", "final",
    "macro", "override", "priv", "typeof", "unsized", "virtual", "yield", "try", "gen"]

/-- Reserved words that name a place and have no raw form. -/
def places : List String := ["self", "Self", "super", "crate"]

def isReserved (s : String) : Bool := reserved.contains s

/-- A reserved word made usable: a place gets an underscore at its end, any other word becomes a
raw identifier. -/
def escape (s : String) : String :=
  if places.contains s then s ++ "_"
  else if isReserved s then "r#" ++ s
  else s

/-- Lower-cases every capital, with an underscore in front of each that opens a new word.
`inRun` says that the character before was a capital or that there was none. -/
def snakeChars (inRun : Bool) : List Char → List Char
  | [] => []
  | c :: cs =>
    if Text.isUppercase c then
      (if inRun then [] else ['_']) ++ Text.lowercase c ++ snakeChars true cs
    else c :: snakeChars false cs

/-- The snake-case form of a name, escaped. -/
def snake (s : String) : String := escape (String.ofList (snakeChars true s.toList))

/-- Removes the first arity marker, a back-quote with the digits after it. -/
def dropArity : List Char → List Char
  | [] => []
  | c :: cs => if c == '\x60' then cs.dropWhile Char.isDigit else c :: dropArity cs

/-- A type name as one identifier: without its arity marker, and with an underscore for each plus
sign that separates a nested type from the one around it. -/
def ofTypeName (s : String) : String :=
  String.ofList ((dropArity s.toList).map fun c => if c == '+' then '_' else c)

/-- The name in capitals, as static items have it. Only ASCII letters change. -/
def ofStatic (s : String) : String := String.ofList (s.toList.map Char.toUpper)

/-- A text without any raw-identifier marks at its start. -/
def dropRawChars : List Char → List Char
  | 'r' :: '#' :: cs => dropRawChars cs
  | cs => cs

def dropRaw (s : String) : String := String.ofList (dropRawChars s.toList)

end FixedLayout.Ident
