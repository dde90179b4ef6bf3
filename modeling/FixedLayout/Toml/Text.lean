import FixedLayout.Text.Digits

/-! The four notations of texts in TOML: in double quotes with escapes or in single quotes without
them, each on one line or over several lines between triple quotes. -/

namespace FixedLayout.Toml

/-- A character that may stand as itself on a line. -/
def isLineChar (c : Char) : Bool := c == '\t' || (0x20 ≤ c.toNat && c.toNat != 0x7F)

/-- A blank or a tab. -/
def isGap (c : Char) : Bool := c == ' ' || c == '\t'

/-- What follows the end of a line, if the line ends here. -/
def newline? : List Char → Option (List Char)
  | '\n' :: cs => some cs
  | '\r' :: '\n' :: cs => some cs
  | _ => none

def charOf? (n : Nat) : Option Char := if n.isValidChar then some (Char.ofNat n) else none

def codePoint? (digits : List Char) : Option Char := (Text.readDigits 16 digits).bind charOf?

def shortEscape? : Char → Option Char
  | 'b' => some '\x08'
  | 't' => some '\t'
  | 'n' => some '\n'
  | 'f' => some '\x0c'
  | 'r' => some '\r'
  | '\x22' => some '\x22'
  | '\\' => some '\\'
  | _ => none

/-- The text with its characters in reverse. -/
def ofReversed (chars : List Char) : String := String.ofList chars.reverse

/-- A text after its double quote. `chars` holds what was read, last character first. -/
def readBasic (chars : List Char) : List Char → Option (String × List Char)
  | '\x22' :: cs => some (ofReversed chars, cs)
  | '\\' :: 'u' :: a :: b :: c :: d :: cs =>
    match codePoint? [a, b, c, d] with
    | some e => readBasic (e :: chars) cs
    | none => none
  | '\\' :: 'U' :: a :: b :: c :: d :: e :: f :: g :: h :: cs =>
    match codePoint? [a, b, c, d, e, f, g, h] with
    | some e => readBasic (e :: chars) cs
    | none => none
  | '\\' :: c :: cs =>
    match shortEscape? c with
    | some e => readBasic (e :: chars) cs
    | none => none
  | c :: cs => if isLineChar c && c != '\\' then readBasic (c :: chars) cs else none
  | [] => none

def readLiteral (chars : List Char) : List Char → Option (String × List Char)
  | '\'' :: cs => some (ofReversed chars, cs)
  | c :: cs => if isLineChar c then readLiteral (c :: chars) cs else none
  | [] => none

/-- What the reader of a text over several lines is in the middle of. -/
inductive LineMode where
  /-- Characters of the text. -/
  | inside
  /-- The end of a line after a backslash. -/
  | escapedEnd
  /-- Blanks and line ends that an escaped line end swallows. -/
  | swallowing
deriving DecidableEq

/-- A text over several lines after its triple quote. Up to two quotes may stand inside, also in
front of the closing ones. -/
def readLines (escapes : Bool) (quote : Char) (mode : LineMode) (chars : List Char) :
    List Char → Option (String × List Char)
  | [] => none
  | '\r' :: '\n' :: cs =>
    match mode with
    | .inside => readLines escapes quote .inside ('\n' :: chars) cs
    | .escapedEnd | .swallowing => readLines escapes quote .swallowing chars cs
  | '\n' :: cs =>
    match mode with
    | .inside => readLines escapes quote .inside ('\n' :: chars) cs
    | .escapedEnd | .swallowing => readLines escapes quote .swallowing chars cs
  | c :: cs =>
    if mode != .inside && isGap c then readLines escapes quote mode chars cs
    else if mode = .escapedEnd then none
    else if c == quote then
      match cs with
      | q1 :: q2 :: rest =>
        if q1 == quote && q2 == quote then
          let more := rest.takeWhile (· == quote)
          if more.length ≤ 2 then some (ofReversed (more ++ chars), rest.drop more.length)
          else none
        else readLines escapes quote .inside (c :: chars) (q1 :: q2 :: rest)
      | _ => none
    else if escapes && c == '\\' then
      match cs with
      | 'u' :: a :: b :: c :: d :: rest =>
        match codePoint? [a, b, c, d] with
        | some e => readLines escapes quote .inside (e :: chars) rest
        | none => none
      | 'U' :: a :: b :: c :: d :: e :: f :: g :: h :: rest =>
        match codePoint? [a, b, c, d, e, f, g, h] with
        | some e => readLines escapes quote .inside (e :: chars) rest
        | none => none
      | e :: rest =>
        match shortEscape? e with
        | some e => readLines escapes quote .inside (e :: chars) rest
        | none => readLines escapes quote .escapedEnd chars (e :: rest)
      | [] => none
    else if isLineChar c then readLines escapes quote .inside (c :: chars) cs
    else none

/-- A text over several lines after its triple quote. The end of the first line does not count. -/
def readMultiline (escapes : Bool) (quote : Char) (cs : List Char) :
    Option (String × List Char) :=
  readLines escapes quote .inside [] ((newline? cs).getD cs)

/-- A text in any notation. -/
def readText : List Char → Option (String × List Char)
  | '\x22' :: '\x22' :: '\x22' :: cs => readMultiline true '\x22' cs
  | '\x22' :: cs => readBasic [] cs
  | '\'' :: '\'' :: '\'' :: cs => readMultiline false '\'' cs
  | '\'' :: cs => readLiteral [] cs
  | _ => none

end FixedLayout.Toml
