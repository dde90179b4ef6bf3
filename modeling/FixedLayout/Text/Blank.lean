import FixedLayout.Text.Ranges

/-! Blank characters, the ones that Unicode calls white space, and the words between them. -/

namespace FixedLayout.Text

/-- The ranges of the property White_Space. -/
def blankRanges : List (Nat × Nat) :=
  [(0x9, 0xD), (0x20, 0x20), (0x85, 0x85), (0xA0, 0xA0), (0x1680, 0x1680), (0x2000, 0x200A),
  (0x2028, 0x2029), (0x202F, 0x202F), (0x205F, 0x205F), (0x3000, 0x3000)]

/-- A character that separates words. -/
def isBlank (c : Char) : Bool := inRanges blankRanges c

/-- The text without the blanks it starts with. -/
def skipBlank (cs : List Char) : List Char := cs.dropWhile isBlank

/-- The words of a text, with `word` the letters of the current one, last letter first. -/
def wordsFrom (word : List Char) : List Char → List (List Char)
  | [] => if word.isEmpty then [] else [word.reverse]
  | c :: cs =>
    if isBlank c then
      if word.isEmpty then wordsFrom [] cs else word.reverse :: wordsFrom [] cs
    else wordsFrom (c :: word) cs

/-- The maximal runs of characters that are not blank, in order. -/
def words (cs : List Char) : List (List Char) := wordsFrom [] cs

end FixedLayout.Text
