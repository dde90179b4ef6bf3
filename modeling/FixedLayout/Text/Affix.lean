/-! What stands after a given beginning of a text, and the parts between separators. -/

namespace FixedLayout.Text

/-- The characters after the given ones, if the text begins with them. -/
def after? : List Char → List Char → Option (List Char)
  | [], cs => some cs
  | p :: ps, c :: cs => if p == c then after? ps cs else none
  | _ :: _, [] => none

/-- The characters up to each separator and those after the last one. -/
def splitAt (separator : Char) : List Char → List (List Char)
  | [] => [[]]
  | c :: cs =>
    if c == separator then [] :: splitAt separator cs
    else match splitAt separator cs with
      | part :: parts => (c :: part) :: parts
      | [] => [[c]]

/-- ASCII letters in lower case, to compare texts without regard to case. -/
def foldCase (s : String) : List Char := s.toList.map Char.toLower

end FixedLayout.Text
