import FixedLayout.Datum

/-! Writing JSON without blanks. -/

namespace FixedLayout.Json

/-- The letter that stands for a character behind a backslash. -/
def escapeLetter? : Char → Option Char
  | '\x22' => some '\x22'
  | '\\' => some '\\'
  | '\x08' => some 'b'
  | '\x0c' => some 'f'
  | '\n' => some 'n'
  | '\r' => some 'r'
  | '\t' => some 't'
  | _ => none

/-- A unit of 16 bits with four digits, the letters among them lower-case. -/
def unitDigits (unit : Nat) : List Char :=
  let digits := Nat.toDigits 16 unit
  List.replicate (4 - digits.length) '0' ++ digits

def printChar (c : Char) : String :=
  match escapeLetter? c with
  | some letter => String.ofList ['\\', letter]
  | none =>
    if c.toNat < 0x20 then String.ofList ('\\' :: 'u' :: unitDigits c.toNat)
    else String.singleton c

def printText (s : String) : String := "\"" ++ String.join (s.toList.map printChar) ++ "\""

mutual

def print : Datum → String
  | .null | .other | .broken => "null"
  | .bool b => if b then "true" else "false"
  | .int negative magnitude => (if negative then "-" else "") ++ toString magnitude
  | .string s => printText s
  | .list items => "[" ++ ",".intercalate (printItems items) ++ "]"
  | .table fields => "\x7b" ++ ",".intercalate (printFields fields) ++ "\x7d"

def printItems : List Datum → List String
  | [] => []
  | d :: ds => print d :: printItems ds

def printFields : List (String × Datum) → List String
  | [] => []
  | (name, d) :: fields => (printText name ++ ":" ++ print d) :: printFields fields

end

end FixedLayout.Json
