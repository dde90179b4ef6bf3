import FixedLayout.Datum
import FixedLayout.Text.Digits

/-! Writing TOML in its roomy form: a list of several values has a line for each, and a list of
tables is written as one headed table for each. -/

namespace FixedLayout.Toml

/-- A character as it stands between double quotes. -/
def printChar (c : Char) : String :=
  if c == '\x22' then "\\\""
  else if c == '\\' then "\\\\"
  else if c == '\n' then "\\n"
  else if c == '\r' then "\\r"
  else if c == '\t' then "\\t"
  else if c.toNat < 0x20 || c.toNat == 0x7F then
    "\\u00" ++ Text.hexPadded 2 c.toNat
  else String.singleton c

mutual

/-- A value on its own. Tables have no such form, and neither has the absence of a value. -/
def printValue : Datum → String
  | .bool b => if b then "true" else "false"
  | .int negative magnitude => (if negative then "-" else "") ++ toString magnitude
  | .string s => "\"" ++ String.join (s.toList.map printChar) ++ "\""
  | .list items =>
    match printValues items with
    | [] => "[]"
    | [item] => "[" ++ item ++ "]"
    | items => "[\n" ++ String.join (items.map fun item => "    " ++ item ++ ",\n") ++ "]"
  | _ => ""

def printValues : List Datum → List String
  | [] => []
  | d :: ds => printValue d :: printValues ds

end

/-- The tables of a list of nothing else, at least one. -/
def rows? : Datum → Option (List (List (String × Datum)))
  | .list items =>
    if items.isEmpty then none
    else items.mapM fun item => match item with
      | .table fields => some fields
      | _ => none
  | _ => none

/-- The line of a field. There is none for a field without a value. -/
def printField (field : String × Datum) : String :=
  match field.2 with
  | .null => ""
  | value => field.1 ++ " = " ++ printValue value ++ "\n"

def printRow (key : String) (fields : List (String × Datum)) : String :=
  "\n[[" ++ key ++ "]]\n" ++ String.join (fields.map printField)

/-- The text of a table: first its plain values, then its headed tables, both in order. -/
def printDocument (fields : List (String × Datum)) : String :=
  let plain := fields.filter fun field => (rows? field.2).isNone
  let headed := fields.flatMap fun field =>
    ((rows? field.2).getD []).map (printRow field.1)
  String.join (plain.map printField) ++ String.join headed

end FixedLayout.Toml
