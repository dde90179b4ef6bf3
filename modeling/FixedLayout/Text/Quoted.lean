import FixedLayout.Text.Digits
import FixedLayout.Text.Quoted.Unprintable

/-! Text between double quotes. Quotes, backslashes and the common control characters have short
escapes; what cannot be shown is written by its code point. -/

namespace FixedLayout.Text

def quoteChar (c : Char) : String :=
  if c == '"' then "\\\""
  else if c == '\\' then "\\\\"
  else if c == '\n' then "\\n"
  else if c == '\r' then "\\r"
  else if c == '\t' then "\\t"
  else if c.toNat == 0 then "\\0"
  else if isUnprintable c then "\\u\x7b" ++ hexLower c.toNat ++ "\x7d"
  else String.singleton c

def quoted (s : String) : String := "\"" ++ String.join (s.toList.map quoteChar) ++ "\""

end FixedLayout.Text
