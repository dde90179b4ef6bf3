import FixedLayout.Datum
import FixedLayout.Text.Decimal
import FixedLayout.Text.Digits

/-! The numbers of JSON. A number is an integer, or something that nobody asks for unless it is out
of the range of double precision. That range is tested on an approximation: the leading digits, as
many as 64 bits hold, times a power of ten. -/

namespace FixedLayout.Json

/-- Appends digits to a number as long as 64 bits hold the result. Answers it with the digits that
are left over. -/
def absorb (n : Nat) : List Char → Nat × List Char
  | [] => (n, [])
  | c :: cs =>
    match Text.digitValue? c with
    | some d =>
      if n * 10 + d < 0x1_0000_0000_0000_0000 then absorb (n * 10 + d) cs else (n, c :: cs)
    | none => (n, c :: cs)

/-- The leading digits of a numeral as a number, with the power of ten that it is multiplied with.
Digits of the whole part that are left over count as tens. The digits of the fraction are appended
as far as they still fit, and those left over do not count. -/
def leading (whole fraction : List Char) (exponent : Int) : Nat × Int :=
  let (n, tens) := absorb 0 whole
  let (m, rest) := absorb n fraction
  (m, exponent + tens.length - (fraction.length - rest.length))

def numeral (negative : Bool) (whole fraction : List Char) (exponent : Option Int) : Datum :=
  let (n, power) := leading whole fraction (exponent.getD 0)
  if Text.productExceedsDouble n power then .broken
  else if fraction.isEmpty && exponent.isNone then
    .int negative ((Text.readDigits 10 whole).getD 0)
  else .other

/-- The digits at the front, at least one. -/
def readDigitRun (cs : List Char) : Option (List Char × List Char) :=
  let digits := cs.takeWhile Char.isDigit
  if digits.isEmpty then none else some (digits, cs.drop digits.length)

/-- A fraction with its mark, or no digits where there is no mark. -/
def readFraction : List Char → Option (List Char × List Char)
  | '.' :: cs => readDigitRun cs
  | cs => some ([], cs)

/-- An exponent with its mark, if there is one. -/
def readExponent (cs : List Char) : Option (Option Int × List Char) :=
  match cs with
  | c :: rest =>
    if c == 'e' || c == 'E' then
      let (negative, rest) := match rest with
        | '-' :: rest => (true, rest)
        | '+' :: rest => (false, rest)
        | rest => (false, rest)
      match readDigitRun rest with
      | some (digits, rest) =>
        let n : Int := (Text.readDigits 10 digits).getD 0
        some (some (if negative then -n else n), rest)
      | none => none
    else some (none, cs)
  | [] => some (none, [])

/-- A numeral after its sign. Only a lone zero begins with zero. -/
def readNumeral (negative : Bool) (cs : List Char) : Option (Datum × List Char) := do
  let (whole, cs) ← readDigitRun cs
  if whole.head? == some '0' && whole.length > 1 then none
  else
    let (fraction, cs) ← readFraction cs
    let (exponent, cs) ← readExponent cs
    return (numeral negative whole fraction exponent, cs)

end FixedLayout.Json
