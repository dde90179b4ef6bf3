import FixedLayout.Datum
import FixedLayout.Text.Decimal
import FixedLayout.Text.Digits

/-! The numbers, truth values, dates and times of TOML. Each is one word without blanks, except that
a blank may stand between a date and a time. -/

namespace FixedLayout.Toml

def isWordChar (c : Char) : Bool :=
  c.isAlphanum || c == '+' || c == '-' || c == '_' || c == '.' || c == ':'

/-- Digits without their underscores, each of which must stand between two digits. -/
def plainDigits? (isDigit : Char → Bool) : List Char → Option (List Char)
  | [] => none
  | [c] => if isDigit c then some [c] else none
  | c :: '_' :: cs => if isDigit c then (plainDigits? isDigit cs).map (c :: ·) else none
  | c :: cs => if isDigit c then (plainDigits? isDigit cs).map (c :: ·) else none

def isHexDigit (c : Char) : Bool := (Text.digitValue? c).isSome

/-- The sign of a number and what follows it. -/
def splitSign : List Char → Bool × List Char
  | '-' :: cs => (true, cs)
  | '+' :: cs => (false, cs)
  | cs => (false, cs)

/-- The digits of a whole number. Only a lone zero begins with zero. -/
def wholeDigits? (cs : List Char) : Option (List Char) := do
  let digits ← plainDigits? Char.isDigit cs
  if digits.head? == some '0' && cs.length > 1 then none else some digits

def integer? (negative : Bool) (magnitude : Nat) : Option Datum :=
  if magnitude < 0x8000_0000_0000_0000 + (if negative then 1 else 0) then
    some (.int (negative && magnitude != 0) magnitude)
  else none

/-- An integer with the given base, after the mark of the base. -/
def based? (base : Nat) (isDigit : Char → Bool) (cs : List Char) : Option Datum := do
  let digits ← plainDigits? isDigit cs
  integer? false (← Text.readDigits base digits)

/-- The number after the mark of an exponent. -/
def exponent? (cs : List Char) : Option Int := do
  let (negative, cs) := splitSign cs
  let n ← Text.readDigits 10 (← plainDigits? Char.isDigit cs)
  return if negative then -n else n

/-- A number with a fraction, an exponent or both. Only its form is read; a positive one must not
be out of range. -/
def fraction? (cs : List Char) : Option Datum := do
  let isMark := fun c : Char => c == 'e' || c == 'E'
  let (negative, body) := splitSign cs
  let front := body.takeWhile (!isMark ·)
  let whole ← wholeDigits? (front.takeWhile (· != '.'))
  let fraction ← match front.dropWhile (· != '.') with
    | [] => some []
    | _ :: digits => plainDigits? Char.isDigit digits
  let exponent ← match body.dropWhile (!isMark ·) with
    | [] => if fraction.isEmpty then none else some 0
    | _ :: digits => exponent? digits
  let digits := whole ++ fraction
  let mantissa := (Text.readDigits 10 digits).getD 0
  if !negative && Text.exceedsDouble digits.length mantissa (exponent - fraction.length) then none
  else return .other

/-- A number of exactly two digits, at most `greatest`. -/
def twoDigits? (greatest : Nat) (a b : Char) : Option Nat := do
  let n ← Text.readDigits 10 [a, b]
  if n ≤ greatest then some n else none

def daysIn (year month : Nat) : Nat :=
  if month = 2 then
    if year % 4 = 0 ∧ (year % 100 ≠ 0 ∨ year % 400 = 0) then 29 else 28
  else if month = 4 ∨ month = 6 ∨ month = 9 ∨ month = 11 then 30
  else 31

/-- A day of the calendar and what follows it. -/
def date? : List Char → Option (List Char)
  | y1 :: y2 :: y3 :: y4 :: '-' :: m1 :: m2 :: '-' :: d1 :: d2 :: cs => do
    let year ← Text.readDigits 10 [y1, y2, y3, y4]
    let month ← twoDigits? 12 m1 m2
    let day ← twoDigits? (daysIn year month) d1 d2
    if month = 0 ∨ day = 0 then none else some cs
  | _ => none

/-- A time of the day and what follows it. -/
def time? : List Char → Option (List Char)
  | h1 :: h2 :: ':' :: m1 :: m2 :: ':' :: s1 :: s2 :: cs => do
    let _ ← twoDigits? 23 h1 h2
    let _ ← twoDigits? 59 m1 m2
    let _ ← twoDigits? 60 s1 s2
    match cs with
    | '.' :: cs =>
      if (cs.takeWhile Char.isDigit).isEmpty then none else some (cs.dropWhile Char.isDigit)
    | cs => some cs
  | _ => none

/-- A distance from universal time, and nothing after it. -/
def isZone : List Char → Bool
  | ['Z'] | ['z'] => true
  | [sign, h1, h2, ':', m1, m2] =>
    (sign == '+' || sign == '-') && (twoDigits? 23 h1 h2).isSome && (twoDigits? 59 m1 m2).isSome
  | _ => false

/-- A time with a distance from universal time or without one. -/
def isZonedTime (cs : List Char) : Bool :=
  match time? cs with
  | some rest => rest.isEmpty || isZone rest
  | none => false

def moment? (cs : List Char) : Option Datum :=
  match date? cs with
  | some [] => some .other
  | some (mark :: rest) =>
    if (mark == 'T' || mark == 't') && isZonedTime rest then some .other else none
  | none => if time? cs == some [] then some .other else none

def word? (cs : List Char) : Option Datum :=
  match cs with
  | ['t', 'r', 'u', 'e'] => some (.bool true)
  | ['f', 'a', 'l', 's', 'e'] => some (.bool false)
  | '0' :: 'x' :: digits => based? 16 isHexDigit digits
  | '0' :: 'o' :: digits => based? 8 (fun c => '0' ≤ c && c ≤ '7') digits
  | '0' :: 'b' :: digits => based? 2 (fun c => c == '0' || c == '1') digits
  | cs =>
    let (negative, body) := splitSign cs
    if body == ['i', 'n', 'f'] || body == ['n', 'a', 'n'] then some .other
    else match wholeDigits? body with
      | some digits => (Text.readDigits 10 digits).bind (integer? negative)
      | none => (fraction? cs).or (moment? cs)

/-- The value at the front of a text that begins with a word, and the characters left. -/
def readWord (cs : List Char) : Option (Datum × List Char) := do
  let word := cs.takeWhile isWordChar
  let rest := cs.drop word.length
  let value ← word? word
  match date? word, rest with
  | some [], ' ' :: after =>
    let time := after.takeWhile isWordChar
    if isZonedTime time then return (.other, after.drop time.length) else return (value, rest)
  | _, _ => return (value, rest)

end FixedLayout.Toml
