/-! Numbers in positional notation, most significant digit first. -/

namespace FixedLayout.Text

/-- Hexadecimal digits with lower-case letters. -/
def hexLower (n : Nat) : String := String.ofList (Nat.toDigits 16 n)

/-- Hexadecimal digits with upper-case letters. -/
def hexUpper (n : Nat) : String := String.ofList ((Nat.toDigits 16 n).map Char.toUpper)

/-- Upper-case hexadecimal digits with zeros in front up to the given width. -/
def hexPadded (width n : Nat) : String :=
  let digits := (Nat.toDigits 16 n).map Char.toUpper
  String.ofList (List.replicate (width - digits.length) '0' ++ digits)

/-- The value of a digit up to `f`, in either case. -/
def digitValue? (c : Char) : Option Nat :=
  if '0' ≤ c ∧ c ≤ '9' then some (c.toNat - 48)
  else if 'a' ≤ c ∧ c ≤ 'f' then some (c.toNat - 87)
  else if 'A' ≤ c ∧ c ≤ 'F' then some (c.toNat - 55)
  else none

/-- The value of `value` followed by the given digits of base `base`. -/
def readDigitsFrom (base value : Nat) : List Char → Option Nat
  | [] => some value
  | c :: cs =>
    match digitValue? c with
    | some d => if d < base then readDigitsFrom base (value * base + d) cs else none
    | none => none

/-- The value of at least one digit of base `base`. -/
def readDigits (base : Nat) (cs : List Char) : Option Nat :=
  if cs.isEmpty then none else readDigitsFrom base 0 cs

end FixedLayout.Text
