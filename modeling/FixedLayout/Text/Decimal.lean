/-! Decimal numerals and binary numbers of double precision: 53 binary digits, below `2 ^ 1024`. -/

namespace FixedLayout.Text

/-- The least number that rounds to infinity in double precision. -/
def doubleLimit : Nat := Nat.pow 2 1024 - Nat.pow 2 970

/-- The number `mantissa * 10 ^ exponent` is at least `doubleLimit`. The mantissa has at most
`digits` digits. Only where the size of the number leaves a doubt is it computed. -/
def exceedsDouble (digits mantissa : Nat) (exponent : Int) : Bool :=
  if mantissa = 0 then false
  else if 400 < exponent then true
  else if exponent + digits < 300 then false
  else if 0 ≤ exponent then decide (doubleLimit ≤ mantissa * Nat.pow 10 exponent.toNat)
  else decide (doubleLimit * Nat.pow 10 (-exponent).toNat ≤ mantissa)

/-- The nearest number with 53 binary digits and zeros after them, of two equally near ones that
with an even last digit. -/
def roundToDouble (n : Nat) : Nat :=
  let unit := Nat.pow 2 (n.log2 - 52)
  let kept := n / unit
  let dropped := n % unit
  if unit < 2 * dropped || (2 * dropped == unit && kept % 2 == 1) then (kept + 1) * unit
  else kept * unit

/-- The product of two numbers rounded to double precision is too great for it. A power of ten above
the greatest that fits is not multiplied with. -/
def productExceedsDouble (n : Nat) (exponent : Int) : Bool :=
  if n = 0 || exponent < 0 then false
  else if 308 < exponent then true
  else decide (doubleLimit ≤ roundToDouble n * roundToDouble (Nat.pow 10 exponent.toNat))

end FixedLayout.Text
