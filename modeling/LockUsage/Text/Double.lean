import LockUsage.Text.Numeral

/-! Numbers of double precision, as far as it matters which of them are finite. -/

namespace LockUsage.Text

/-- The nearest number with 53 significant bits. Of two that are equally near the even one is
taken. -/
def roundToDouble (n : Nat) : Nat :=
  if n < valuesOf 53 then n
  else
    let unit := valuesOf (n.log2 - 52)
    let floor := n / unit
    let up := unit < 2 * (n % unit) || (unit == 2 * (n % unit) && floor % 2 == 1)
    (if up then floor + 1 else floor) * unit

/-- The least number that rounds to infinity. -/
def doubleBound : Nat := valuesOf 1024 - valuesOf 970

/-- Whether `digits` times a power of ten rounds to a finite number. The largest one has 309 digits
before the point. -/
def isFiniteDecimal (digits : Nat) (exponent : Int) : Bool :=
  let length : Int := exponent + (Nat.toDigits 10 digits).length
  if digits = 0 ∨ length < 309 then true
  else if 309 < length then false
  else if 0 ≤ exponent then digits * Nat.pow 10 exponent.toNat < doubleBound
  else digits < doubleBound * Nat.pow 10 (-exponent).toNat

end LockUsage.Text
