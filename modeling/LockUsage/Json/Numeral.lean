import LockUsage.Text.Double

/-! What a numeral with a fraction or an exponent denotes in double precision, as far as it matters
whether it is finite.

As many leading digits count as make a number of 64 bits. The digits and the power of ten are
rounded each for itself, and then their product is. -/

namespace LockUsage.Json

/-- Appends digits to a number while it fits into 64 bits, and gives those that are left over. -/
def appendDigits (value : Nat) : List Char → Nat × List Char
  | [] => (value, [])
  | c :: rest =>
    match Text.digitsFrom? value [c] with
    | none => (value, c :: rest)
    | some next => if next < Text.valuesOf 64 then appendDigits next rest else (value, c :: rest)

def isExponentMark (c : Char) : Bool := c == 'e' || c == 'E'

/-- The digits of a numeral without its sign: those before the point, those after it and those of
the exponent, and whether the exponent is negative. -/
structure NumeralParts where
  whole : List Char
  fraction : List Char
  power : List Char
  smaller : Bool

def numeralParts (cs : List Char) : NumeralParts :=
  let unsigned := cs.dropWhile (· == '-')
  let mantissa := unsigned.takeWhile fun c => !isExponentMark c
  let power := (unsigned.drop mantissa.length).drop 1
  let whole := mantissa.takeWhile (· != '.')
  ⟨whole, mantissa.drop (whole.length + 1), power.filter fun c => c != '+' && c != '-',
    power.head? == some '-'⟩

/-- The digits that count and the power of ten of what stands before the exponent. -/
def significand (parts : NumeralParts) : Nat × Int :=
  let (whole, dropped) := appendDigits 0 parts.whole
  let (value, ignored) := appendDigits whole parts.fraction
  (value, (dropped.length : Int) - (parts.fraction.length - ignored.length : Nat))

/-- Whether `digits` times a power of ten is finite. Small numbers may become zero. -/
def isFiniteScaled (digits : Nat) (power : Int) : Bool :=
  if digits = 0 ∨ power < 0 then true
  else if 308 < power then false
  else
    Text.roundToDouble digits * Text.roundToDouble (Nat.pow 10 power.toNat) < Text.doubleBound

/-- The largest exponent that is taken at its value. -/
def exponentBound : Nat := Text.valuesOf 31 - 1

/-- Whether a numeral is finite. An exponent that is too large is not added to anything. -/
def isFinite (written : String) : Bool :=
  let parts := numeralParts written.toList
  let (digits, power) := significand parts
  let exponent := (Text.digitsFrom? 0 parts.power).getD 0
  if exponentBound < exponent then digits = 0 || parts.smaller
  else isFiniteScaled digits (if parts.smaller then power - exponent else power + exponent)

end LockUsage.Json
