/-! Decimal numerals, with an optional sign and a range. -/

namespace LockUsage.Text

def digit? (c : Char) : Option Nat :=
  if '0' ≤ c ∧ c ≤ '9' then some (c.toNat - 48) else none

/-- The digits of `rest` appended to the number `value`. -/
def digitsFrom? (value : Nat) : List Char → Option Nat
  | [] => some value
  | c :: rest =>
    match digit? c with
    | some d => digitsFrom? (10 * value + d) rest
    | none => none

/-- One decimal digit or more, leading zeros included. -/
def natural? : List Char → Option Nat
  | [] => none
  | cs => digitsFrom? 0 cs

/-- How many values there are of so many bits. -/
def valuesOf (bits : Nat) : Nat := Nat.pow 2 bits

/-- An integer of 64 bits: an optional sign and digits. -/
def int64? (s : String) : Option Int := do
  let value : Int ← match s.toList with
    | '-' :: rest => (natural? rest).map fun n => -(n : Int)
    | '+' :: rest => (natural? rest).map fun n => (n : Int)
    | cs => (natural? cs).map fun n => (n : Int)
  if -(valuesOf 63 : Int) ≤ value ∧ value < valuesOf 63 then some value else none

/-- A natural number of 64 bits: an optional plus sign and digits. -/
def count? (s : String) : Option Nat := do
  let value ← match s.toList with
    | '+' :: rest => natural? rest
    | cs => natural? cs
  if value < valuesOf 64 then some value else none

def hexDigit? (c : Char) : Option Nat :=
  if '0' ≤ c ∧ c ≤ '9' then some (c.toNat - 48)
  else if 'a' ≤ c ∧ c ≤ 'f' then some (c.toNat - 87)
  else if 'A' ≤ c ∧ c ≤ 'F' then some (c.toNat - 55)
  else none

/-- The number written by the given hexadecimal digits, all of them digits. -/
def hexDigits? (cs : List Char) : Option Nat :=
  cs.foldl (fun value c => do return 16 * (← value) + (← hexDigit? c)) (some 0)

/-- Lower-case hexadecimal digits without leading zeros. -/
def hexText (n : Nat) : String := String.ofList (Nat.toDigits 16 n)

/-- The character with this code point, unless it is a surrogate or too large. -/
def scalar? (code : Nat) : Option Char :=
  if h : code.isValidChar then some (Char.ofNatAux code h) else none

end LockUsage.Text
