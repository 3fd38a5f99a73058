import LockUsage.Text.Double
import LockUsage.Toml.Table

/-! Numbers, truth values and dates of configuration files. -/

namespace LockUsage.Toml

def isDecimal (c : Char) : Bool := (Text.digit? c).isSome

/-- Digits without the underscores between them. Underscores stand between two digits. -/
def ungroup? (afterDigit : Bool) : List Char → Option (List Char)
  | [] => if afterDigit then some [] else none
  | '_' :: rest => if afterDigit then ungroup? false rest else none
  | c :: rest => (ungroup? true rest).map (c :: ·)

def groupedDigits? (isDigit : Char → Bool) (cs : List Char) : Option (List Char) := do
  let digits ← ungroup? false cs
  if digits.all isDigit then some digits else none

def signed : List Char → Bool × List Char
  | '-' :: rest => (true, rest)
  | '+' :: rest => (false, rest)
  | cs => (false, cs)

/-- A decimal number without leading zeros. -/
def decimal? (cs : List Char) : Option Nat := do
  let digits ← groupedDigits? isDecimal cs
  if digits.head? = some '0' ∧ digits.length ≠ 1 then none else Text.natural? digits

/-- A number in a base that is a power of two. -/
def based? (base : Nat) (cs : List Char) : Option Nat := do
  let digits ← groupedDigits? (fun c => (Text.hexDigit? c).any (· < base)) cs
  return digits.foldl (fun value c => base * value + (Text.hexDigit? c).getD 0) 0

def writtenInteger? : List Char → Option Int
  | '0' :: 'x' :: rest => (based? 16 rest).map fun n => (n : Int)
  | '0' :: 'o' :: rest => (based? 8 rest).map fun n => (n : Int)
  | '0' :: 'b' :: rest => (based? 2 rest).map fun n => (n : Int)
  | cs =>
    let (negative, digits) := signed cs
    (decimal? digits).map fun n => if negative then -(n : Int) else n

/-- An integer of 128 bits, with or without a sign. -/
def integer? (cs : List Char) : Option Int :=
  (writtenInteger? cs).filter fun value =>
    -(Text.valuesOf 127 : Int) ≤ value && value < Text.valuesOf 128

def isExponentMark (c : Char) : Bool := c == 'e' || c == 'E'

/-- The power of ten after its mark, with an optional sign. -/
def exponent? (cs : List Char) : Option Int := do
  let (negative, digits) := signed cs
  let value ← Text.natural? (← groupedDigits? isDecimal digits)
  return if negative then -(value : Int) else value

/-- What follows the whole part of a number: the digits of the fraction and the power of ten. One of
them has to be there. -/
def tail? : List Char → Option (List Char × Int)
  | '.' :: rest => do
    let written := rest.takeWhile fun c => !isExponentMark c
    let fraction ← groupedDigits? isDecimal written
    match rest.drop written.length with
    | [] => return (fraction, 0)
    | _ :: power => return (fraction, ← exponent? power)
  | _ :: power => do return ([], ← exponent? power)
  | [] => none

/-- A number with a fraction, an exponent or both, that is not too large. Infinity is spelt out. -/
def isFloat (cs : List Char) : Bool :=
  let digits := (signed cs).2
  let whole := digits.takeWhile fun c => c != '.' && !isExponentMark c
  digits = ['i', 'n', 'f'] || digits = ['n', 'a', 'n'] ||
    match decimal? whole, tail? (digits.drop whole.length) with
    | some whole, some (fraction, power) =>
      let value := (Text.digitsFrom? whole fraction).getD 0
      Text.isFiniteDecimal value (power - fraction.length)
    | _, _ => false

def twoDigits? : List Char → Option (Nat × List Char)
  | a :: b :: rest => (Text.natural? [a, b]).map (·, rest)
  | _ => none

def isLeapYear (year : Nat) : Bool := year % 4 == 0 && (year % 100 != 0 || year % 400 == 0)

def daysOf (year month : Nat) : Nat :=
  if month = 2 then (if isLeapYear year then 29 else 28)
  else if month ∈ [4, 6, 9, 11] then 30
  else 31

/-- A day, and what follows it. -/
def readDay? : List Char → Option (List Char)
  | a :: b :: c :: d :: '-' :: rest => do
    let year ← Text.natural? [a, b, c, d]
    match ← twoDigits? rest with
    | (month, '-' :: rest) =>
      let (day, rest) ← twoDigits? rest
      if 1 ≤ month ∧ month ≤ 12 ∧ 1 ≤ day ∧ day ≤ daysOf year month then some rest else none
    | _ => none
  | _ => none

/-- The seconds of a time of day, if there are any, and what follows them. -/
def readSeconds? : List Char → Option (List Char)
  | ':' :: rest => do
    let (second, rest) ← twoDigits? rest
    if 60 < second then none
    else
      match rest with
      | '.' :: fraction =>
        let digits := fraction.takeWhile isDecimal
        if digits.isEmpty then none else some (fraction.drop digits.length)
      | rest => some rest
  | cs => some cs

/-- A time of day, and what follows it. -/
def readTime? (cs : List Char) : Option (List Char) := do
  match ← twoDigits? cs with
  | (hour, ':' :: rest) =>
    let (minute, rest) ← twoDigits? rest
    if 23 < hour ∨ 59 < minute then none else readSeconds? rest
  | _ => none

def isOffset : List Char → Bool
  | [] | ['Z'] | ['z'] => true
  | sign :: a :: b :: ':' :: c :: d :: [] =>
    (sign == '+' || sign == '-') && (Text.natural? [a, b]).any (· < 24) &&
      (Text.natural? [c, d]).any (· < 60)
  | _ => false

/-- A day, a time of day, or both with an offset. -/
def isDate (cs : List Char) : Bool :=
  match readDay? cs with
  | some [] => true
  | some (mark :: rest) =>
    (mark == 'T' || mark == 't' || mark == ' ') && (readTime? rest).any isOffset
  | none => readTime? cs == some []

/-- The value that a word writes. -/
def scalar? (word : List Char) : Option Value :=
  if word = "true".toList then some (.boolean true)
  else if word = "false".toList then some (.boolean false)
  else
    match integer? word with
    | some value => some (.integer value)
    | none =>
      if isFloat word then some (.float (String.ofList word))
      else if isDate word then some (.date (String.ofList word))
      else none

end LockUsage.Toml
