import LockUsage.Report.Statistic

/-! Durations as text: in the largest unit of which there is a whole one, with as many decimal
places as needed. -/

namespace LockUsage.Duration

/-- The digits of a fraction, with leading zeros up to the width and without trailing ones. -/
def fractionText (width fraction : Nat) : String :=
  let digits := Nat.toDigits 10 fraction
  let padded := List.replicate (width - digits.length) '0' ++ digits
  let needed := (padded.reverse.dropWhile (· == '0')).reverse
  if needed.isEmpty then "" else "." ++ String.ofList needed

/-- A whole number of units and a fraction of so many decimal places. -/
def decimalText (whole fraction width : Nat) (unit : String) : String :=
  toString whole ++ fractionText width fraction ++ unit

def text (d : Duration) : String :=
  if 0 < d.secs then decimalText d.secs d.nanos 9 "s"
  else if 1000000 ≤ d.nanos then decimalText (d.nanos / 1000000) (d.nanos % 1000000) 6 "ms"
  else if 1000 ≤ d.nanos then decimalText (d.nanos / 1000) (d.nanos % 1000) 3 "µs"
  else decimalText d.nanos 0 0 "ns"

/-- A duration of the given seconds and nanoseconds, whole seconds of the latter carried over. -/
def of? (secs nanos : Nat) : Option Duration :=
  let secs := secs + nanos / 1000000000
  if secs < Text.valuesOf 64 then some ⟨secs, nanos % 1000000000⟩ else none

end LockUsage.Duration
