import LockUsage.Text.CodeSet

/-! Ranges of characters as sequences of ranges of bytes. -/

namespace LockUsage.NamePattern

open Text (CodeSet)

/-- A range of bytes, ends included. -/
abbrev ByteRange := Nat × Nat

/-- The bytes of a code point. -/
def encode (code : Nat) : List Nat :=
  if code ≤ 0x7f then [code]
  else if code ≤ 0x7ff then [0xc0 + code / 64, 0x80 + code % 64]
  else if code ≤ 0xffff then [0xe0 + code / 4096, 0x80 + code / 64 % 64, 0x80 + code % 64]
  else
    [0xf0 + code / 262144, 0x80 + code / 4096 % 64, 0x80 + code / 64 % 64, 0x80 + code % 64]

/-- Where to cut a range so that the number of bytes, or all bytes but the last few, are the same in
each piece: the last code point of the first piece. -/
def cut? (first last : Nat) : Option Nat :=
  match [0x7f, 0x7ff, 0xffff].find? fun border => first ≤ border && border < last with
  | some border => some border
  | none =>
    if last ≤ 0x7f then none
    else
      [64, 4096, 262144].findSome? fun block =>
        if first / block = last / block then none
        else if first % block ≠ 0 then some (first / block * block + (block - 1))
        else if last % block ≠ block - 1 then some (last / block * block - 1)
        else none

/-- The sequences of byte ranges for a range of code points. -/
def sequencesWithin : Nat → Nat → Nat → List (List ByteRange)
  | 0, _, _ => []
  | fuel + 1, first, last =>
    match cut? first last with
    | some border => sequencesWithin fuel first border ++ sequencesWithin fuel (border + 1) last
    | none => [(encode first).zip (encode last)]

/-- The sequences for a set, in increasing order. A range is cut a few times for each byte. -/
def sequences (set : CodeSet) : List (List ByteRange) :=
  set.ranges.toList.flatMap fun (first, last) => sequencesWithin 32 first last

/-- Groups of sequences with the same first range, which is taken off. -/
def byFirst (sequences : List (List ByteRange)) : List (ByteRange × List (List ByteRange)) :=
  (sequences.splitBy fun s t => s.head? == t.head?).filterMap fun group =>
    (group.head?.bind (·.head?)).map (·, group.map List.tail)

end LockUsage.NamePattern
