import LockUsage.Text.Numeral

/-! Sets of code points, kept as ranges. Surrogates are no characters and are in no set. -/

namespace LockUsage.Text

/-- The ranges are in increasing order, with gaps between them. Their ends are included. -/
structure CodeSet where
  ranges : Array (Nat × Nat)
deriving DecidableEq

/-- The largest code point. -/
def lastCode : Nat := 0x10ffff

/-- The part of a range below the surrogates and the part above them. -/
def withoutSurrogates (range : Nat × Nat) : List (Nat × Nat) :=
  [(range.1, min range.2 0xd7ff), (max range.1 0xe000, min range.2 lastCode)].filter fun part =>
    part.1 ≤ part.2

/-- Joins ranges that touch. They come in the order of their first code points. -/
def joinFrom (first last : Nat) : List (Nat × Nat) → List (Nat × Nat)
  | [] => [(first, last)]
  | (f, l) :: rest =>
    if f ≤ last + 1 then joinFrom first (max last l) rest else (first, last) :: joinFrom f l rest

def joinRanges : List (Nat × Nat) → List (Nat × Nat)
  | [] => []
  | (first, last) :: rest => joinFrom first last rest

/-- The code points from `next` on that are in no range. -/
def gapsFrom (next : Nat) : List (Nat × Nat) → List (Nat × Nat)
  | [] => if next ≤ lastCode then [(next, lastCode)] else []
  | (f, l) :: rest =>
    if next < f then (next, f - 1) :: gapsFrom (l + 1) rest else gapsFrom (l + 1) rest

/-- Looks for a code point among the ranges from `low` up to, but not including, `high`. -/
def searchRanges (ranges : Array (Nat × Nat)) (code : Nat) : Nat → Nat → Nat → Bool
  | 0, _, _ => false
  | fuel + 1, low, high =>
    match ranges[(low + high) / 2]? with
    | none => false
    | some (f, l) =>
      if high ≤ low then false
      else if code < f then searchRanges ranges code fuel low ((low + high) / 2)
      else if l < code then searchRanges ranges code fuel ((low + high) / 2 + 1) high
      else true

namespace CodeSet

def empty : CodeSet := ⟨#[]⟩

/-- The set of all code points in some of the ranges. -/
def ofRanges (ranges : List (Nat × Nat)) : CodeSet :=
  ⟨(joinRanges ((ranges.flatMap withoutSurrogates).mergeSort fun r s => r.1 ≤ s.1)).toArray⟩

def range (first last : Nat) : CodeSet := ofRanges [(first, last)]

def single (code : Nat) : CodeSet := range code code

def all : CodeSet := range 0 lastCode

def ascii : CodeSet := range 0 0x7f

def contains (s : CodeSet) (code : Nat) : Bool :=
  searchRanges s.ranges code s.ranges.size 0 s.ranges.size

def isEmpty (s : CodeSet) : Bool := s.ranges.isEmpty

def union (s t : CodeSet) : CodeSet := ofRanges (s.ranges.toList ++ t.ranges.toList)

def compl (s : CodeSet) : CodeSet := ofRanges (gapsFrom 0 s.ranges.toList)

def inter (s t : CodeSet) : CodeSet := (s.compl.union t.compl).compl

def minus (s t : CodeSet) : CodeSet := (s.compl.union t).compl

/-- What is in exactly one of the two. -/
def differing (s t : CodeSet) : CodeSet := (s.minus t).union (t.minus s)

/-- The only member, if there is just one. -/
def single? (s : CodeSet) : Option Char :=
  match s.ranges.toList with
  | [(first, last)] => if first = last then scalar? first else none
  | _ => none

def isAscii (s : CodeSet) : Bool := s.ranges.all fun r => r.2 ≤ 0x7f

end CodeSet

/-! ### Tables

Large sets are written as text: hexadecimal code points and ranges of them between blanks, as in
`41-5A 5F`, or runs that follow each other from the first code point on, each with the code of what
its members have in common and a count, as in `Cc32 Zs1`. -/

/-- The words of a table. -/
def tableWords (text : String) : List (List Char) :=
  (text.toList.splitBy fun a b => (a == ' ' || a == '\n') == (b == ' ' || b == '\n')).filter
    fun word => word.head?.any fun c => c != ' ' && c != '\n'

/-- A code point, or two with a hyphen between them. -/
def tableRange (word : List Char) : Nat × Nat :=
  let first := word.takeWhile (· != '-')
  let last := if first.length < word.length then word.drop (first.length + 1) else first
  ((hexDigits? first).getD 0, (hexDigits? last).getD 0)

def CodeSet.ofText (text : String) : CodeSet := .ofRanges ((tableWords text).map tableRange)

/-- Runs one after the other. Codes have a fixed width. -/
def runsFrom (width : Nat) (first : Nat) : List (List Char) → List (String × Nat × Nat)
  | [] => []
  | word :: rest =>
    let count := (natural? (word.drop width)).getD 0
    (String.ofList (word.take width), first, first + count - 1) ::
      runsFrom width (first + count) rest

def tableRuns (width : Nat) (text : String) : List (String × Nat × Nat) :=
  runsFrom width 0 (tableWords text)

/-- The runs with one of the codes. -/
def CodeSet.ofRuns (runs : List (String × Nat × Nat)) (codes : List String) : CodeSet :=
  .ofRanges ((runs.filter fun run => run.1 ∈ codes).map (·.2))

end LockUsage.Text
