import LockUsage.NamePattern.Anchor

/-! Patterns for names, in a normal form: no part of a sequence is a sequence or empty, literals do
not touch each other, no alternative is a choice, and a choice between characters is a set. -/

namespace LockUsage.NamePattern

open Text (CodeSet)

inductive Pattern where
  | empty
  /-- These characters, one after the other. -/
  | literal (text : List Char)
  | one (set : CodeSet)
  | anchor (anchor : Anchor)
  /-- A group whose match is of interest by itself. -/
  | capture (pattern : Pattern)
  /-- The pattern repeated, without an upper bound if `most` is empty. -/
  | times (pattern : Pattern) (least : Nat) (most : Option Nat)
  | seq (first rest : Pattern)
  | alt (first rest : Pattern)
deriving DecidableEq

namespace Pattern

/-- The patterns that match one after the other. -/
def parts : Pattern → List Pattern
  | empty => []
  | seq first rest => first :: rest.parts
  | p => [p]

/-- The patterns of which one has to match. -/
def alternatives : Pattern → List Pattern
  | alt first rest => first :: rest.alternatives
  | p => [p]

def ofSet (set : CodeSet) : Pattern :=
  match set.single? with
  | some c => .literal [c]
  | none => .one set

def joinLiterals : List Pattern → List Pattern
  | [] => []
  | p :: rest =>
    match p, joinLiterals rest with
    | .literal a, .literal b :: rest => .literal (a ++ b) :: rest
    | p, rest => p :: rest

def chain : List Pattern → Pattern
  | [] => .empty
  | [p] => p
  | p :: rest => .seq p (chain rest)

def concat (patterns : List Pattern) : Pattern := chain (joinLiterals (patterns.flatMap parts))

def choice : List Pattern → Pattern
  | [] => .one .empty
  | [p] => p
  | p :: rest => .alt p (choice rest)

/-- The set that matches the same, for a literal of one character. -/
def charSet? : Pattern → Option CodeSet
  | literal [c] => some (.single c.toNat)
  | _ => none

def set? : Pattern → Option CodeSet
  | one set => some set
  | _ => none

/-- The parts of a sequence of at least two. -/
def sequence? : Pattern → Option (List Pattern)
  | seq first rest => some (first :: rest.parts)
  | _ => none

def commonPrefix (a b : List Pattern) : List Pattern :=
  ((a.zip b).takeWhile fun (x, y) => x = y).map (·.1)

/-- The parts with which all sequences start. -/
def sharedParts : List (List Pattern) → List Pattern
  | [] => []
  | s :: rest => rest.foldl commonPrefix s

def unionOf (sets : List CodeSet) : CodeSet :=
  .ofRanges (sets.flatMap fun set => set.ranges.toList)

/-- One of several patterns. What all of them start with is written once. -/
def anyOfWithin : Nat → List Pattern → Pattern
  | 0, patterns => choice patterns
  | fuel + 1, patterns =>
    let patterns := patterns.flatMap alternatives
    match patterns with
    | [p] => p
    | patterns =>
      match patterns.mapM charSet?, patterns.mapM set?, patterns.mapM sequence? with
      | some sets, _, _ => ofSet (unionOf sets)
      | none, some sets, _ => ofSet (unionOf sets)
      | none, none, some sequences =>
        let shared := sharedParts sequences
        if shared.isEmpty then choice patterns
        else
          concat (shared ++
            [anyOfWithin fuel (sequences.map fun s => concat (s.drop shared.length))])
      | none, none, none => choice patterns

def anyOf (patterns : List Pattern) : Pattern :=
  anyOfWithin ((patterns.map fun p => p.parts.length).foldl (· + ·) 1) patterns

/-- Whether only the empty text can match. -/
def isHollow : Pattern → Bool
  | empty | anchor _ => true
  | literal _ | one _ => false
  | capture p => p.isHollow
  | times p _ most => most.isSome && p.isHollow
  | seq first rest => first.isHollow && rest.isHollow
  | alt first rest => first.isHollow && rest.isHollow

/-- A repetition. Repeating what matches nothing but the empty text adds nothing. -/
def repeated (p : Pattern) (least : Nat) (most : Option Nat) : Pattern :=
  let (least, most) :=
    if p.isHollow then (min least 1, some (min (most.getD 1) 1)) else (least, most)
  if least = 0 ∧ most = some 0 then .empty
  else if least = 1 ∧ most = some 1 then p
  else .times p least most

/-- The number of characters that a match has at least, unless nothing can match. -/
def minLength? : Pattern → Option Nat
  | empty | anchor _ => some 0
  | literal text => some text.length
  | one set => if set.isEmpty then none else some 1
  | capture p => p.minLength?
  | times p least _ => p.minLength?.map (· * least)
  | seq first rest => do return (← first.minLength?) + (← rest.minLength?)
  | alt first rest => do return min (← first.minLength?) (← rest.minLength?)

end Pattern

end LockUsage.NamePattern
