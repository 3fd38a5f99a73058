import LockUsage.NamePattern.Basic
import LockUsage.NamePattern.Encoding
import Std.Data.HashMap

/-! How much room the automata of a pattern take. There is one that reads texts forwards and one
that reads them backwards, byte by byte, and a pattern is of use if each fits into 10 MiB.

A state takes 32 bytes. A state that offers several ways on takes 4 bytes more for each, and 8 bytes
for each range of bytes if it tells them apart by the next byte. -/

namespace LockUsage.NamePattern

open Text (CodeSet)

inductive Direction where
  | forward
  | backward
deriving DecidableEq

def stateSize : Nat := 32

def waySize : Nat := 4

def rangeSize : Nat := 8

def sizeLimit : Nat := 10 * 1048576

/-! ### Sets -/

/-- A state that tells ranges of bytes apart: each with the number of the state it leads to. -/
abbrev ByteNode := List (ByteRange × Nat)

abbrev NodeTable := Std.HashMap ByteNode Nat

/-- The number of a state. States that are alike are made once. -/
def NodeTable.intern (table : NodeTable) (node : ByteNode) : NodeTable × Nat :=
  match table[node]? with
  | some number => (table, number)
  | none => (table.insert node (table.size + 1), table.size + 1)

/-- Makes the state at which sequences start. The last ranges lead to state 0. -/
def addNode : Nat → NodeTable → List (List ByteRange) → NodeTable × Nat
  | 0, table, _ => (table, 0)
  | fuel + 1, table, sequences =>
    let (table, node) := (byFirst sequences).foldl (fun (table, node) (range, tails) =>
      if tails.all List.isEmpty then (table, node ++ [(range, 0)])
      else
        let (table, number) := addNode fuel table tails
        (table, node ++ [(range, number)])) (table, [])
    table.intern node

/-- The number of ranges after which sequences differ, those that they share counted once. -/
def branches : Nat → List (List ByteRange) → Nat
  | 0, _ => 0
  | fuel + 1, sequences =>
    (byFirst sequences).foldl (fun count (_, tails) => count + 1 + branches fuel tails) 0

/-- A character has at most four bytes. -/
def setSize (direction : Direction) (set : CodeSet) : Nat :=
  if set.isAscii then 2 * stateSize + rangeSize * set.ranges.size
  else
    let all := sequences set
    match direction with
    | .forward =>
      (addNode 5 ∅ all).1.fold (fun size node _ => size + stateSize + rangeSize * node.length)
        stateSize
    | .backward => 2 * stateSize + stateSize * branches 5 all + waySize * all.length

/-! ### Choices between literals

They share their beginnings. Where one literal ends and another goes on, those that were given
before the end come before it. -/

/-- The literals between those that end here. -/
def chunks : List (List Nat) → List (List (List Nat))
  | [] => [[]]
  | tail :: rest =>
    match tail, chunks rest with
    | [], later => [] :: later
    | tail, chunk :: later => (tail :: chunk) :: later
    | tail, [] => [[tail]]

/-- The literals by their first byte, which is taken off. -/
def byByte (chunk : List (List Nat)) : List (List (List Nat)) :=
  let starts := (chunk.filterMap List.head?).eraseDups
  starts.map fun byte => (chunk.filter fun s => s.head? == some byte).map List.tail

/-- The room for all states from one on at which some literals go on. -/
def trieSize : Nat → List (List Nat) → Nat
  | 0, _ => 0
  | fuel + 1, tails =>
    let tails := (tails.takeWhile List.isEmpty).take 1 ++ tails.dropWhile List.isEmpty
    let groups := (chunks tails).map byByte
    let own := groups.foldl (fun size group =>
      size + match group.length with
        | 0 => 0
        | 1 => stateSize + waySize
        | n => stateSize + waySize + rangeSize * n) (stateSize + waySize * (groups.length - 1))
    groups.foldl (fun size group =>
      group.foldl (fun size tails =>
        if tails.all List.isEmpty then size else size + trieSize fuel tails) size) own

def bytesOf (direction : Direction) (text : List Char) : List Nat :=
  let bytes := text.flatMap fun c => encode c.toNat
  match direction with
  | .forward => bytes
  | .backward => bytes.reverse

def literalsSize (direction : Direction) (literals : List (List Char)) : Nat :=
  let all := literals.map (bytesOf direction)
  stateSize + trieSize ((all.map List.length).foldl max 0 + 1) all

/-! ### Patterns -/

namespace Pattern

def literal? : Pattern → Option (List Char)
  | literal text => some text
  | _ => none

/-- The room for some number of turns, each of the given size. -/
def repeatedSize (turn : Nat) (consumes : Bool) (least : Nat) (most : Option Nat) : Nat :=
  let option := stateSize + 2 * waySize
  match most with
  | none =>
    match least with
    | 0 => if consumes then turn + option else turn + 2 * option + stateSize
    | least + 1 => (least + 1) * turn + option
  | some most =>
    if least = 0 ∧ most = 1 then turn + option + stateSize
    else if least = most then least * turn
    else
      (if least = 0 then stateSize else least * turn) + stateSize +
        (most - least) * (turn + option)

/-- An alternative takes room in the state that offers it. -/
def branchSize (asBranch : Bool) (size : Nat) : Nat := if asBranch then size + waySize else size

/-- The room for the states of a pattern, or the room for them as alternatives of a choice. -/
def size (direction : Direction) (asBranch : Bool) : Pattern → Nat
  | empty | anchor _ => branchSize asBranch stateSize
  | literal text => branchSize asBranch (stateSize * (bytesOf direction text).length)
  | one set => branchSize asBranch (setSize direction set)
  | capture p =>
    branchSize asBranch (p.size direction false + match direction with
      | .forward => 2 * stateSize
      | .backward => 0)
  | times p least most =>
    branchSize asBranch
      (repeatedSize (p.size direction false) (p.minLength?.any (0 < ·)) least most)
  | seq first rest => branchSize asBranch (first.size direction false + rest.size direction false)
  | alt first rest =>
    let branches := first.size direction false + waySize + rest.size direction true
    if asBranch then branches
    else
      match (alt first rest).alternatives.mapM literal? with
      | some literals => literalsSize direction literals
      | none => 2 * stateSize + branches

/-- The room for an automaton: the pattern, a start and an end, and the marks of the whole match. -/
def automatonSize (p : Pattern) (direction : Direction) : Nat :=
  (Pattern.capture p).size direction false + 2 * stateSize

def fits (p : Pattern) : Bool :=
  p.automatonSize .forward ≤ sizeLimit && p.automatonSize .backward ≤ sizeLimit

end Pattern

end LockUsage.NamePattern
