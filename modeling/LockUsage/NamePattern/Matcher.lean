import LockUsage.NamePattern.Basic

/-! Finding patterns in texts. A pattern becomes a machine whose states are numbered, and a text is
read once, with the set of the states in which the machine may be. -/

namespace LockUsage.NamePattern

open Text (CodeSet)

/-- What a machine does in a state. -/
inductive Move where
  | accept
  /-- Reads a character of a set. -/
  | read (set : CodeSet) (next : Nat)
  /-- Goes on if a condition holds at the position. -/
  | test (anchor : Anchor) (next : Nat)
  | fork (first second : Nat)

abbrev Machine := Array Move

namespace Machine

/-- Adds a state and gives its number. -/
def add (m : Machine) (move : Move) : Nat × Machine := (m.size, m.push move)

/-- Adds the states of a part. The part goes on to `next`, and the number of its first state is
given. -/
abbrev Part := Nat → Machine → Nat × Machine

def readAll : List Char → Part
  | [], next, m => (next, m)
  | c :: rest, next, m =>
    let (next, m) := readAll rest next m
    m.add (.read (.single c.toNat) next)

/-- Some number of copies, one after the other. -/
def copies (part : Part) : Nat → Part
  | 0, next, m => (next, m)
  | n + 1, next, m =>
    let (next, m) := part next m
    copies part n next m

/-- At most so many copies. Each can be left out with all that follow it. -/
def atMost (part : Part) : Nat → Part
  | 0, next, m => (next, m)
  | n + 1, next, m =>
    let (rest, m) := atMost part n next m
    let (first, m) := part rest m
    m.add (.fork first next)

/-- Any number of turns. The fork that starts each turn is made first, and gets its ways then. -/
def star (part : Part) : Part := fun next m =>
  let (fork, m) := m.add .accept
  let (first, m) := part fork m
  (fork, m.setIfInBounds fork (.fork first next))

end Machine

/-- The states of a pattern. In a text that is shorter than `turns` one of so many turns of a
repetition matches nothing, so that further ones change nothing. -/
def Pattern.states (turns : Nat) : Pattern → Machine.Part
  | empty, next, m => (next, m)
  | literal text, next, m => Machine.readAll text next m
  | one set, next, m => m.add (.read set next)
  | anchor a, next, m => m.add (.test a next)
  | capture p, next, m => p.states turns next m
  | times p least most, next, m =>
    let (next, m) := match most with
      | none => Machine.star (p.states turns) next m
      | some most => Machine.atMost (p.states turns) (min (most - least) turns) next m
    Machine.copies (p.states turns) (min least turns) next m
  | seq first rest, next, m =>
    let (next, m) := rest.states turns next m
    first.states turns next m
  | alt first rest, next, m =>
    let (second, m) := rest.states turns next m
    let (first, m) := first.states turns next m
    m.add (.fork first second)

/-- The machine of a pattern and the number of its first state. It ends in state 0. -/
def Pattern.machine (p : Pattern) (turns : Nat) : Nat × Machine := p.states turns 0 #[.accept]

/-- The states in which a machine may be at a position. -/
structure Front where
  /-- For each state the last position, counted from 1, at which it was looked at. -/
  seen : Array Nat
  /-- The states that read the next character. -/
  reading : List Nat
  accepts : Bool

/-- Takes in states and those that can be reached from them without reading. A state is looked at
once at each position, and makes at most two others pending. -/
def Machine.close (m : Machine) (holds : Anchor → Bool) (stamp : Nat) :
    Nat → List Nat → Front → Front
  | fuel + 1, state :: pending, front =>
    if front.seen[state]? == some stamp then Machine.close m holds stamp fuel pending front
    else
      let front := { front with seen := front.seen.setIfInBounds state stamp }
      match m[state]? with
      | some (.read _ _) =>
        Machine.close m holds stamp fuel pending { front with reading := state :: front.reading }
      | some (.test anchor next) =>
        Machine.close m holds stamp fuel (if holds anchor then next :: pending else pending) front
      | some (.fork first second) =>
        Machine.close m holds stamp fuel (first :: second :: pending) front
      | some .accept | none => { front with accepts := true }
  | _, _, front => front

/-- The state after a character is read, if it can be. -/
def Machine.next? (m : Machine) (c : Char) (state : Nat) : Option Nat :=
  match m[state]? with
  | some (.read set next) => if set.contains c.toNat then some next else none
  | _ => none

/-- Reads a text from a position on, in one of the pending states or a new start. -/
def Machine.findFrom (m : Machine) (start : Nat) (text : Array Char) (i : Nat) (seen : Array Nat)
    (pending : List Nat) (rest : List Char) : Bool :=
  let front := m.close (·.holds text i) (i + 1) (2 * m.size + pending.length + 2) (start :: pending)
    ⟨seen, [], false⟩
  front.accepts || match rest with
    | [] => false
    | c :: rest =>
      Machine.findFrom m start text (i + 1) front.seen (front.reading.filterMap (m.next? c)) rest

def Pattern.isFoundIn (p : Pattern) (name : String) : Bool :=
  let text := name.toList
  let (start, m) := p.machine (text.length + 1)
  m.findFrom start text.toArray 0 (Array.replicate m.size 0) [] text

end LockUsage.NamePattern
