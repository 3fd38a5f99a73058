import LockUsage.NamePattern.Escape

/-! Reading sets in brackets, and how deeply they are nested. -/

namespace LockUsage.NamePattern

open Text (CodeSet)

/-- A set with the depth of its nesting. -/
structure NestedSet where
  set : CodeSet
  depth : Nat

/-- Items that are read so far and belong to one set. -/
structure Items where
  set : CodeSet
  count : Nat
  depth : Nat

namespace Items

def none : Items := ⟨.empty, 0, 0⟩

def add (items : Items) (item : NestedSet) : Items :=
  ⟨items.set.union item.set, items.count + 1, max items.depth item.depth⟩

/-- Several items are one level deeper than one of them alone. -/
def nested (items : Items) : NestedSet :=
  ⟨items.set, if items.count ≤ 1 then items.depth else items.depth + 1⟩

end Items

/-- An operation that waits for its right operand. -/
abbrev PendingSet := Option (NestedSet × (CodeSet → CodeSet → CodeSet))

/-- Applies the pending operation. Operands are closed under change of case first, if case does not
count. -/
def combine (flags : Flags) (pending : PendingSet) (items : Items) : NestedSet :=
  match pending with
  | none => items.nested
  | some (first, operation) =>
    ⟨operation (flags.fold first.set) (flags.fold items.set),
      max first.depth items.nested.depth + 1⟩

/-- `[:name:]` after its opening bracket. A name that is not known makes it an ordinary set. -/
def readNamed? : List Char → Option ((CodeSet × Bool) × List Char)
  | ':' :: rest => do
    let (negated, rest) := match rest with
      | '^' :: rest => (true, rest)
      | rest => (false, rest)
    let name := rest.takeWhile (· != ':')
    let set ← asciiClass? (String.ofList name)
    match rest.drop name.length with
    | ':' :: ']' :: rest => return ((set, negated), rest)
    | _ => none
  | _ => none

/-- One character or escape within brackets. -/
def readMember (flags : Flags) : List Char → Option (Escape × List Char)
  | [] => none
  | '\\' :: rest => readEscape flags rest
  | c :: rest => some (.literal c, rest)

/-- A member or a range. A `-` before the closing bracket or another `-` makes no range. -/
def readRange (flags : Flags) (cs : List Char) : Option (CodeSet × List Char) := do
  let (first, rest) ← readMember flags cs
  let rest := skip flags rest
  let one : Option (CodeSet × List Char) := match first with
    | .literal c => (flags.member? c).map fun c => (.single c.toNat, rest)
    | .set set => some (set, rest)
    | .anchor _ => none
  match rest with
  | [] => none
  | '-' :: after =>
    match skip flags after with
    | [] => none
    | ']' :: _ | '-' :: _ => one
    | after =>
      match first, ← readMember flags after with
      | .literal c, (.literal d, rest) =>
        let first ← flags.member? c
        let last ← flags.member? d
        if first ≤ last then some (.range first.toNat last.toNat, rest) else none
      | _, _ => none
  | _ => one

/-- Leading hyphens stand for themselves, and so does a bracket that closes nothing yet. -/
def readLeading (flags : Flags) : Nat → Items → List Char → Items × List Char
  | fuel + 1, items, '-' :: rest =>
    readLeading flags fuel (items.add ⟨.single '-'.toNat, 0⟩) (skip flags rest)
  | _, items, ']' :: rest =>
    if items.count = 0 then (items.add ⟨.single ']'.toNat, 0⟩, rest) else (items, ']' :: rest)
  | _, items, cs => (items, cs)

/-- The rest of a set in brackets, after the opening one. -/
def readSet (flags : Flags) : Nat → List Char → Option (NestedSet × List Char)
  | 0, _ => none
  | fuel + 1, cs =>
    let cs := skip flags cs
    let (negated, cs) := match cs with
      | '^' :: rest => (true, skip flags rest)
      | cs => (false, cs)
    let (leading, cs) := readLeading flags cs.length .none cs
    (readMembers fuel none leading cs).bind fun (nested, rest) =>
      (flags.negate? negated (flags.fold nested.set)).map fun set => (⟨set, nested.depth⟩, rest)
where
  readMembers : Nat → PendingSet → Items → List Char → Option (NestedSet × List Char)
    | 0, _, _, _ => none
    | fuel + 1, pending, items, cs =>
      match skip flags cs with
      | [] => none
      | ']' :: rest => some (combine flags pending items, rest)
      | '[' :: rest =>
        match readNamed? rest with
        | some ((set, negated), rest) => do
          let set ← flags.negate? negated (flags.fold set)
          readMembers fuel pending (items.add ⟨set, 0⟩) rest
        | none => do
          let (nested, rest) ← readSet flags fuel rest
          readMembers fuel pending (items.add ⟨nested.set, nested.depth + 1⟩) rest
      | '&' :: '&' :: rest =>
        readMembers fuel (some (combine flags pending items, .inter)) .none rest
      | '-' :: '-' :: rest =>
        readMembers fuel (some (combine flags pending items, .minus)) .none rest
      | '~' :: '~' :: rest =>
        readMembers fuel (some (combine flags pending items, .differing)) .none rest
      | cs => do
        let (range, rest) ← readRange flags cs
        readMembers fuel pending (items.add ⟨range, 0⟩) rest

end LockUsage.NamePattern
