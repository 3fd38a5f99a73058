import LockUsage.NamePattern.Matcher
import LockUsage.NamePattern.SetReader
import LockUsage.NamePattern.Size

/-! Reading patterns. Malformed patterns have no reading, and neither have those that are nested too
deeply or take too much room. -/

namespace LockUsage.NamePattern

open Text (CodeSet)

/-! ### Repetitions and groups -/

def isDecimal (c : Char) : Bool := '0' ≤ c && c ≤ '9'

/-- A number with blanks around it. -/
def readNumber (flags : Flags) (cs : List Char) : Option (Nat × List Char) := do
  let cs := cs.dropWhile Text.isBlank
  let (digits, rest) := readWhile flags isDecimal cs.length cs
  let value ← Text.natural? digits
  if value < Text.valuesOf 32 then some (value, skip flags (rest.dropWhile Text.isBlank)) else none

/-- The bounds of a counted repetition, after the opening brace. -/
def readBounds (flags : Flags) (cs : List Char) : Option ((Nat × Option Nat) × List Char) := do
  let (least, rest) ← readNumber flags (skip flags cs)
  match rest with
  | '\x7d' :: rest => return ((least, some least), rest)
  | ',' :: rest =>
    match skip flags rest with
    | '\x7d' :: rest => return ((least, none), rest)
    | rest =>
      match ← readNumber flags rest with
      | (most, '\x7d' :: rest) => if least ≤ most then some ((least, some most), rest) else none
      | _ => none
  | _ => none

/-- Drops the mark of a repetition that prefers fewer turns. -/
def dropLazy : List Char → List Char
  | '?' :: rest => rest
  | cs => cs

/-- The flags of a group, up to the character that ends them. -/
def readFlags (flags : Flags) (value : Bool) (seen : List Char) :
    List Char → Option (Flags × List Char)
  | [] => none
  | c :: rest =>
    if c = ':' ∨ c = ')' then (if seen.head? = some '-' then none else some (flags, c :: rest))
    else if c ∈ seen then none
    else if c = '-' then readFlags flags false (c :: seen) rest
    else
      match flags.set? value c with
      | some flags => readFlags flags value (c :: seen) rest
      | none => none

def alphabeticChars : CodeSet := Text.Property.alphabetic.set

def numericChars : CodeSet := Text.withCategory ["Nd", "Nl", "No"]

/-- Whether a character may stand in the name of a group. -/
def isNameChar (first : Bool) (c : Char) : Bool :=
  c == '_' || alphabeticChars.contains c.toNat ||
    (!first && (c == '.' || c == '[' || c == ']' || numericChars.contains c.toNat))

/-- The name of a group, up to the bracket that ends it. -/
def readName (cs : List Char) : Option (String × List Char) :=
  let name := cs.takeWhile (· != '>')
  match name, cs.drop name.length with
  | c :: more, _ :: rest =>
    if isNameChar true c && more.all (isNameChar false) then some (String.ofList name, rest)
    else none
  | _, _ => none

/-! ### Patterns -/

/-- A part of a pattern with the depth of its nesting. A change of flags has no pattern, and cannot
be repeated. -/
structure Part where
  pattern? : Option Pattern
  depth : Nat

/-- Several parts are one level deeper than the deepest. -/
def nestedDepth (depths : List Nat) : Nat :=
  match depths with
  | [depth] => depth
  | [] => 0
  | depths => depths.foldl max 0 + 1

/-- The sequence of the parts read so far, which come last first. -/
def sequenceOf (parts : List Part) : Pattern × Nat :=
  (.concat (parts.reverse.filterMap Part.pattern?), nestedDepth (parts.map Part.depth))

/-- The choice between the alternatives read so far, which come last first. -/
def choiceOf (alternatives : List (Pattern × Nat)) : Pattern × Nat :=
  (.anyOf (alternatives.reverse.map (·.1)), nestedDepth (alternatives.map (·.2)))

/-- A character that stands for itself, or for all that differ from it in case only. -/
def literalOf (flags : Flags) (c : Char) : Pattern :=
  if !flags.ignoreCase then .literal [c]
  else if flags.ascii then .ofSet (CodeSet.single c.toNat).foldedAscii
  else .ofSet (.ofRanges ((Text.caseVariants c.toNat).map fun code => (code, code)))

def dot? (flags : Flags) : Option Pattern :=
  if flags.ascii then none
  else if flags.dotNewline then some (.one .all)
  else some (.one (if flags.crlf then CodeSet.ofText "A D" else CodeSet.ofText "A").compl)

/-- Reads alternatives up to the end of the text or a closing bracket. A repetition takes the part
before it. Group names are used once. -/
def readAlternatives : Nat → Flags → List String → List (Pattern × Nat) → List Part →
    List Char → Option ((Pattern × Nat) × List String × List Char)
  | 0, _, _, _, _, _ => none
  | fuel + 1, flags, names, alternatives, parts, cs =>
    let onward (pattern : Pattern) (depth : Nat) (rest : List Char) :=
      readAlternatives fuel flags names alternatives (⟨some pattern, depth⟩ :: parts) rest
    let repeated (least : Nat) (most : Option Nat) (rest : List Char) :=
      match parts with
      | ⟨some part, depth⟩ :: parts =>
        readAlternatives fuel flags names alternatives
          (⟨some (part.repeated least most), depth + 1⟩ :: parts) (dropLazy rest)
      | _ => none
    let group (capture : Bool) (inner : Flags) (names : List String) (rest : List Char) :=
      match readAlternatives fuel inner names [] [] rest with
      | some ((part, depth), names, ')' :: rest) =>
        readAlternatives fuel flags names alternatives
          (⟨some (if capture then .capture part else part), depth + 1⟩ :: parts) rest
      | _ => none
    let namedGroup (rest : List Char) :=
      match readName rest with
      | some (name, rest) => if name ∈ names then none else group true flags (name :: names) rest
      | none => none
    match skip flags cs with
    | [] => some (choiceOf (sequenceOf parts :: alternatives), names, [])
    | ')' :: rest => some (choiceOf (sequenceOf parts :: alternatives), names, ')' :: rest)
    | '|' :: rest => readAlternatives fuel flags names (sequenceOf parts :: alternatives) [] rest
    | '*' :: rest => repeated 0 none rest
    | '+' :: rest => repeated 1 none rest
    | '?' :: rest => repeated 0 (some 1) rest
    | '\x7b' :: rest =>
      match readBounds flags rest with
      | some ((least, most), rest) => repeated least most (skip flags rest)
      | none => none
    | '[' :: rest =>
      (readSet flags (2 * rest.length + 2) rest).bind fun (nested, rest) =>
        onward (.ofSet nested.set) (nested.depth + 1) rest
    | '.' :: rest => (dot? flags).bind fun part => onward part 0 rest
    | '^' :: rest =>
      onward (.anchor (if flags.multiLine then .lineStart flags.crlf else .textStart)) 0 rest
    | '$' :: rest =>
      onward (.anchor (if flags.multiLine then .lineEnd flags.crlf else .textEnd)) 0 rest
    | '\\' :: rest =>
      match readEscape flags rest with
      | some (.literal c, rest) => onward (literalOf flags c) 0 rest
      | some (.set set, rest) => onward (.ofSet set) 0 rest
      | some (.anchor a, rest) => onward (.anchor a) 0 rest
      | none => none
    | '(' :: rest =>
      match skip flags rest with
      | '?' :: '=' :: _ | '?' :: '!' :: _ | '?' :: '<' :: '=' :: _ | '?' :: '<' :: '!' :: _ => none
      | '?' :: 'P' :: '<' :: rest | '?' :: '<' :: rest => namedGroup rest
      | '?' :: rest =>
        match readFlags flags true [] rest with
        | some (inner, ':' :: after) => group false inner names after
        | some (inner, _ :: after) =>
          if rest.head? = some ')' then none
          else readAlternatives fuel inner names alternatives (⟨none, 0⟩ :: parts) after
        | _ => none
      | rest => group true flags names rest
    | c :: rest => onward (literalOf flags c) 0 rest

/-- How deeply a pattern may be nested. -/
def depthLimit : Nat := 250

/-- The pattern that a text writes, if it is well formed and within the limits. -/
def parse? (text : String) : Option Pattern :=
  let cs := text.toList
  match readAlternatives (cs.length + 1) .default [] [] [] cs with
  | some ((p, depth), _, []) => if depth ≤ depthLimit && p.fits then some p else none
  | _ => none

end LockUsage.NamePattern
