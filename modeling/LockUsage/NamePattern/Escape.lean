import LockUsage.NamePattern.Anchor
import LockUsage.Text.CaseFolding

/-! How the characters of a pattern are to be understood, and what may follow a backslash. -/

namespace LockUsage.NamePattern

open Text (CodeSet)

structure Flags where
  ignoreCase : Bool
  /-- `^` and `$` match at line ends. -/
  multiLine : Bool
  /-- `.` matches at line ends. -/
  dotNewline : Bool
  /-- A carriage return ends lines as well. -/
  crlf : Bool
  /-- Sets, words and case are those of ASCII. -/
  ascii : Bool
  /-- Blanks and comments in the pattern are skipped. -/
  spaced : Bool

namespace Flags

def default : Flags := ⟨false, false, false, false, false, false⟩

/-- The flags after a letter was set or cleared. Greediness does not change what is found. -/
def set? (f : Flags) (value : Bool) : Char → Option Flags
  | 'i' => some { f with ignoreCase := value }
  | 'm' => some { f with multiLine := value }
  | 's' => some { f with dotNewline := value }
  | 'R' => some { f with crlf := value }
  | 'u' => some { f with ascii := !value }
  | 'x' => some { f with spaced := value }
  | 'U' => some f
  | _ => none

/-- The set with what differs in case only, if case does not count. -/
def fold (f : Flags) (set : CodeSet) : CodeSet :=
  if f.ignoreCase then (if f.ascii then set.foldedAscii else set.folded) else set

/-- The complement, if asked for. Of a set of ASCII characters it would not be one. -/
def negate? (f : Flags) (negated : Bool) (set : CodeSet) : Option CodeSet :=
  if negated then (if f.ascii then none else some set.compl) else some set

/-- The character, if it can be in a set. -/
def member? (f : Flags) (c : Char) : Option Char := if f.ascii && !isAscii c then none else some c

end Flags

def skipComment : List Char → List Char
  | [] => []
  | c :: rest => if c = '\n' then rest else skipComment rest

/-- Skips blanks and comments where they do not count. -/
def skip (flags : Flags) (cs : List Char) : List Char :=
  if flags.spaced then skipFrom cs.length cs else cs
where
  skipFrom : Nat → List Char → List Char
    | fuel + 1, c :: rest =>
      if Text.isBlank c then skipFrom fuel rest
      else if c = '#' then skipFrom fuel (skipComment rest)
      else c :: rest
    | _, cs => cs

/-- The characters that pass a test, up to a number of them, and the rest. What does not count is
skipped after each. -/
def readWhile (flags : Flags) (test : Char → Bool) : Nat → List Char → List Char × List Char
  | n + 1, c :: rest =>
    if test c then
      let (more, rest) := readWhile flags test n (skip flags rest)
      (c :: more, rest)
    else ([], c :: rest)
  | _, cs => ([], cs)

inductive Escape where
  | literal (c : Char)
  | set (set : CodeSet)
  | anchor (anchor : Anchor)

def hexChar? (digits : List Char) : Option Char :=
  if digits.isEmpty then none else (Text.hexDigits? digits).bind Text.scalar?

def isHexDigit (c : Char) : Bool := (Text.hexDigit? c).isSome

/-- How many digits write a byte. -/
def byteWidth : Nat := 2

/-- The character with the code point that a fixed number of digits writes. Where sets are those of
ASCII, a byte beyond ASCII is no character. -/
def fixedChar? (flags : Flags) (width : Nat) (digits : List Char) : Option Char :=
  if digits.length < width then none
  else if width = byteWidth then (hexChar? digits).bind flags.member?
  else hexChar? digits

/-- A character by its code point: a fixed number of digits, or any number in braces. -/
def readHex (flags : Flags) (width : Nat) (cs : List Char) : Option (Char × List Char) :=
  match skip flags cs with
  | '\x7b' :: rest =>
    match readWhile flags isHexDigit rest.length (skip flags rest) with
    | (digits, '\x7d' :: rest) => (hexChar? digits).map (·, rest)
    | _ => none
  | cs =>
    let (digits, rest) := readWhile flags isHexDigit width cs
    (fixedChar? flags width digits).map (·, rest)

/-- A property by one letter, or by a text in braces. -/
def readProperty (flags : Flags) (negated : Bool) (cs : List Char) :
    Option (CodeSet × List Char) := do
  let (name, rest) ← match skip flags cs with
    | '\x7b' :: rest =>
      match readWhile flags (· != '\x7d') rest.length (skip flags rest) with
      | (name, _ :: rest) => some (name, rest)
      | (_, []) => none
    | '\\' :: _ => none
    | c :: rest => some ([c], rest)
    | [] => none
  if flags.ascii then none
  else
    let (set, complement) ← if name.length = 1 then (namedClass? (looseName name)).map (·, false)
      else propertyClass? name
    return ((if negated != complement then (flags.fold set).compl else flags.fold set), rest)

/-- The kinds of word boundaries that have a name. -/
def boundary? (ascii : Bool) : String → Option Anchor
  | "start" => some (.wordStart ascii)
  | "end" => some (.wordEnd ascii)
  | "start-half" => some (.beforeWord ascii)
  | "end-half" => some (.afterWord ascii)
  | _ => none

def isBoundaryChar (c : Char) : Bool := asciiLetters.contains c.toNat || c == '-'

/-- What follows `\b`: a name in braces, or nothing that belongs to it. -/
def readBoundary (flags : Flags) (cs : List Char) : Option (Anchor × List Char) :=
  match cs with
  | '\x7b' :: rest =>
    match readWhile flags isBoundaryChar rest.length (skip flags rest) with
    | ([], _) => some (.wordBoundary flags.ascii, cs)
    | (name, '\x7d' :: rest) => (boundary? flags.ascii (String.ofList name)).map (·, rest)
    | _ => none
  | _ => some (.wordBoundary flags.ascii, cs)

/-- ASCII characters other than letters and digits stand for themselves after a backslash. -/
def isEscapable (c : Char) : Bool :=
  isAscii c && !asciiLetters.contains c.toNat && !asciiDigits.contains c.toNat

/-- What follows a backslash. -/
def readEscape (flags : Flags) : List Char → Option (Escape × List Char)
  | [] => none
  | c :: rest =>
    let set (unicode ascii : CodeSet) (negated : Bool) : Option (Escape × List Char) :=
      (flags.negate? negated (if flags.ascii then ascii else unicode)).map fun s => (.set s, rest)
    let literal (c : Char) : Option (Escape × List Char) := some (.literal c, rest)
    let hex (width : Nat) : Option (Escape × List Char) :=
      (readHex flags width rest).map fun (c, rest) => (.literal c, rest)
    match c with
    | 'd' => set Text.digits asciiDigits false
    | 'D' => set Text.digits asciiDigits true
    | 'w' => set Text.wordChars asciiWordChars false
    | 'W' => set Text.wordChars asciiWordChars true
    | 's' => set spaceChars asciiSpaces false
    | 'S' => set spaceChars asciiSpaces true
    | 'p' => (readProperty flags false rest).map fun (set, rest) => (.set set, rest)
    | 'P' => (readProperty flags true rest).map fun (set, rest) => (.set set, rest)
    | 'x' => hex byteWidth
    | 'u' => hex 4
    | 'U' => hex 8
    | 'a' => literal '\x07'
    | 'f' => literal '\x0c'
    | 't' => literal '\t'
    | 'n' => literal '\n'
    | 'r' => literal '\r'
    | 'v' => literal '\x0b'
    | 'A' => some (.anchor .textStart, rest)
    | 'z' => some (.anchor .textEnd, rest)
    | 'b' => (readBoundary flags rest).map fun (a, rest) => (.anchor a, rest)
    | 'B' => some (.anchor (.noWordBoundary flags.ascii), rest)
    | '<' => some (.anchor (.wordStart flags.ascii), rest)
    | '>' => some (.anchor (.wordEnd flags.ascii), rest)
    | c => if isEscapable c then literal c else none

end LockUsage.NamePattern
