import LockUsage.Alias.Basic
import LockUsage.Text.Blank
import LockUsage.Text.Numeral

/-! Alias sets as text: words separated by white space, in groups. A group is a kind and a number of
sets. A set is a tag, a number of members and the members. A member that starts with `@` is a
global. Any other one is a function and a value of it. -/

namespace LockUsage

inductive AliasSetError where
  | unknownKind (word : String)
  | expectedCount (word : String)
  | unexpectedEnd
  /-- The file cannot be read as text. -/
  | unreadable
deriving DecidableEq

def AliasSetError.message : AliasSetError → String
  | unknownKind word => s!"unknown alias kind `{word}`, expected must, may or no"
  | expectedCount word => s!"expected a count, found `{word}`"
  | unexpectedEnd => "alias file ends in the middle of a set"
  | unreadable => "cannot read alias file"

namespace AliasSet

/-- A reader of the first words, with the words it leaves. -/
abbrev Reader (α : Type) := List String → Except AliasSetError (α × List String)

def kind? : String → Option AliasKind
  | "must" => some .must
  | "may" => some .may
  | "no" => some .no
  | _ => none

def readWord : Reader String
  | [] => .error .unexpectedEnd
  | word :: rest => .ok (word, rest)

def readCount : Reader Nat
  | [] => .error .unexpectedEnd
  | word :: rest =>
    match Text.count? word with
    | some n => .ok (n, rest)
    | none => .error (.expectedCount word)

/-- Local values have a leading `%`. -/
def localName (word : String) : String := if word.startsWith "%" then word else "%" ++ word

def readMember : Reader ScopedName
  | [] => .error .unexpectedEnd
  | first :: rest =>
    if first.startsWith "@" then .ok ((none, first), rest)
    else do
      let (value, rest) ← readWord rest
      return ((some first, localName value), rest)

def readMembers : Nat → Reader (List ScopedName)
  | 0, words => .ok ([], words)
  | n + 1, words => do
    let (member, words) ← readMember words
    let (members, words) ← readMembers n words
    return (member :: members, words)

/-- A set without its tag. Members count once. -/
def readSet (kind : AliasKind) : Reader AliasSet := fun words => do
  let (_, words) ← readWord words
  let (count, words) ← readCount words
  let (members, words) ← readMembers count words
  return (⟨kind, members.eraseDups⟩, words)

def readSets (kind : AliasKind) : Nat → Reader (List AliasSet)
  | 0, words => .ok ([], words)
  | n + 1, words => do
    let (set, words) ← readSet kind words
    let (sets, words) ← readSets kind n words
    return (set :: sets, words)

/-- The sets of all groups. Each group takes a word at least, so there are no more groups than
words. -/
def readGroups : Nat → List String → Except AliasSetError (List AliasSet)
  | fuel + 1, word :: words =>
    match kind? word with
    | none => .error (.unknownKind word)
    | some kind => do
      let (count, words) ← readCount words
      let (sets, words) ← readSets kind count words
      return sets ++ (← readGroups fuel words)
  | _, _ => .ok []

def parse (text : String) : Except AliasSetError (List AliasSet) :=
  readGroups (Text.words text).length (Text.words text)

end AliasSet

end LockUsage
