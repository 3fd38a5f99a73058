import LockUsage.Text.Blank

/-! Splitting a line into words, with quotes and backslashes. -/

namespace LockUsage.CommandLine

def isSpecial (c : Char) : Bool := c == '\\' || c == '\'' || c == '"'

/-- The text up to the closing quote, and what follows. A backslash counts before the characters
that are special here, and a line may not end in one. -/
def readQuoted? : List Char → Option (List Char × List Char)
  | [] | ['\\'] => none
  | '"' :: rest => some ([], rest)
  | '\\' :: c :: rest =>
    if c = '\n' then none
    else
      (readQuoted? rest).map fun (text, rest) =>
        (if c ∈ ['$', '`', '"', '\\'] then c :: text else '\\' :: c :: text, rest)
  | c :: rest => (readQuoted? rest).map fun (text, rest) => (c :: text, rest)

/-- A part of a word: a quoted text, an escaped character or a run of plain ones. A quote without
its partner begins no part. -/
def readPart? : List Char → Option (List Char × List Char)
  | [] => some ([], [])
  | '\'' :: rest =>
    let text := rest.takeWhile (· != '\'')
    match rest.drop text.length with
    | _ :: rest => some (text, rest)
    | [] => none
  | '"' :: rest => readQuoted? rest
  | ['\\'] => some (['\\'], [])
  | '\\' :: c :: rest => if c = '\n' then some (['\\'], c :: rest) else some ([c], rest)
  | cs =>
    let run := cs.takeWhile fun c => !Text.isBlank c && !isSpecial c
    some (run, cs.drop run.length)

/-- The words of the rest of a line, given the parts of the first of them. -/
def wordsFrom? : Nat → List Char → List Char → Option (List String)
  | 0, _, _ => some []
  | fuel + 1, word, cs =>
    match cs.dropWhile Text.isBlank with
    | [] => some []
    | cs =>
      match readPart? cs with
      | none => none
      | some (part, []) => some [String.ofList (word ++ part)]
      | some (part, c :: rest) =>
        if Text.isBlank c then
          (wordsFrom? fuel [] rest).map (String.ofList (word ++ part) :: ·)
        else wordsFrom? fuel (word ++ part) (c :: rest)

/-- The words of a line. There are none if a quote has no partner. -/
def words? (line : String) : Option (List String) :=
  wordsFrom? (line.length + 1) [] line.toList

end LockUsage.CommandLine
