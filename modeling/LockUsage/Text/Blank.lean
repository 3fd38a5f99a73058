/-! White space in running text: it separates the words of a token stream and is cut off at both
ends of an operand. -/

namespace LockUsage.Text

/-- Whether a code point lies in one of the ranges, ends included. -/
def inRanges (ranges : List (Nat × Nat)) (code : Nat) : Bool :=
  ranges.any fun r => r.1 ≤ code && code ≤ r.2

/-- The code points with the property White_Space. -/
def blankRanges : List (Nat × Nat) :=
  [(9, 13), (32, 32), (133, 133), (160, 160), (5760, 5760), (8192, 8202), (8232, 8233),
    (8239, 8239), (8287, 8287), (12288, 12288)]

def isBlank (c : Char) : Bool := inRanges blankRanges c.toNat

/-- The text without white space at its two ends. -/
def trim (s : String) : String :=
  String.ofList (((s.toList.dropWhile isBlank).reverse.dropWhile isBlank).reverse)

/-- The word read so far, backwards, as a list of at most one word. -/
def pendingWord (word : List Char) : List String :=
  if word.isEmpty then [] else [String.ofList word.reverse]

def wordsFrom (word : List Char) : List Char → List String
  | [] => pendingWord word
  | c :: rest =>
    if isBlank c then pendingWord word ++ wordsFrom [] rest else wordsFrom (c :: word) rest

/-- The maximal runs of characters that are not white space. -/
def words (s : String) : List String := wordsFrom [] s.toList

end LockUsage.Text
