import LockUsage.Toml.Scalar

/-! Reading configuration files. Malformed ones have no reading. -/

namespace LockUsage.Toml

/-- Tabs and all characters but the other controls may stand in comments and strings. -/
def isPlain (c : Char) : Bool := c == '\t' || (' ' ≤ c && c != '\x7f')

def skipBlanks (cs : List Char) : List Char := cs.dropWhile fun c => c == ' ' || c == '\t'

/-- Drops a line end, if there is one. -/
def newline? : List Char → Option (List Char)
  | '\n' :: rest => some rest
  | '\r' :: '\n' :: rest => some rest
  | _ => none

/-- Drops a comment, if there is one. -/
def skipComment : List Char → List Char
  | '#' :: rest => rest.dropWhile isPlain
  | cs => cs

/-- Drops the rest of a line that holds nothing more. -/
def endLine? (cs : List Char) : Option (List Char) :=
  match skipComment (skipBlanks cs) with
  | [] => some []
  | cs => newline? cs

/-- Drops blanks, comments and line ends. -/
def skipLayout : Nat → List Char → List Char
  | fuel + 1, cs =>
    let cs := skipComment (skipBlanks cs)
    match newline? cs with
    | some rest => skipLayout fuel rest
    | none => cs
  | 0, cs => cs

/-! ### Strings -/

def hexEscape? (width : Nat) (cs : List Char) : Option (Char × List Char) :=
  if cs.length < width then none
  else do return (← (Text.hexDigits? (cs.take width)).bind Text.scalar?, cs.drop width)

/-- The character of an escape, after the backslash. -/
def escape? : List Char → Option (Char × List Char)
  | 'b' :: rest => some ('\x08', rest)
  | 't' :: rest => some ('\t', rest)
  | 'n' :: rest => some ('\n', rest)
  | 'f' :: rest => some ('\x0c', rest)
  | 'r' :: rest => some ('\r', rest)
  | 'e' :: rest => some ('\x1b', rest)
  | '"' :: rest => some ('"', rest)
  | '\\' :: rest => some ('\\', rest)
  | 'x' :: rest => hexEscape? 2 rest
  | 'u' :: rest => hexEscape? 4 rest
  | 'U' :: rest => hexEscape? 8 rest
  | _ => none

/-- The rest of a string on one line. Only basic strings have escapes. -/
def readString (quote : Char) : Nat → List Char → List Char → Option (String × List Char)
  | fuel + 1, read, c :: rest =>
    if c = quote then some (String.ofList read.reverse, rest)
    else if c = '\\' ∧ quote = '"' then do
      let (c, rest) ← escape? rest
      readString quote fuel (c :: read) rest
    else if isPlain c then readString quote fuel (c :: read) rest
    else none
  | _, _, _ => none

/-- Drops blanks and line ends. -/
def skipEmptyLines : Nat → List Char → List Char
  | fuel + 1, cs =>
    match newline? (skipBlanks cs) with
    | some rest => skipEmptyLines fuel rest
    | none => skipBlanks cs
  | 0, cs => cs

/-- A backslash at the end of a line drops all layout up to the next character. -/
def lineJoin? (cs : List Char) : Option (List Char) :=
  (newline? (skipBlanks cs)).map fun rest => skipEmptyLines (rest.length + 1) rest

/-- A line end within a string, as it is written. -/
def writtenNewline? : List Char → Option (List Char × List Char)
  | '\n' :: rest => some (['\n'], rest)
  | '\r' :: '\n' :: rest => some (['\r', '\n'], rest)
  | _ => none

/-- The rest of a string over several lines. Up to two quotes may stand before the closing ones. -/
def readLines (quote : Char) : Nat → List Char → List Char → Option (String × List Char)
  | fuel + 1, read, c :: rest =>
    if c = quote then
      let quotes := (c :: rest).takeWhile (· == quote)
      if quotes.length < 3 then readLines quote fuel (c :: read) rest
      else if 5 < quotes.length then none
      else
        some (String.ofList (read.reverse ++ List.replicate (quotes.length - 3) quote),
          (c :: rest).drop quotes.length)
    else if c = '\\' ∧ quote = '"' then
      match lineJoin? rest with
      | some rest => readLines quote fuel read rest
      | none => do
        let (c, rest) ← escape? rest
        readLines quote fuel (c :: read) rest
    else if isPlain c then readLines quote fuel (c :: read) rest
    else do
      let (written, rest) ← writtenNewline? (c :: rest)
      readLines quote fuel (written.reverse ++ read) rest
  | _, _, _ => none

/-- A string of any kind, after its first quote. -/
def readQuoted (quote : Char) (cs : List Char) : Option (String × List Char) :=
  match cs with
  | a :: b :: rest =>
    if a = quote ∧ b = quote then readLines quote rest.length [] ((newline? rest).getD rest)
    else readString quote cs.length [] cs
  | cs => readString quote cs.length [] cs

/-! ### Keys -/

def isBare (c : Char) : Bool := c.isAlphanum || c == '_' || c == '-'

def readKeyPart : List Char → Option (String × List Char)
  | '"' :: rest => readString '"' rest.length [] rest
  | '\'' :: rest => readString '\'' rest.length [] rest
  | cs =>
    let key := cs.takeWhile isBare
    if key.isEmpty then none else some (String.ofList key, cs.drop key.length)

/-- How many parts a dotted key may have, and how deeply arrays and tables may be nested. -/
def nestingLimit : Nat := 80

/-- A dotted key of at most so many parts, and what follows it and blanks. -/
def readKeyWithin : Nat → List Char → Option (List String × List Char)
  | 0, _ => none
  | limit + 1, cs => do
    let (part, rest) ← readKeyPart (skipBlanks cs)
    match skipBlanks rest with
    | '.' :: rest =>
      let (parts, rest) ← readKeyWithin limit rest
      return (part :: parts, rest)
    | rest => return ([part], rest)

def readKey (cs : List Char) : Option (List String × List Char) := readKeyWithin nestingLimit cs

/-! ### Values -/

def isWordEnd (c : Char) : Bool := c ∈ [' ', '\t', '\n', '\r', ',', ']', '\x7d', '#', '=']

/-- A word. A day may have its time of day after a blank. -/
def takeWord (cs : List Char) : List Char :=
  let word := cs.takeWhile fun c => !isWordEnd c
  match readDay? word, cs.drop word.length with
  | some [], ' ' :: c :: rest =>
    if isDecimal c then word ++ ' ' :: (c :: rest).takeWhile (fun c => !isWordEnd c) else word
  | _, _ => word

mutual

/-- A value in which arrays and tables are nested at most `depth` deep. -/
def readValue : Nat → Nat → List Char → Option (Value × List Char)
  | 0, _, _ => none
  | fuel + 1, depth, cs =>
    match cs, depth with
    | '"' :: rest, _ => (readQuoted '"' rest).map fun (text, rest) => (.string text, rest)
    | '\'' :: rest, _ => (readQuoted '\'' rest).map fun (text, rest) => (.string text, rest)
    | '[' :: _, 0 | '\x7b' :: _, 0 => none
    | '[' :: rest, depth + 1 => readElements fuel depth [] (skipLayout rest.length rest)
    | '\x7b' :: rest, depth + 1 => readMembers fuel depth [] (skipLayout rest.length rest)
    | cs, _ => (scalar? (takeWord cs)).map fun value => (value, cs.drop (takeWord cs).length)

/-- The rest of an array, from an element or the closing bracket on. -/
def readElements : Nat → Nat → List Value → List Char → Option (Value × List Char)
  | 0, _, _, _ => none
  | fuel + 1, depth, read, cs =>
    match cs with
    | ']' :: rest => some (.array read.reverse, rest)
    | cs => do
      let (value, rest) ← readValue fuel depth cs
      match skipLayout rest.length rest with
      | ',' :: rest => readElements fuel depth (value :: read) (skipLayout rest.length rest)
      | ']' :: rest => some (.array (value :: read).reverse, rest)
      | _ => none

/-- The rest of a table in braces, from a key or the closing brace on. -/
def readMembers : Nat → Nat → Members → List Char → Option (Value × List Char)
  | 0, _, _, _ => none
  | fuel + 1, depth, members, cs =>
    match cs with
    | '\x7d' :: rest => some (.table (closeMembers members), rest)
    | cs => do
      let (key, rest) ← readKey cs
      match skipLayout rest.length rest with
      | '=' :: rest =>
        let (value, rest) ← readValue fuel depth (skipLayout rest.length rest)
        let members ← put? key value members
        match skipLayout rest.length rest with
        | ',' :: rest => readMembers fuel depth members (skipLayout rest.length rest)
        | '\x7d' :: rest => some (.table (closeMembers members), rest)
        | _ => none
      | _ => none

end

/-! ### Documents -/

/-- The tables read so far and the path of the last header. -/
structure Document where
  root : Members
  path : List String

/-- Opens the table that a path names. -/
def Document.openAt? (d : Document) (path : List String)
    (opener : String → Members → Option Members) : Option Document := do
  let key ← path.getLast?
  let root ← atHeader? path.dropLast (opener key) d.root
  return ⟨root, path⟩

/-- One line with content. -/
def readLine (d : Document) : List Char → Option (Document × List Char)
  | '[' :: '[' :: rest => do
    match ← readKey rest with
    | (path, ']' :: ']' :: rest) => return (← d.openAt? path openNext?, rest)
    | _ => none
  | '[' :: rest => do
    match ← readKey rest with
    | (path, ']' :: rest) => return (← d.openAt? path openTable?, rest)
    | _ => none
  | cs => do
    match ← readKey cs with
    | (key, '=' :: rest) =>
      let (value, rest) ← readValue (rest.length + 1) nestingLimit (skipBlanks rest)
      let root ← atHeader? d.path (put? key value) d.root
      return ({ d with root }, rest)
    | _ => none

def readFrom : Nat → Document → List Char → Option Document
  | 0, _, _ => none
  | fuel + 1, d, cs =>
    match skipLayout cs.length cs with
    | [] => some d
    | cs => do
      let (d, rest) ← readLine d cs
      readFrom fuel d (← endLine? rest)

/-- The content of a configuration file. A byte order mark at its start does not count. -/
def parse? (text : String) : Option Json :=
  let cs := match text.toList with
    | '\ufeff' :: rest => rest
    | cs => cs
  (readFrom (cs.length + 1) ⟨[], []⟩ cs).map fun d => (Value.table (closeMembers d.root)).toJson

end LockUsage.Toml
