import LockUsage.Json.Basic

/-! Reading JSON text. The grammar is the strict one: no comments, no trailing commas, no leading
zeros, no control characters inside strings, nothing but white space after the value. -/

namespace LockUsage.Json

def isSpace (c : Char) : Bool := c == ' ' || c == '\t' || c == '\n' || c == '\r'

def skipSpace (cs : List Char) : List Char := cs.dropWhile isSpace

def isDigit (c : Char) : Bool := (Text.digit? c).isSome

/-- The rest of a string after its opening quote, up to the closing one. -/
def literalFrom (read : List Char) : List Char → Option (Literal × List Char)
  | [] => none
  | '"' :: rest => some (String.ofList read.reverse, rest)
  | '\\' :: 'u' :: a :: b :: c :: d :: rest =>
    if (Text.hexDigits? [a, b, c, d]).isSome then
      literalFrom (d :: c :: b :: a :: 'u' :: '\\' :: read) rest
    else none
  | '\\' :: c :: rest =>
    if (escaped? c).isSome then literalFrom (c :: '\\' :: read) rest else none
  | c :: rest => if c.toNat < 0x20 then none else literalFrom (c :: read) rest

/-- One digit or more, and what follows. -/
def digits? (cs : List Char) : Option (List Char × List Char) :=
  let digits := cs.takeWhile isDigit
  if digits.isEmpty then none else some (digits, cs.dropWhile isDigit)

def integer? : List Char → Option (List Char × List Char)
  | '0' :: rest =>
    match rest with
    | c :: _ => if isDigit c then none else some (['0'], rest)
    | [] => some (['0'], rest)
  | cs => digits? cs

def fraction? : List Char → Option (List Char × List Char)
  | '.' :: rest => (digits? rest).map fun (digits, rest) => ('.' :: digits, rest)
  | cs => some ([], cs)

def exponentDigits? (mark : List Char) (cs : List Char) : Option (List Char × List Char) :=
  (digits? cs).map fun (digits, rest) => (mark ++ digits, rest)

def exponent? : List Char → Option (List Char × List Char)
  | c :: rest =>
    if c = 'e' ∨ c = 'E' then
      match rest with
      | '+' :: rest => exponentDigits? [c, '+'] rest
      | '-' :: rest => exponentDigits? [c, '-'] rest
      | rest => exponentDigits? [c] rest
    else some ([], c :: rest)
  | [] => some ([], [])

def unsigned? (sign : List Char) (cs : List Char) : Option (Json × List Char) := do
  let (whole, rest) ← integer? cs
  let (part, rest) ← fraction? rest
  let (power, rest) ← exponent? rest
  some (number (String.ofList (sign ++ whole ++ part ++ power)), rest)

def number? : List Char → Option (Json × List Char)
  | '-' :: rest => unsigned? ['-'] rest
  | cs => unsigned? [] cs

mutual

def value? (fuel : Nat) (cs : List Char) : Option (Json × List Char) :=
  match fuel with
  | 0 => none
  | fuel + 1 =>
    match skipSpace cs with
    | 'n' :: 'u' :: 'l' :: 'l' :: rest => some (null, rest)
    | 't' :: 'r' :: 'u' :: 'e' :: rest => some (bool true, rest)
    | 'f' :: 'a' :: 'l' :: 's' :: 'e' :: rest => some (bool false, rest)
    | '"' :: rest => (literalFrom [] rest).map fun (literal, rest) => (string literal, rest)
    | '[' :: rest =>
      match skipSpace rest with
      | ']' :: rest => some (array [], rest)
      | rest => elements? fuel [] rest
    | '{' :: rest =>
      match skipSpace rest with
      | '}' :: rest => some (object [], rest)
      | rest => members? fuel [] rest
    | rest => number? rest

/-- The elements after the ones read, given backwards, up to the closing bracket. -/
def elements? (fuel : Nat) (read : List Json) (cs : List Char) : Option (Json × List Char) :=
  match fuel with
  | 0 => none
  | fuel + 1 =>
    match value? fuel cs with
    | none => none
    | some (element, rest) =>
      match skipSpace rest with
      | ',' :: rest => elements? fuel (element :: read) rest
      | ']' :: rest => some (array (element :: read).reverse, rest)
      | _ => none

/-- The members after the ones read, given backwards, up to the closing brace. -/
def members? (fuel : Nat) (read : List (Literal × Json)) (cs : List Char) :
    Option (Json × List Char) :=
  match fuel with
  | 0 => none
  | fuel + 1 =>
    match skipSpace cs with
    | '"' :: rest =>
      match literalFrom [] rest with
      | none => none
      | some (key, rest) =>
        match skipSpace rest with
        | ':' :: rest =>
          match value? fuel rest with
          | none => none
          | some (value, rest) =>
            match skipSpace rest with
            | ',' :: rest => members? fuel ((key, value) :: read) rest
            | '}' :: rest => some (object ((key, value) :: read).reverse, rest)
            | _ => none
        | _ => none
    | _ => none

end

/-- The value that a text writes. Each call of the reader but every second consumes a character,
which bounds their number. -/
def parse? (s : String) : Option Json :=
  let cs := s.toList
  match value? (2 * cs.length + 2) cs with
  | some (json, rest) => if (skipSpace rest).isEmpty then some json else none
  | none => none

end LockUsage.Json
