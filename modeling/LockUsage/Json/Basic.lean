import LockUsage.Text.Numeral

/-! JSON values. Numbers keep their written form and strings and keys keep their escapes, so that
a reader may skip a part of a document without giving it a meaning. Objects keep their members in
order, repeated keys included. -/

namespace LockUsage

/-- The characters between the quotes of a string as they are written. -/
abbrev Json.Literal := String

inductive Json where
  | null
  | bool (value : Bool)
  | number (written : String)
  | string (literal : Json.Literal)
  | array (elements : List Json)
  | object (members : List (Json.Literal × Json))

namespace Json

/-- The four hexadecimal digits of a Unicode escape, and what follows. -/
def unit? : List Char → Option (Nat × List Char)
  | a :: b :: c :: d :: rest => (Text.hexDigits? [a, b, c, d]).map (·, rest)
  | _ => none

def isLeading (code : Nat) : Bool := 0xD800 ≤ code && code ≤ 0xDBFF

def isTrailing (code : Nat) : Bool := 0xDC00 ≤ code && code ≤ 0xDFFF

/-- The character that a Unicode escape stands for. A leading surrogate has to be followed by the
escape of a trailing one. -/
def unescapeUnit? (cs : List Char) : Option (Char × List Char) := do
  let (code, rest) ← unit? cs
  if isLeading code then
    match rest with
    | '\\' :: 'u' :: more =>
      let (low, rest) ← unit? more
      if isTrailing low then
        let c ← Text.scalar? (0x10000 + (code - 0xD800) * 0x400 + (low - 0xDC00))
        some (c, rest)
      else none
    | _ => none
  else
    let c ← Text.scalar? code
    some (c, rest)

/-- The character named by the letter after a backslash. -/
def escaped? : Char → Option Char
  | '"' => some '"'
  | '\\' => some '\\'
  | '/' => some '/'
  | 'b' => some '\x08'
  | 'f' => some '\x0c'
  | 'n' => some '\n'
  | 'r' => some '\r'
  | 't' => some '\t'
  | _ => none

def unescapeFrom (fuel : Nat) (read : List Char) (cs : List Char) : Option String :=
  match fuel, cs with
  | _, [] => some (String.ofList read.reverse)
  | 0, _ :: _ => none
  | fuel + 1, '\\' :: 'u' :: rest => do
    let (c, rest) ← unescapeUnit? rest
    unescapeFrom fuel (c :: read) rest
  | fuel + 1, '\\' :: c :: rest => do
    let c ← escaped? c
    unescapeFrom fuel (c :: read) rest
  | _ + 1, ['\\'] => none
  | fuel + 1, c :: rest => unescapeFrom fuel (c :: read) rest

/-- The text of a string literal. Unpaired surrogates encode no text. -/
def Literal.text? (literal : Literal) : Option String :=
  let cs := literal.toList
  unescapeFrom cs.length [] cs

def escapeChar (c : Char) : List Char :=
  if c = '"' then ['\\', '"']
  else if c = '\\' then ['\\', '\\']
  else if c = '\x08' then ['\\', 'b']
  else if c = '\x0c' then ['\\', 'f']
  else if c = '\n' then ['\\', 'n']
  else if c = '\r' then ['\\', 'r']
  else if c = '\t' then ['\\', 't']
  else if c.toNat < 0x20 then
    "\\u00".toList ++ [Nat.digitChar (c.toNat / 16), Nat.digitChar (c.toNat % 16)]
  else [c]

/-- The written form of a text: quotes, backslashes and control characters are escaped. -/
def Literal.ofText (s : String) : Literal := String.ofList (s.toList.flatMap escapeChar)

def ofText (s : String) : Json := string (Literal.ofText s)

def ofNat (n : Nat) : Json := number (toString n)

def ofInt (i : Int) : Json := number (toString i)

/-- The value, or null where there is none. -/
def ofOption (encode : α → Json) : Option α → Json
  | none => null
  | some a => encode a

def ofList (encode : α → Json) (l : List α) : Json := array (l.map encode)

/-- An object whose keys are plain texts. -/
def record (fields : List (String × Json)) : Json :=
  object (fields.map fun (key, value) => (Literal.ofText key, value))

end Json

end LockUsage
