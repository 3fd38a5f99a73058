import LockUsage.Json.Basic

/-! Writing JSON text, on one line or indented by two spaces per level. -/

namespace LockUsage.Json

def quoted (literal : Literal) : String := "\"" ++ literal ++ "\""

def commaSeparated (parts : List String) : String := String.intercalate "," parts

mutual

/-- The value on one line without spaces. -/
def compact : Json → String
  | null => "null"
  | bool true => "true"
  | bool false => "false"
  | number written => written
  | string literal => quoted literal
  | array elements => "[" ++ commaSeparated (compactElements elements) ++ "]"
  | object members => "\x7b" ++ commaSeparated (compactMembers members) ++ "\x7d"

def compactElements : List Json → List String
  | [] => []
  | element :: rest => compact element :: compactElements rest

def compactMembers : List (Literal × Json) → List String
  | [] => []
  | (key, value) :: rest => (quoted key ++ ":" ++ compact value) :: compactMembers rest

end

def newLine (level : Nat) : String := "\n" ++ String.ofList (List.replicate (2 * level) ' ')

/-- The parts on lines of their own between two brackets, nothing between the brackets if there
are none. -/
def bracketed (opening closing : String) (level : Nat) (parts : List String) : String :=
  if parts.isEmpty then opening ++ closing
  else
    opening ++ newLine (level + 1) ++ String.intercalate ("," ++ newLine (level + 1)) parts ++
      newLine level ++ closing

mutual

/-- The value with one element or member a line, where `level` is the depth of its own line. -/
def indented (level : Nat) : Json → String
  | null => "null"
  | bool true => "true"
  | bool false => "false"
  | number written => written
  | string literal => quoted literal
  | array elements => bracketed "[" "]" level (indentedElements (level + 1) elements)
  | object members => bracketed "\x7b" "\x7d" level (indentedMembers (level + 1) members)

def indentedElements (level : Nat) : List Json → List String
  | [] => []
  | element :: rest => indented level element :: indentedElements level rest

def indentedMembers (level : Nat) : List (Literal × Json) → List String
  | [] => []
  | (key, value) :: rest =>
    (quoted key ++ ": " ++ indented level value) :: indentedMembers level rest

end

def pretty (json : Json) : String := json.indented 0

end LockUsage.Json
