import LockUsage.Text.Age
import LockUsage.Text.Blank
import LockUsage.Text.Segmentation

/-! Classes of characters that patterns can name. -/

namespace LockUsage.NamePattern

open Text (CodeSet)

def spaceChars : CodeSet := .ofRanges Text.blankRanges

/-! ### Classes of ASCII characters -/

def asciiDigits : CodeSet := .ofText "30-39"

def asciiLetters : CodeSet := .ofText "41-5A 61-7A"

def asciiWordChars : CodeSet := .ofText "30-39 41-5A 5F 61-7A"

def asciiSpaces : CodeSet := .ofText "9-D 20"

def asciiClass? : String → Option CodeSet
  | "alnum" => some (.ofText "30-39 41-5A 61-7A")
  | "alpha" => some asciiLetters
  | "ascii" => some .ascii
  | "blank" => some (.ofText "9 20")
  | "cntrl" => some (.ofText "0-1F 7F")
  | "digit" => some asciiDigits
  | "graph" => some (.ofText "21-7E")
  | "lower" => some (.ofText "61-7A")
  | "print" => some (.ofText "20-7E")
  | "punct" => some (.ofText "21-2F 3A-40 5B-60 7B-7E")
  | "space" => some asciiSpaces
  | "upper" => some (.ofText "41-5A")
  | "word" => some asciiWordChars
  | "xdigit" => some (.ofText "30-39 41-46 61-66")
  | _ => none

/-! ### Properties -/

def isAscii (c : Char) : Bool := c ≤ '\x7f'

/-- Names are compared without regard to case, blanks, underscores, hyphens and a leading `is`. -/
def looseName (name : List Char) : String :=
  let core := match name with
    | i :: s :: rest => if i.toLower == 'i' && s.toLower == 's' then rest else name
    | _ => name
  let letters := core.filter fun c => isAscii c && !(c == ' ' || c == '_' || c == '-')
  let loose := letters.map Char.toLower
  if loose == ['c'] && core.length < name.length then "isc" else String.ofList loose

/-- The general categories that a name stands for. -/
def categories? : String → Option (List String)
  | "cc" | "control" | "cntrl" => some ["Cc"]
  | "cf" | "format" => some ["Cf"]
  | "cn" | "unassigned" => some ["Cn"]
  | "co" | "privateuse" => some ["Co"]
  | "c" | "other" => some ["Cc", "Cf", "Cn", "Co"]
  | "ll" | "lowercaseletter" => some ["Ll"]
  | "lm" | "modifierletter" => some ["Lm"]
  | "lo" | "otherletter" => some ["Lo"]
  | "lt" | "titlecaseletter" => some ["Lt"]
  | "lu" | "uppercaseletter" => some ["Lu"]
  | "lc" | "casedletter" => some ["Lu", "Ll", "Lt"]
  | "l" | "letter" => some ["Lu", "Ll", "Lt", "Lm", "Lo"]
  | "mc" | "spacingmark" => some ["Mc"]
  | "me" | "enclosingmark" => some ["Me"]
  | "mn" | "nonspacingmark" => some ["Mn"]
  | "m" | "mark" | "combiningmark" => some ["Mc", "Me", "Mn"]
  | "nd" | "decimalnumber" | "digit" => some ["Nd"]
  | "nl" | "letternumber" => some ["Nl"]
  | "no" | "othernumber" => some ["No"]
  | "n" | "number" => some ["Nd", "Nl", "No"]
  | "pc" | "connectorpunctuation" => some ["Pc"]
  | "pd" | "dashpunctuation" => some ["Pd"]
  | "pe" | "closepunctuation" => some ["Pe"]
  | "pf" | "finalpunctuation" => some ["Pf"]
  | "pi" | "initialpunctuation" => some ["Pi"]
  | "po" | "otherpunctuation" => some ["Po"]
  | "ps" | "openpunctuation" => some ["Ps"]
  | "p" | "punctuation" | "punct" => some ["Pc", "Pd", "Pe", "Pf", "Pi", "Po", "Ps"]
  | "sc" | "currencysymbol" => some ["Sc"]
  | "sk" | "modifiersymbol" => some ["Sk"]
  | "sm" | "mathsymbol" => some ["Sm"]
  | "so" | "othersymbol" => some ["So"]
  | "s" | "symbol" => some ["Sc", "Sk", "Sm", "So"]
  | "zl" | "lineseparator" => some ["Zl"]
  | "zp" | "paragraphseparator" => some ["Zp"]
  | "zs" | "spaceseparator" => some ["Zs"]
  | "z" | "separator" => some ["Zl", "Zp", "Zs"]
  | _ => none

/-- The class of a general category. Three more names count as categories. -/
def categoryClass? : String → Option CodeSet
  | "any" => some .all
  | "assigned" => some (Text.withCategory ["Cn"]).compl
  | "ascii" => some .ascii
  | name => (categories? name).map Text.withCategory

def scriptClass? (name : String) : Option CodeSet := (Text.scriptCode? name).map Text.withScript

/-- The class of a property, a general category or a script. -/
def namedClass? (name : String) : Option CodeSet :=
  match Text.property? name with
  | some property => some property.set
  | none => (categoryClass? name).or (scriptClass? name)

/-- The class of the characters for which something has a value. -/
def valueClass? (key value : String) : Option CodeSet :=
  match key with
  | "gc" | "generalcategory" => categoryClass? value
  | "sc" | "script" => scriptClass? value
  | "scx" | "scriptextensions" => (Text.scriptCode? value).map Text.usedWithScript
  | "age" => Text.ofVersion? value
  | "gcb" | "graphemeclusterbreak" => Text.Property.graphemePart? value
  | "wb" | "wordbreak" => Text.Property.wordPart? value
  | "sb" | "sentencebreak" => Text.Property.sentencePart? value
  | _ => none

/-- What stands before the first place where a text occurs in another, and what stands after it. -/
def cutAt? (mark : List Char) (read : List Char) : List Char → Option (List Char × List Char)
  | [] => none
  | c :: rest =>
    if mark.isPrefixOf (c :: rest) then some (read.reverse, (c :: rest).drop mark.length)
    else cutAt? mark (c :: read) rest

/-- The class that the text in the braces of a property asks for, and whether it asks for what is
not in the class. -/
def propertyClass? (name : List Char) : Option (CodeSet × Bool) :=
  let value (parts : List Char × List Char) := valueClass? (looseName parts.1) (looseName parts.2)
  match cutAt? ['!', '='] [] name, cutAt? [':'] [] name, cutAt? ['='] [] name with
  | some parts, _, _ => (value parts).map (·, true)
  | none, some parts, _ => (value parts).map (·, false)
  | none, none, some parts => (value parts).map (·, false)
  | none, none, none => (namedClass? (looseName name)).map (·, false)

end LockUsage.NamePattern
